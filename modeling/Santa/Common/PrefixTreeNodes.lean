import Mathlib.Algebra.GroupWithZero.Nat
import Mathlib.Algebra.Order.BigOperators.Group.List
import Mathlib.Algebra.Order.Ring.Nat
import Santa.Common.PrefixTree

/-!
The nodes of the prefix tree and their count. A branch is built node by node and
pruned when it gets too deep; pruning walks a subtree with a stack whose size is
taken from the count. The count goes up for a new node and also when an inner
node becomes an entry, and it has 32 bits.
-/
namespace SantaPrefixTree
variable {V : Type}

def TreeNode.clearChild (node : TreeNode V) (byte : UInt8) : TreeNode V :=
  ⟨fun b => if b = byte then none else node.children b, node.nodeType, node.value⟩

def TreeNode.childList (node : TreeNode V) : List (TreeNode V) :=
  (List.range 256).filterMap fun i => node.children (UInt8.ofNat i)

/-! ### The operations with their count -/

/-- The walk of a subtree: the slots of its stack, the most it uses, and the count after it. -/
structure Walk where
  slots : Nat
  highest : Nat
  deleted : Nat
  finished : Bool
  nodeCount : UInt32
  deriving DecidableEq, Repr

def walkNodes : Nat → List (TreeNode V) → Walk → Walk
  | _, [], walk => { walk with finished := true }
  | 0, _, walk => walk
  | fuel + 1, node :: stack, walk =>
      let stack := node.childList.reverse ++ stack
      walkNodes fuel stack
        { walk with
          highest := max walk.highest stack.length
          deleted := walk.deleted + 1
          nodeCount := walk.nodeCount - 1 }

mutual
def weightBelow (weight : NodeType → Nat) : TreeNode V → Nat
  | .mk children _ _ =>
      ((List.range 256).map fun i => weightAt weight (children (UInt8.ofNat i))).sum

def weightAt (weight : NodeType → Nat) : Option (TreeNode V) → Nat
  | none => 0
  | some child => weightBelow weight child + weight child.nodeType
end

def nodesBelow (node : TreeNode V) : Nat := weightBelow (fun _ => 1) node

def pruneLocked (target : TreeNode V) (nodeCount : UInt32) : Walk :=
  walkNodes (nodesBelow target + 1) [target] ⟨(nodeCount + 1).toNat, 1, 0, false, nodeCount⟩

structure Branch (V : Type) where
  complete : Bool
  node : TreeNode V
  nodeCount : UInt32

def buildBranch (maxDepth : Nat) (nodeType : NodeType) (value : V) :
    Nat → List UInt8 → UInt32 → Branch V
  | depth, [], nodeCount =>
      if maxDepth ≤ depth then ⟨false, .new, nodeCount + 1⟩
      else ⟨true, TreeNode.new.setData nodeType value, nodeCount + 1⟩
  | depth, byte :: rest, nodeCount =>
      if maxDepth ≤ depth then ⟨false, .new, nodeCount + 1⟩
      else
        let branch := buildBranch maxDepth nodeType value (depth + 1) rest (nodeCount + 1)
        { branch with node := TreeNode.new.setChild byte branch.node }

structure Inserted (V : Type) where
  inserted : Bool
  node : TreeNode V
  nodeCount : UInt32
  pruned : Option Walk

def insertCounted (maxDepth : Nat) (nodeType : NodeType) (value : V) :
    TreeNode V → Nat → List UInt8 → UInt32 → Inserted V
  | node, _, [], nodeCount => ⟨false, node, nodeCount, none⟩
  | node, depth, byte :: rest, nodeCount =>
      match node.children byte with
      | none =>
          let branch := buildBranch maxDepth nodeType value depth rest nodeCount
          if branch.complete then ⟨true, node.setChild byte branch.node, branch.nodeCount, none⟩
          else
            let walk := pruneLocked branch.node branch.nodeCount
            ⟨false, (node.setChild byte branch.node).clearChild byte, walk.nodeCount, some walk⟩
      | some child =>
          if rest = [] then
            -- an entry that is overwritten was counted before
            ⟨true, node.setChild byte (child.setData nodeType value),
              if child.nodeType = .kInner then nodeCount + 1 else nodeCount, none⟩
          else
            let below := insertCounted maxDepth nodeType value child (depth + 1) rest nodeCount
            { below with node := node.setChild byte below.node }

structure CountedTree (V : Type) where
  root : TreeNode V
  maxDepth : Nat
  nodeCount : UInt32

namespace CountedTree

def new (maxDepth : Nat) : CountedTree V := ⟨.new, maxDepth, 0⟩

def insert (tree : CountedTree V) (input : List UInt8) (nodeType : NodeType) (value : V) :
    Inserted V :=
  insertCounted tree.maxDepth nodeType value tree.root 0 input tree.nodeCount

/-- The root is deleted with the rest, and the count set to zero whatever it was. -/
def reset (tree : CountedTree V) : CountedTree V × Walk :=
  (⟨.new, tree.maxDepth, 0⟩, pruneLocked tree.root tree.nodeCount)

end CountedTree

/-! ### Sums over the nodes -/

theorem sum_update (f : Nat → Nat) (a : Nat) {i n : Nat} (inside : i < n) :
    ((List.range n).map fun j => if j = i then a else f j).sum + f i =
      ((List.range n).map f).sum + a := by
  induction n with
  | zero => cases inside
  | succ n ih =>
    simp only [List.range_succ, List.map_append, List.sum_append, List.map_cons, List.map_nil,
      List.sum_cons, List.sum_nil, Nat.add_zero]
    by_cases last : i = n
    · subst last
      have rest : ((List.range i).map fun j => if j = i then a else f j) =
          (List.range i).map f := by
        refine List.map_congr_left fun j member => if_neg ?_
        have := List.mem_range.mp member
        omega
      rw [rest, if_pos rfl]
      omega
    · rw [if_neg (Ne.symm last)]
      have := ih (by omega)
      omega

theorem weightBelow_eq (weight : NodeType → Nat) (node : TreeNode V) :
    weightBelow weight node =
      ((List.range 256).map fun i => weightAt weight (node.children (UInt8.ofNat i))).sum := by
  cases node
  rfl

theorem ofNat_eq_iff {i : Nat} (small : i < 256) (byte : UInt8) :
    UInt8.ofNat i = byte ↔ i = byte.toNat := by
  rw [← UInt8.toNat_inj, UInt8.toNat_ofNat_of_lt' small]

theorem weightBelow_setChild (weight : NodeType → Nat) (node child : TreeNode V) (byte : UInt8) :
    weightBelow weight (node.setChild byte child) + weightAt weight (node.children byte) =
      weightBelow weight node + (weightBelow weight child + weight child.nodeType) := by
  have below := sum_update (fun i => weightAt weight (node.children (UInt8.ofNat i)))
    (weightAt weight (some child)) (UInt8.toNat_lt byte)
  rw [UInt8.ofNat_toNat] at below
  rw [weightBelow_eq, weightBelow_eq weight node]
  refine Eq.trans ?_ below
  congr 2
  refine List.map_congr_left fun i member => ?_
  rw [TreeNode.children_setChild]
  by_cases same : i = byte.toNat
  · rw [if_pos ((ofNat_eq_iff (List.mem_range.mp member) byte).mpr same), if_pos same]
  · rw [if_neg (fun h => same ((ofNat_eq_iff (List.mem_range.mp member) byte).mp h)), if_neg same]

theorem weightBelow_setData (weight : NodeType → Nat) (node : TreeNode V) (nodeType : NodeType)
    (value : V) : weightBelow weight (node.setData nodeType value) = weightBelow weight node := by
  rw [weightBelow_eq, weightBelow_eq]
  rfl

theorem weightBelow_childList (weight : NodeType → Nat) (node : TreeNode V) :
    weightBelow weight node =
      (node.childList.map fun child => weightBelow weight child + weight child.nodeType).sum := by
  rw [weightBelow_eq, TreeNode.childList]
  induction List.range 256 with
  | nil => rfl
  | cons i is ih =>
    rw [List.map_cons, List.sum_cons, ih, List.filterMap_cons]
    cases node.children (UInt8.ofNat i) with
    | none => simp [weightAt]
    | some child => simp [weightAt]

theorem weightBelow_new (weight : NodeType → Nat) :
    weightBelow weight (TreeNode.new : TreeNode V) = 0 := by
  have none : (TreeNode.new : TreeNode V).childList = [] :=
    List.filterMap_eq_nil_iff.mpr fun _ _ => rfl
  rw [weightBelow_childList, none]
  rfl

theorem nodesBelow_new : nodesBelow (TreeNode.new : TreeNode V) = 0 := weightBelow_new _

theorem nodesBelow_setChild (node child : TreeNode V) (byte : UInt8) :
    nodesBelow (node.setChild byte child) + weightAt (fun _ => 1) (node.children byte) =
      nodesBelow node + nodesBelow child + 1 :=
  weightBelow_setChild (fun _ => 1) node child byte

theorem nodesBelow_setData (node : TreeNode V) (nodeType : NodeType) (value : V) :
    nodesBelow (node.setData nodeType value) = nodesBelow node :=
  weightBelow_setData _ node nodeType value

/-! ### Pruning -/

def stackNodes (stack : List (TreeNode V)) : Nat :=
  (stack.map fun node => nodesBelow node + 1).sum

theorem length_le_stackNodes (stack : List (TreeNode V)) : stack.length ≤ stackNodes stack := by
  induction stack with
  | nil => exact Nat.le_refl 0
  | cons node stack ih =>
    have rest : stackNodes (node :: stack) = nodesBelow node + 1 + stackNodes stack := rfl
    rw [rest, List.length_cons]
    omega

theorem stackNodes_push (node : TreeNode V) (stack : List (TreeNode V)) :
    stackNodes (node.childList.reverse ++ stack) + 1 = stackNodes (node :: stack) := by
  have children : nodesBelow node = (node.childList.map fun child => nodesBelow child + 1).sum :=
    weightBelow_childList _ node
  simp only [stackNodes, List.map_append, List.map_reverse, List.sum_append, List.sum_reverse,
    List.map_cons, List.sum_cons]
  omega

structure Walked (stack : List (TreeNode V)) (before after : Walk) : Prop where
  finished : after.finished = true
  slots : after.slots = before.slots
  highest : after.highest ≤ max before.highest (stackNodes stack)
  deleted : after.deleted = before.deleted + stackNodes stack
  nodeCount : after.nodeCount = before.nodeCount - UInt32.ofNat (stackNodes stack)

theorem walkNodes_walked {fuel : Nat} {stack : List (TreeNode V)} (walk : Walk)
    (enough : stackNodes stack ≤ fuel) : Walked stack walk (walkNodes fuel stack walk) := by
  induction fuel generalizing stack walk with
  | zero =>
    cases stack with
    | nil => exact ⟨rfl, rfl, Nat.le_max_left _ _, rfl, (UInt32.sub_zero _).symm⟩
    | cons node stack =>
      have some := length_le_stackNodes (node :: stack)
      rw [List.length_cons] at some
      omega
  | succ fuel ih =>
    cases stack with
    | nil => exact ⟨rfl, rfl, Nat.le_max_left _ _, rfl, (UInt32.sub_zero _).symm⟩
    | cons node stack =>
      have fewer := stackNodes_push node stack
      have rest : stackNodes (node.childList.reverse ++ stack) ≤ fuel := by omega
      obtain ⟨finished, slots, highest, deleted, nodeCount⟩ :=
        ih { walk with
          highest := max walk.highest (node.childList.reverse ++ stack).length
          deleted := walk.deleted + 1
          nodeCount := walk.nodeCount - 1 } rest
      have pushed := length_le_stackNodes (node.childList.reverse ++ stack)
      refine ⟨finished, slots, ?_, ?_, ?_⟩
      · refine Nat.le_trans highest ?_
        simp only
        omega
      · rw [walkNodes, deleted]
        simp only
        omega
      · rw [walkNodes, nodeCount, ← fewer, UInt32.ofNat_add]
        simp only
        grind

theorem pruneLocked_walked (target : TreeNode V) (nodeCount : UInt32) :
    Walked [target] ⟨(nodeCount + 1).toNat, 1, 0, false, nodeCount⟩
      (pruneLocked target nodeCount) :=
  walkNodes_walked _ (Nat.le_refl _)

theorem stackNodes_single (target : TreeNode V) : stackNodes [target] = nodesBelow target + 1 :=
  Nat.add_zero _

/-! ### Building a branch -/

theorem buildBranch_nodeCount (maxDepth : Nat) (nodeType : NodeType) (value : V) (depth : Nat)
    (rest : List UInt8) (nodeCount : UInt32) :
    (buildBranch maxDepth nodeType value depth rest nodeCount).nodeCount = nodeCount +
      UInt32.ofNat (nodesBelow (buildBranch maxDepth nodeType value depth rest nodeCount).node
        + 1) := by
  induction rest generalizing depth nodeCount with
  | nil =>
    rw [buildBranch]
    split
    · rw [nodesBelow_new]
      rfl
    · rw [nodesBelow_setData, nodesBelow_new]
      rfl
  | cons byte rest ih =>
    rw [buildBranch]
    split
    · rw [nodesBelow_new]
      rfl
    · have added := nodesBelow_setChild TreeNode.new
        (buildBranch maxDepth nodeType value (depth + 1) rest (nodeCount + 1)).node byte
      rw [nodesBelow_new, TreeNode.children_new, weightAt, Nat.add_zero, Nat.zero_add] at added
      simp only
      rw [added, ih, UInt32.ofNat_add (_ + 1) 1, UInt32.add_assoc, UInt32.add_comm 1]
      rfl

theorem buildBranch_complete (maxDepth : Nat) (nodeType : NodeType) (value : V) (depth : Nat)
    (rest : List UInt8) (nodeCount : UInt32) :
    newBranch maxDepth nodeType value depth rest =
      if (buildBranch maxDepth nodeType value depth rest nodeCount).complete then
        some (buildBranch maxDepth nodeType value depth rest nodeCount).node
      else none := by
  induction rest generalizing depth nodeCount with
  | nil =>
    rw [buildBranch, newBranch]
    split <;> rfl
  | cons byte rest ih =>
    rw [buildBranch, newBranch]
    split
    · rfl
    · rw [ih (depth + 1) (nodeCount + 1)]
      simp only
      split <;> rfl

/-! ### Inserting -/

def promotes : TreeNode V → List UInt8 → Nat
  | _, [] => 0
  | node, byte :: rest =>
      match node.children byte with
      | none => 0
      | some child =>
          if rest = [] then (if child.nodeType = .kInner then 1 else 0) else promotes child rest

theorem setChild_same {node child : TreeNode V} {byte : UInt8}
    (here : node.children byte = some child) : node.setChild byte child = node := by
  obtain ⟨children, nodeType, value⟩ := node
  refine congrArg (fun f => TreeNode.mk f nodeType value) (funext fun b => ?_)
  by_cases same : b = byte
  · rw [if_pos same, same]
    exact here.symm
  · exact if_neg same

theorem clearChild_setChild {node : TreeNode V} {byte : UInt8} (branch : TreeNode V)
    (absent : node.children byte = none) :
    (node.setChild byte branch).clearChild byte = node := by
  obtain ⟨children, nodeType, value⟩ := node
  refine congrArg (fun f => TreeNode.mk f nodeType value) (funext fun b => ?_)
  by_cases same : b = byte
  · rw [if_pos same, same]
    exact absent.symm
  · rw [if_neg same]
    exact if_neg same

theorem nodesBelow_child {node child : TreeNode V} {byte : UInt8}
    (here : node.children byte = some child) : nodesBelow child + 1 ≤ nodesBelow node + 1 := by
  have replaced := nodesBelow_setChild node .new byte
  rw [here, nodesBelow_new] at replaced
  have counted : weightAt (fun _ => 1) (some child) = nodesBelow child + 1 := rfl
  omega

/-- The walk that ends a rejected insertion: it starts from a branch that was counted. -/
structure PrunedBranch (total : Nat) (walk : Walk) : Prop where
  finished : walk.finished = true
  slots : walk.slots = (total + walk.deleted + 1) % 2 ^ 32
  highest : walk.highest ≤ walk.deleted

structure InsertSpec (maxDepth : Nat) (nodeType : NodeType) (value : V) (node : TreeNode V)
    (depth : Nat) (input : List UInt8) (total : Nat) (r : Inserted V) : Prop where
  refines : insertLocked maxDepth nodeType value node depth input =
    if r.inserted then some r.node else none
  rejected : r.inserted = false → r.node = node ∧ r.nodeCount = UInt32.ofNat total
  accepted : r.inserted = true → r.nodeCount + UInt32.ofNat (nodesBelow node) =
    UInt32.ofNat (total + nodesBelow r.node + promotes node input)
  pruned : ∀ walk, r.pruned = some walk → r.inserted = false ∧ PrunedBranch total walk

theorem toNat_ofNat_succ (n : Nat) : (UInt32.ofNat n + 1).toNat = (n + 1) % 2 ^ 32 := by
  have next : UInt32.ofNat n + 1 = UInt32.ofNat (n + 1) := (UInt32.ofNat_add n 1).symm
  rw [next, UInt32.toNat_ofNat']

theorem prune_branch {total : Nat} {branch : TreeNode V} {nodeCount : UInt32}
    (counted : nodeCount = UInt32.ofNat total + UInt32.ofNat (nodesBelow branch + 1)) :
    (pruneLocked branch nodeCount).nodeCount = UInt32.ofNat total ∧
      PrunedBranch total (pruneLocked branch nodeCount) := by
  have walked := pruneLocked_walked branch nodeCount
  have deleted := walked.deleted
  have slots := walked.slots
  have highest := walked.highest
  have left := walked.nodeCount
  simp only [stackNodes_single, Nat.zero_add] at deleted highest left slots
  refine ⟨?_, walked.finished, ?_, by omega⟩
  · rw [left, counted]
    exact UInt32.add_sub_cancel _ _
  · rw [slots, deleted, counted, ← UInt32.ofNat_add, toNat_ofNat_succ]

section
variable {maxDepth depth total : Nat} {nodeType : NodeType} {value : V}
  {node child : TreeNode V} {byte : UInt8} {rest : List UInt8}

theorem branch_spec {branch : TreeNode V} (here : node.children byte = none)
    (built : newBranch maxDepth nodeType value depth rest = some branch) :
    InsertSpec maxDepth nodeType value node depth (byte :: rest) total
      ⟨true, node.setChild byte branch,
        UInt32.ofNat total + UInt32.ofNat (nodesBelow branch + 1), none⟩ := by
  refine ⟨?_, fun rejected => ?_, ?_, fun walk pruned => ?_⟩
  · rw [insertLocked, here]
    simp only [built, Option.map_some, if_true]
  · cases rejected
  · intro _
    have added := nodesBelow_setChild node branch byte
    rw [here, weightAt] at added
    simp only [promotes, here]
    rw [UInt32.add_assoc, ← UInt32.ofNat_add, ← UInt32.ofNat_add]
    exact congrArg UInt32.ofNat (by omega)
  · cases pruned

theorem pruned_spec {branch : TreeNode V} {nodeCount : UInt32}
    (here : node.children byte = none)
    (deep : newBranch maxDepth nodeType value depth rest = none)
    (counted : nodeCount = UInt32.ofNat total + UInt32.ofNat (nodesBelow branch + 1)) :
    InsertSpec maxDepth nodeType value node depth (byte :: rest) total
      ⟨false, (node.setChild byte branch).clearChild byte,
        (pruneLocked branch nodeCount).nodeCount, some (pruneLocked branch nodeCount)⟩ := by
  obtain ⟨left, walked⟩ := prune_branch counted
  refine ⟨?_, fun _ => ⟨clearChild_setChild branch here, left⟩, fun accepted => ?_, ?_⟩
  · rw [insertLocked, here]
    simp only [deep, Option.map_none, Bool.false_eq_true, if_false]
  · cases accepted
  · intro walk pruned
    cases pruned
    exact ⟨rfl, walked⟩

theorem entry_spec (here : node.children byte = some child) :
    InsertSpec maxDepth nodeType value node depth [byte] total
      ⟨true, node.setChild byte (child.setData nodeType value),
        if child.nodeType = .kInner then UInt32.ofNat total + 1 else UInt32.ofNat total,
        none⟩ := by
  refine ⟨?_, fun rejected => ?_, ?_, fun walk pruned => ?_⟩
  · rw [insertLocked, here]
    rfl
  · cases rejected
  · intro _
    have same : nodesBelow (node.setChild byte (child.setData nodeType value)) =
        nodesBelow node := by
      have replaced := nodesBelow_setChild node (child.setData nodeType value) byte
      rw [nodesBelow_setData, here, weightAt] at replaced
      unfold nodesBelow at replaced ⊢
      omega
    simp only [same, promotes, here, if_true]
    split
    · rw [UInt32.ofNat_add _ 1, UInt32.ofNat_add]
      grind
    · rw [Nat.add_zero, UInt32.ofNat_add]
  · cases pruned

theorem below_spec {below : Inserted V} (here : node.children byte = some child)
    (more : rest ≠ [])
    (spec : InsertSpec maxDepth nodeType value child (depth + 1) rest total below) :
    InsertSpec maxDepth nodeType value node depth (byte :: rest) total
      { below with node := node.setChild byte below.node } := by
  obtain ⟨refines, rejected, accepted, pruned⟩ := spec
  refine ⟨?_, ?_, ?_, pruned⟩
  · rw [insertLocked, here]
    simp only [if_neg more, refines]
    cases below.inserted <;> rfl
  · intro refused
    obtain ⟨same, count⟩ := rejected refused
    exact ⟨by simp only [same]; exact setChild_same here, count⟩
  · intro done
    have counts := accepted done
    have larger := nodesBelow_child here
    have added := nodesBelow_setChild node below.node byte
    have counted : weightAt (fun _ => 1) (node.children byte) = nodesBelow child + 1 := by
      rw [here]
      rfl
    have split : nodesBelow node = nodesBelow child + (nodesBelow node - nodesBelow child) := by
      omega
    simp only [promotes, here, if_neg more]
    rw [split, UInt32.ofNat_add, ← UInt32.add_assoc, counts, ← UInt32.ofNat_add]
    exact congrArg UInt32.ofNat (by omega)

end

theorem insertCounted_spec (maxDepth : Nat) (nodeType : NodeType) (value : V) (node : TreeNode V)
    (depth : Nat) (input : List UInt8) (total : Nat) :
    InsertSpec maxDepth nodeType value node depth input total
      (insertCounted maxDepth nodeType value node depth input (UInt32.ofNat total)) := by
  induction input generalizing node depth with
  | nil =>
    refine ⟨rfl, fun _ => ⟨rfl, rfl⟩, fun accepted => ?_, fun walk pruned => ?_⟩
    · cases accepted
    · cases pruned
  | cons byte rest ih =>
    rw [insertCounted]
    cases here : node.children byte with
    | none =>
      have complete := buildBranch_complete maxDepth nodeType value depth rest
        (UInt32.ofNat total)
      have counted := buildBranch_nodeCount maxDepth nodeType value depth rest
        (UInt32.ofNat total)
      generalize buildBranch maxDepth nodeType value depth rest (UInt32.ofNat total) = branch
        at complete counted
      simp only
      by_cases done : branch.complete = true
      · rw [if_pos done] at complete ⊢
        rw [counted]
        exact branch_spec here complete
      · rw [if_neg done] at complete ⊢
        exact pruned_spec here complete counted
    | some child =>
      simp only
      by_cases last : rest = []
      · rw [if_pos last, last]
        exact entry_spec here
      · rw [if_neg last]
        exact below_spec here last (ih child (depth + 1))

/-! ### Entries -/

def entryWeight (nodeType : NodeType) : Nat := if nodeType = .kInner then 0 else 1

def entriesBelow (node : TreeNode V) : Nat := weightBelow entryWeight node

mutual
theorem weightBelow_mono {f g : NodeType → Nat} (le : ∀ t, f t ≤ g t) :
    (node : TreeNode V) → weightBelow f node ≤ weightBelow g node
  | .mk children _ _ =>
      List.sum_le_sum fun i _ => weightAt_mono le (children (UInt8.ofNat i))

theorem weightAt_mono {f g : NodeType → Nat} (le : ∀ t, f t ≤ g t) :
    (child : Option (TreeNode V)) → weightAt f child ≤ weightAt g child
  | none => Nat.le_refl 0
  | some child => Nat.add_le_add (weightBelow_mono le child) (le child.nodeType)
end

theorem entries_le_nodes (node : TreeNode V) : entriesBelow node ≤ nodesBelow node := by
  exact weightBelow_mono (fun t => by cases t <;> decide) node

theorem entries_insertLocked {maxDepth depth : Nat} {nodeType : NodeType} {value : V}
    {node node' : TreeNode V} {input : List UInt8} (entry : nodeType ≠ .kInner)
    (inserted : insertLocked maxDepth nodeType value node depth input = some node') :
    entriesBelow node + promotes node input ≤ entriesBelow node' := by
  induction input generalizing node node' depth with
  | nil => cases inserted
  | cons byte rest ih =>
    obtain ⟨below, set, added⟩ := insertLocked_cases inserted
    have replaced := weightBelow_setChild entryWeight node below byte
    rw [set] at replaced
    obtain ⟨here, -⟩ | ⟨child, here, ⟨last, data⟩ | ⟨last, deeper⟩⟩ := added
    · simp only [here, weightAt] at replaced
      simp only [promotes, here, entriesBelow]
      omega
    · have new : entryWeight nodeType = 1 := if_neg entry
      have old : (if child.nodeType = .kInner then 1 else 0) + entryWeight child.nodeType = 1 := by
        unfold entryWeight
        split <;> rfl
      simp only [here, weightAt, ← data, weightBelow_setData, TreeNode.nodeType_setData, new]
        at replaced
      simp only [promotes, here, if_pos last, entriesBelow]
      omega
    · have more := ih deeper
      have kept : below.nodeType = child.nodeType := by
        have types := typeAt_insertLocked deeper []
        rw [if_neg (Ne.symm last)] at types
        exact types
      simp only [here, weightAt, kept] at replaced
      simp only [promotes, here, if_neg last]
      unfold entriesBelow at more ⊢
      omega

/-! ### Runs of the tree -/

inductive Call (V : Type) where
  | insertPrefix (input : List UInt8) (value : V)
  | insertLiteral (input : List UInt8) (value : V)
  | reset

/-- A tree with the number of its inner nodes that became entries since it was last emptied. -/
structure History (V : Type) where
  tree : CountedTree V
  promoted : Nat

structure Outcome (V : Type) where
  history : History V
  answer : Option Bool
  pruned : Option Walk

def History.insert (h : History V) (input : List UInt8) (nodeType : NodeType) (value : V) :
    Outcome V :=
  let r := h.tree.insert input nodeType value
  ⟨⟨{ h.tree with root := r.node, nodeCount := r.nodeCount },
    if r.inserted then h.promoted + promotes h.tree.root input else h.promoted⟩,
    some r.inserted, r.pruned⟩

def History.call (h : History V) : Call V → Outcome V
  | .insertPrefix input value => h.insert input .kPrefix value
  | .insertLiteral input value => h.insert input .kLiteral value
  | .reset => ⟨⟨h.tree.reset.1, 0⟩, none, some h.tree.reset.2⟩

def History.run (maxDepth : Nat) (calls : List (Call V)) : History V :=
  calls.foldl (fun h call => (h.call call).history) ⟨.new maxDepth, 0⟩

/-- The counter is the number of nodes and of promotions, as far as 32 bits go. -/
structure Counted (h : History V) : Prop where
  total : h.tree.nodeCount = UInt32.ofNat (nodesBelow h.tree.root + h.promoted)
  promoted : h.promoted ≤ entriesBelow h.tree.root

theorem insert_spec {h : History V} (counted : Counted h) (input : List UInt8)
    (nodeType : NodeType) (value : V) :
    InsertSpec h.tree.maxDepth nodeType value h.tree.root 0 input
      (nodesBelow h.tree.root + h.promoted) (h.tree.insert input nodeType value) := by
  rw [CountedTree.insert, counted.total]
  exact insertCounted_spec _ _ _ _ _ _ _

theorem insert_counted {h : History V} (counted : Counted h) (input : List UInt8)
    {nodeType : NodeType} (value : V) (entry : nodeType ≠ .kInner) :
    Counted (h.insert input nodeType value).history := by
  have spec := insert_spec counted input nodeType value
  unfold History.insert
  generalize h.tree.insert input nodeType value = r at spec
  cases done : r.inserted with
  | false =>
    obtain ⟨same, count⟩ := spec.rejected done
    refine ⟨?_, ?_⟩
    · simp only [done, same, count, Bool.false_eq_true, if_false]
    · simpa only [done, same, Bool.false_eq_true, if_false] using counted.promoted
  | true =>
    have count := spec.accepted done
    have inserted := spec.refines
    rw [done, if_pos rfl] at inserted
    have entries := entries_insertLocked entry inserted
    have before := counted.promoted
    refine ⟨?_, ?_⟩
    · have sum : nodesBelow h.tree.root + h.promoted + nodesBelow r.node +
          promotes h.tree.root input = nodesBelow r.node +
            (h.promoted + promotes h.tree.root input) + nodesBelow h.tree.root := by
        omega
      rw [sum, UInt32.ofNat_add _ (nodesBelow h.tree.root)] at count
      simp only [done, if_true]
      exact (UInt32.add_left_inj _).mp count
    · simp only [done, if_true]
      omega

theorem new_counted (maxDepth : Nat) : Counted (⟨.new maxDepth, 0⟩ : History V) := by
  refine ⟨?_, Nat.zero_le _⟩
  simp only [CountedTree.new, nodesBelow_new]
  rfl

theorem call_counted {h : History V} (counted : Counted h) (call : Call V) :
    Counted (h.call call).history := by
  cases call with
  | insertPrefix input value => exact insert_counted counted input value (by decide)
  | insertLiteral input value => exact insert_counted counted input value (by decide)
  | reset => exact new_counted h.tree.maxDepth

theorem run_counted (maxDepth : Nat) (calls : List (Call V)) :
    Counted (History.run maxDepth calls) := by
  have later : ∀ h : History V, Counted h →
      Counted (calls.foldl (fun h call => (h.call call).history) h) := by
    induction calls with
    | nil => exact fun _ counted => counted
    | cons call calls ih => exact fun h counted => ih _ (call_counted counted call)
  exact later _ (new_counted maxDepth)

/-- What the next call does to the count: a refused insertion leaves the tree and the count as
    they were, and a walk ends and stays in its stack while the count has not wrapped around. -/
structure Accounted (h : History V) : Prop where
  total : h.tree.nodeCount.toNat = (nodesBelow h.tree.root + h.promoted) % 2 ^ 32
  promoted : h.promoted ≤ nodesBelow h.tree.root
  refused : ∀ call, (h.call call).answer = some false → (h.call call).history = h
  room : ∀ call walk, (h.call call).pruned = some walk → walk.finished = true ∧
    (nodesBelow h.tree.root + h.promoted + walk.deleted + 1 < 2 ^ 32 → walk.highest ≤ walk.slots)

theorem insert_refused {h : History V} (counted : Counted h) {input : List UInt8}
    {nodeType : NodeType} {value : V}
    (refused : (h.insert input nodeType value).answer = some false) :
    (h.insert input nodeType value).history = h := by
  have spec := insert_spec counted input nodeType value
  unfold History.insert at refused ⊢
  generalize h.tree.insert input nodeType value = r at spec refused
  rw [Option.some.injEq] at refused
  obtain ⟨same, count⟩ := spec.rejected refused
  simp [refused, same, count, ← counted.total]

theorem insert_room {h : History V} (counted : Counted h) {input : List UInt8}
    {nodeType : NodeType} {value : V} {walk : Walk}
    (pruned : (h.insert input nodeType value).pruned = some walk) : walk.finished = true ∧
      (nodesBelow h.tree.root + h.promoted + walk.deleted + 1 < 2 ^ 32 →
        walk.highest ≤ walk.slots) := by
  obtain ⟨-, walked⟩ := (insert_spec counted input nodeType value).pruned walk pruned
  refine ⟨walked.finished, fun small => ?_⟩
  rw [walked.slots, Nat.mod_eq_of_lt small]
  have := walked.highest
  omega

theorem reset_room {h : History V} (counted : Counted h) : h.tree.reset.2.finished = true ∧
    (nodesBelow h.tree.root + h.promoted + h.tree.reset.2.deleted + 1 < 2 ^ 32 →
      h.tree.reset.2.highest ≤ h.tree.reset.2.slots) := by
  have walked := pruneLocked_walked h.tree.root h.tree.nodeCount
  refine ⟨walked.finished, fun small => ?_⟩
  have highest := walked.highest
  have slots := walked.slots
  have deleted := walked.deleted
  simp only [stackNodes_single] at highest deleted
  rw [counted.total] at slots
  simp only [toNat_ofNat_succ] at slots
  unfold CountedTree.reset at small ⊢
  simp only [counted.total] at small highest deleted ⊢
  rw [Nat.mod_eq_of_lt (by omega)] at slots
  omega

/-- After any calls the counter is the number of nodes below the root and of the inner nodes that
    became entries. It sizes the stack of the next pruning well as long as it does not wrap. -/
theorem node_count_accounted (maxDepth : Nat) (calls : List (Call V)) :
    Accounted (History.run maxDepth calls) := by
  have counted := run_counted maxDepth calls
  refine ⟨?_, ?_, ?_, ?_⟩
  · rw [counted.total, UInt32.toNat_ofNat']
  · exact Nat.le_trans counted.promoted (entries_le_nodes _)
  · intro call refused
    cases call with
    | insertPrefix input value => exact insert_refused counted refused
    | insertLiteral input value => exact insert_refused counted refused
    | reset => cases refused
  · intro call walk pruned
    cases call with
    | insertPrefix input value => exact insert_room counted pruned
    | insertLiteral input value => exact insert_room counted pruned
    | reset =>
      cases pruned
      exact reset_room counted

/-- The string "ab" and then "a": two nodes are counted three times. -/
theorem promoted_node_counted_twice :
    ¬ ∀ (maxDepth : Nat) (calls : List (Call Nat)),
      (History.run maxDepth calls).tree.nodeCount.toNat =
        nodesBelow (History.run maxDepth calls).tree.root := by
  intro equal
  exact absurd (equal 1024 [.insertPrefix [97, 98] 0, .insertPrefix [97] 0]) (by decide +kernel)

end SantaPrefixTree
