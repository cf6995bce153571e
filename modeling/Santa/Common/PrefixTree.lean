import Mathlib.Data.List.Infix
import Mathlib.Tactic.SplitIfs

/-!
The tree of strings that file access rules are looked up in. A node stands for one byte
and has one type and one value, so that inserting a string again replaces both. A string
that is longer than the maximum depth is not inserted: the branch that was begun for it
is taken off again. The count of nodes, which only sizes a stack, is left out.
-/
namespace SantaPrefixTree

inductive NodeType where
  | kInner
  | kPrefix
  | kLiteral
  deriving DecidableEq, Repr

/-- The value of an inner node is not set. -/
inductive TreeNode (V : Type) where
  | mk (children : UInt8 → Option (TreeNode V)) (nodeType : NodeType) (value : Option V)

namespace TreeNode
variable {V : Type}

def children : TreeNode V → UInt8 → Option (TreeNode V)
  | mk children _ _ => children

def nodeType : TreeNode V → NodeType
  | mk _ nodeType _ => nodeType

def value : TreeNode V → Option V
  | mk _ _ value => value

def new : TreeNode V := ⟨fun _ => none, .kInner, none⟩

def setChild (node : TreeNode V) (byte : UInt8) (child : TreeNode V) : TreeNode V :=
  ⟨fun b => if b = byte then some child else node.children b, node.nodeType, node.value⟩

def setData (node : TreeNode V) (nodeType : NodeType) (value : V) : TreeNode V :=
  ⟨node.children, nodeType, some value⟩

@[simp] theorem children_new (byte : UInt8) : (new : TreeNode V).children byte = none := rfl
@[simp] theorem nodeType_new : (new : TreeNode V).nodeType = .kInner := rfl

@[simp] theorem children_setChild (node : TreeNode V) (byte b : UInt8) (child : TreeNode V) :
    (node.setChild byte child).children b = if b = byte then some child else node.children b := rfl

@[simp] theorem nodeType_setChild (node : TreeNode V) (byte : UInt8) (child : TreeNode V) :
    (node.setChild byte child).nodeType = node.nodeType := rfl

@[simp] theorem children_setData (node : TreeNode V) (nodeType : NodeType) (value : V) :
    (node.setData nodeType value).children = node.children := rfl

@[simp] theorem nodeType_setData (node : TreeNode V) (nodeType : NodeType) (value : V) :
    (node.setData nodeType value).nodeType = nodeType := rfl

end TreeNode

variable {V : Type}

def newBranch (maxDepth : Nat) (nodeType : NodeType) (value : V) :
    Nat → List UInt8 → Option (TreeNode V)
  | depth, [] => if maxDepth ≤ depth then none else some (TreeNode.new.setData nodeType value)
  | depth, byte :: rest =>
      if maxDepth ≤ depth then none
      else (newBranch maxDepth nodeType value (depth + 1) rest).map (TreeNode.new.setChild byte)

def insertLocked (maxDepth : Nat) (nodeType : NodeType) (value : V) :
    TreeNode V → Nat → List UInt8 → Option (TreeNode V)
  | _, _, [] => none
  | node, depth, byte :: rest =>
      match node.children byte with
      | none => (newBranch maxDepth nodeType value depth rest).map (node.setChild byte)
      | some child =>
          if rest = [] then some (node.setChild byte (child.setData nodeType value))
          else (insertLocked maxDepth nodeType value child (depth + 1) rest).map
            (node.setChild byte)

/-- A node that is reached covers what is below it if it is a prefix, and itself in any case. -/
def isMatch (node : TreeNode V) (rest : List UInt8) : Bool :=
  node.nodeType = .kPrefix || (rest = [] && node.nodeType = .kLiteral)

def longestMatch : TreeNode V → Option (TreeNode V) → List UInt8 → Option (TreeNode V)
  | _, found, [] => found
  | node, found, byte :: rest =>
      match node.children byte with
      | none => found
      | some child => longestMatch child (if isMatch child rest then some child else found) rest

def containsLocked : TreeNode V → List UInt8 → Bool
  | _, [] => false
  | node, byte :: rest =>
      match node.children byte with
      | none => false
      | some child => isMatch child rest || containsLocked child rest

def PATH_MAX : Nat := 1024

structure PrefixTree (V : Type) where
  root : TreeNode V
  maxDepth : Nat

namespace PrefixTree

def new : PrefixTree V := ⟨.new, PATH_MAX⟩

def insert (tree : PrefixTree V) (input : List UInt8) (nodeType : NodeType) (value : V) :
    Bool × PrefixTree V :=
  match insertLocked tree.maxDepth nodeType value tree.root 0 input with
  | none => (false, tree)
  | some root => (true, { tree with root })

def insertPrefix (tree : PrefixTree V) (input : List UInt8) (value : V) : Bool × PrefixTree V :=
  tree.insert input .kPrefix value

def insertLiteral (tree : PrefixTree V) (input : List UInt8) (value : V) : Bool × PrefixTree V :=
  tree.insert input .kLiteral value

def lookupLongestMatchingPrefix (tree : PrefixTree V) (input : List UInt8) : Option (Option V) :=
  (longestMatch tree.root none input).map TreeNode.value

def contains (tree : PrefixTree V) (input : List UInt8) : Bool := containsLocked tree.root input

end PrefixTree

/-! ### The data at a string -/

def dataAt : TreeNode V → List UInt8 → NodeType × Option V
  | node, [] => (node.nodeType, node.value)
  | node, byte :: rest =>
      match node.children byte with
      | none => (.kInner, none)
      | some child => dataAt child rest

def typeAt : TreeNode V → List UInt8 → NodeType
  | node, [] => node.nodeType
  | node, byte :: rest =>
      match node.children byte with
      | none => .kInner
      | some child => typeAt child rest

theorem typeAt_eq (node : TreeNode V) (input : List UInt8) :
    typeAt node input = (dataAt node input).1 := by
  induction input generalizing node with
  | nil => rfl
  | cons byte rest ih =>
    rw [typeAt, dataAt]
    cases node.children byte with
    | none => rfl
    | some child => exact ih child

@[simp] theorem dataAt_new (input : List UInt8) :
    dataAt (TreeNode.new : TreeNode V) input = (.kInner, none) := by
  cases input <;> rfl

@[simp] theorem typeAt_new (input : List UInt8) :
    typeAt (TreeNode.new : TreeNode V) input = .kInner := by
  rw [typeAt_eq, dataAt_new]

theorem dataAt_setChild (node child : TreeNode V) (byte b : UInt8) (rest : List UInt8) :
    dataAt (node.setChild byte child) (b :: rest) =
      if b = byte then dataAt child rest else dataAt node (b :: rest) := by
  by_cases same : b = byte <;> simp [dataAt, same]

theorem dataAt_setData (node : TreeNode V) (nodeType : NodeType) (value : V)
    (input : List UInt8) :
    dataAt (node.setData nodeType value) input =
      if input = [] then (nodeType, some value) else dataAt node input := by
  cases input
  · rfl
  · simp [dataAt]

theorem dataAt_newBranch {maxDepth depth : Nat} {nodeType : NodeType} {value : V}
    {rest : List UInt8} {branch : TreeNode V}
    (built : newBranch maxDepth nodeType value depth rest = some branch) (input : List UInt8) :
    dataAt branch input = if input = rest then (nodeType, some value) else (.kInner, none) := by
  induction rest generalizing depth branch input with
  | nil =>
    rw [newBranch] at built
    split_ifs at built
    rw [← Option.some.inj built, dataAt_setData, dataAt_new]
  | cons byte rest ih =>
    rw [newBranch] at built
    split_ifs at built
    obtain ⟨child, below, rfl⟩ := Option.map_eq_some_iff.mp built
    cases input with
    | nil => rfl
    | cons b input =>
      rw [dataAt_setChild, ih below, dataAt_new]
      by_cases same : b = byte <;> simp [same]

theorem insertLocked_cases {maxDepth depth : Nat} {nodeType : NodeType} {value : V}
    {node node' : TreeNode V} {byte : UInt8} {rest : List UInt8}
    (inserted : insertLocked maxDepth nodeType value node depth (byte :: rest) = some node') :
    ∃ below, node.setChild byte below = node' ∧
      ((node.children byte = none ∧ newBranch maxDepth nodeType value depth rest = some below) ∨
        ∃ child, node.children byte = some child ∧
          ((rest = [] ∧ child.setData nodeType value = below) ∨
            (rest ≠ [] ∧
              insertLocked maxDepth nodeType value child (depth + 1) rest = some below))) := by
  rw [insertLocked] at inserted
  cases here : node.children byte with
  | none =>
    rw [here] at inserted
    obtain ⟨branch, built, set⟩ := Option.map_eq_some_iff.mp inserted
    exact ⟨branch, set, Or.inl ⟨rfl, built⟩⟩
  | some child =>
    rw [here] at inserted
    by_cases last : rest = []
    · simp only [if_pos last] at inserted
      exact ⟨_, Option.some.inj inserted, Or.inr ⟨child, rfl, Or.inl ⟨last, rfl⟩⟩⟩
    · simp only [if_neg last] at inserted
      obtain ⟨below, deeper, set⟩ := Option.map_eq_some_iff.mp inserted
      exact ⟨below, set, Or.inr ⟨child, rfl, Or.inr ⟨last, deeper⟩⟩⟩

theorem dataAt_insertLocked {maxDepth depth : Nat} {nodeType : NodeType} {value : V}
    {node node' : TreeNode V} {input : List UInt8}
    (inserted : insertLocked maxDepth nodeType value node depth input = some node')
    (other : List UInt8) :
    dataAt node' other =
      if other = input then (nodeType, some value) else dataAt node other := by
  induction input generalizing node node' depth other with
  | nil => cases inserted
  | cons byte rest ih =>
    obtain ⟨child', set, added⟩ := insertLocked_cases inserted
    have below (child : TreeNode V)
        (at_child : ∀ q, dataAt child' q =
          if q = rest then (nodeType, some value) else dataAt child q)
        (before : ∀ q, dataAt node (byte :: q) = dataAt child q) :
        dataAt node' other =
          if other = byte :: rest then (nodeType, some value) else dataAt node other := by
      rw [← set]
      cases other with
      | nil => rfl
      | cons b q =>
        rw [dataAt_setChild]
        by_cases same : b = byte
        · rw [same, if_pos rfl, at_child, before]
          simp
        · simp [same]
    obtain ⟨here, built⟩ | ⟨child, here, changed⟩ := added
    · refine below .new (fun q => ?_) fun q => ?_
      · rw [dataAt_newBranch built, dataAt_new]
      · rw [dataAt_new, dataAt, here]
    · refine below child ?_ fun q => by rw [dataAt, here]
      obtain ⟨last, rfl⟩ | ⟨-, deeper⟩ := changed
      · intro q
        rw [dataAt_setData, last]
      · exact ih deeper

theorem typeAt_insertLocked {maxDepth depth : Nat} {nodeType : NodeType} {value : V}
    {node node' : TreeNode V} {input : List UInt8}
    (inserted : insertLocked maxDepth nodeType value node depth input = some node')
    (other : List UInt8) :
    typeAt node' other = if other = input then nodeType else typeAt node other := by
  rw [typeAt_eq, typeAt_eq, dataAt_insertLocked inserted]
  split <;> rfl

/-! ### When an insertion succeeds -/

theorem newBranch_isSome {maxDepth depth : Nat} (nodeType : NodeType) (value : V)
    {rest : List UInt8} (short : depth + rest.length < maxDepth) :
    (newBranch maxDepth nodeType value depth rest).isSome = true := by
  induction rest generalizing depth with
  | nil =>
    rw [newBranch, if_neg (by simpa using short)]
    rfl
  | cons byte rest ih =>
    rw [List.length_cons] at short
    rw [newBranch, if_neg (by omega), Option.isSome_map]
    exact ih (by omega)

theorem insertLocked_isSome {maxDepth depth : Nat} (nodeType : NodeType) (value : V)
    (node : TreeNode V) {input : List UInt8} (nonempty : input ≠ [])
    (short : depth + input.length ≤ maxDepth) :
    (insertLocked maxDepth nodeType value node depth input).isSome = true := by
  induction input generalizing node depth with
  | nil => exact absurd rfl nonempty
  | cons byte rest ih =>
    rw [List.length_cons] at short
    rw [insertLocked]
    cases node.children byte with
    | none =>
      simp only [Option.isSome_map]
      exact newBranch_isSome nodeType value (by omega)
    | some child =>
      by_cases last : rest = []
      · simp [last]
      · simp only [if_neg last, Option.isSome_map]
        exact ih child last (by omega)

/-! ### What is found -/

def Matched (node : TreeNode V) (input : List UInt8) : Prop :=
  ∃ front, front ≠ [] ∧ front <+: input ∧
    (typeAt node front = .kPrefix ∨ (front = input ∧ typeAt node front = .kLiteral))

theorem matched_nil (node : TreeNode V) : ¬ Matched node [] := by
  rintro ⟨front, nonempty, isPrefix, -⟩
  exact nonempty (List.prefix_nil.mp isPrefix)

theorem matched_cons (node : TreeNode V) (byte : UInt8) (rest : List UInt8) :
    Matched node (byte :: rest) ↔
      ∃ child, node.children byte = some child ∧
        (isMatch child rest = true ∨ Matched child rest) := by
  constructor
  · rintro ⟨front, nonempty, fronts, type⟩
    cases front with
    | nil => exact absurd rfl nonempty
    | cons b front =>
      obtain ⟨rfl, isPrefix⟩ := List.cons_prefix_cons.mp fronts
      rw [typeAt] at type
      cases here : node.children b with
      | none =>
        rw [here] at type
        rcases type with absent | ⟨-, absent⟩ <;> cases absent
      | some child =>
        rw [here] at type
        refine ⟨child, rfl, ?_⟩
        by_cases first : front = []
        · subst first
          left
          simpa [isMatch, typeAt] using type
        · exact .inr ⟨front, first, isPrefix, by simpa using type⟩
  · rintro ⟨child, here, first | ⟨front, nonempty, isPrefix, type⟩⟩
    · refine ⟨[byte], List.cons_ne_nil _ _, by simp, ?_⟩
      rw [typeAt, here]
      simpa [isMatch, typeAt] using first
    · refine ⟨byte :: front, List.cons_ne_nil _ _, List.cons_prefix_cons.mpr ⟨rfl, isPrefix⟩, ?_⟩
      rw [typeAt, here]
      simpa using type

theorem containsLocked_iff (node : TreeNode V) (input : List UInt8) :
    containsLocked node input = true ↔ Matched node input := by
  induction input generalizing node with
  | nil => exact iff_of_false Bool.false_ne_true (matched_nil node)
  | cons byte rest ih =>
    rw [matched_cons, containsLocked]
    cases node.children byte with
    | none => simp
    | some child => simp [ih]

theorem longestMatch_isSome (node : TreeNode V) (found : Option (TreeNode V))
    (input : List UInt8) :
    (longestMatch node found input).isSome = true ↔ found.isSome = true ∨ Matched node input := by
  induction input generalizing node found with
  | nil => simp [longestMatch, matched_nil]
  | cons byte rest ih =>
    rw [matched_cons, longestMatch]
    cases node.children byte with
    | none => simp
    | some child =>
      simp only [ih, Option.some.injEq, exists_eq_left']
      by_cases first : isMatch child rest = true <;> simp [first]

end SantaPrefixTree
