import Santa.Common.PrefixTreeNodes

/-!
What the prefix tree is for: a map from non-empty strings to a kind and a value,
asked whether a stored prefix begins a string or a stored literal equals it, and
for the value of the longest such entry. The tree, with its shared nodes and its
pruned branches, answers as the map does after any calls.
-/
namespace SantaPrefixTree
variable {V : Type}

def hasPrefixLocked : TreeNode V → List UInt8 → Bool
  | _, [] => false
  | node, byte :: rest =>
      match node.children byte with
      | none => false
      | some child =>
          if child.nodeType = .kPrefix ∨ (rest = [] ∧ child.nodeType = .kLiteral) then true
          else hasPrefixLocked child rest

namespace History

def hasPrefix (h : History V) (input : List UInt8) : Bool := hasPrefixLocked h.tree.root input

/-- A null pointer is contained nowhere. -/
def contains (h : History V) : Option (List UInt8) → Bool
  | none => false
  | some input => containsLocked h.tree.root input

/-- A string is read up to its first null byte. -/
def cString (input : List UInt8) : List UInt8 := input.takeWhile fun byte => byte != 0

def lookupLongestMatchingPrefix (h : History V) (input : List UInt8) : Option (Option V) :=
  (longestMatch h.tree.root none (cString input)).map TreeNode.value

end History

/-! ### The map -/

inductive Kind where
  | beginning
  | literal
  deriving DecidableEq, Repr

def Kind.nodeType : Kind → NodeType
  | .beginning => .kPrefix
  | .literal => .kLiteral

abbrev Contents (V : Type) := List UInt8 → Option (Kind × V)

/-- An empty string and one longer than the maximum depth are not stored; the last insert wins. -/
def Contents.put (m : Contents V) (maxDepth : Nat) (input : List UInt8) (kind : Kind) (value : V) :
    Contents V :=
  if input = [] ∨ maxDepth < input.length then m
  else fun s => if s = input then some (kind, value) else m s

def Contents.after (maxDepth : Nat) (m : Contents V) : Call V → Contents V
  | .insertPrefix input value => m.put maxDepth input .beginning value
  | .insertLiteral input value => m.put maxDepth input .literal value
  | .reset => fun _ => none

def Contents.run (maxDepth : Nat) (calls : List (Call V)) : Contents V :=
  calls.foldl (Contents.after maxDepth) fun _ => none

def Covers (m : Contents V) (front input : List UInt8) (value : V) : Prop :=
  front <+: input ∧
    (m front = some (.beginning, value) ∨ (m front = some (.literal, value) ∧ front = input))

def Longest (m : Contents V) (front input : List UInt8) (value : V) : Prop :=
  Covers m front input value ∧
    ∀ other value', Covers m other input value' → other.length ≤ front.length

/-! ### Nodes and depth -/

def nodeAt : TreeNode V → List UInt8 → Option (TreeNode V)
  | node, [] => some node
  | node, byte :: rest => (node.children byte).bind fun child => nodeAt child rest

/-- Some node for the input is missing whose index is at or beyond the maximum depth. -/
def NeedsDeepNode (maxDepth : Nat) (node : TreeNode V) (depth : Nat) (input : List UInt8) : Prop :=
  ∃ front, front <+: input ∧ nodeAt node front = none ∧ maxDepth < depth + front.length

theorem newBranch_none_iff (maxDepth : Nat) (nodeType : NodeType) (value : V) (depth : Nat)
    (rest : List UInt8) :
    newBranch maxDepth nodeType value depth rest = none ↔ maxDepth ≤ depth + rest.length := by
  induction rest generalizing depth with
  | nil =>
    rw [newBranch]
    split <;> simp_all
  | cons byte rest ih =>
    rw [newBranch, List.length_cons]
    split
    · exact iff_of_true rfl (by omega)
    · rw [Option.map_eq_none_iff, ih]
      omega

theorem needsDeepNode_cons {maxDepth depth : Nat} {node child : TreeNode V} {byte : UInt8}
    {rest : List UInt8} (here : node.children byte = some child) :
    NeedsDeepNode maxDepth node depth (byte :: rest) ↔
      NeedsDeepNode maxDepth child (depth + 1) rest := by
  constructor
  · rintro ⟨front, begins, missing, deep⟩
    cases front with
    | nil => cases missing
    | cons b front =>
      obtain ⟨rfl, later⟩ := List.cons_prefix_cons.mp begins
      rw [nodeAt, here, Option.bind_some] at missing
      rw [List.length_cons] at deep
      exact ⟨front, later, missing, by omega⟩
  · rintro ⟨front, begins, missing, deep⟩
    refine ⟨byte :: front, List.cons_prefix_cons.mpr ⟨rfl, begins⟩, ?_, ?_⟩
    · rw [nodeAt, here, Option.bind_some]
      exact missing
    · rw [List.length_cons]
      omega

theorem insertLocked_none_iff (maxDepth : Nat) (nodeType : NodeType) (value : V)
    (node : TreeNode V) (depth : Nat) (input : List UInt8) :
    insertLocked maxDepth nodeType value node depth input = none ↔
      input = [] ∨ NeedsDeepNode maxDepth node depth input := by
  induction input generalizing node depth with
  | nil => exact iff_of_true rfl (Or.inl rfl)
  | cons byte rest ih =>
    rw [insertLocked, or_iff_right (List.cons_ne_nil byte rest)]
    cases here : node.children byte with
    | none =>
      simp only [Option.map_eq_none_iff, newBranch_none_iff]
      constructor
      · intro deep
        refine ⟨byte :: rest, List.prefix_rfl, ?_, by rw [List.length_cons]; omega⟩
        rw [nodeAt, here, Option.bind_none]
      · rintro ⟨front, begins, -, deep⟩
        have short := begins.length_le
        rw [List.length_cons] at short
        omega
    | some child =>
      rw [needsDeepNode_cons here]
      by_cases last : rest = []
      · subst last
        simp only [if_true]
        refine iff_of_false (by simp) ?_
        rintro ⟨front, begins, missing, -⟩
        rw [List.prefix_nil.mp begins] at missing
        cases missing
      · simp only [if_neg last, Option.map_eq_none_iff, ih, or_iff_right last]

theorem nodeAt_newBranch {maxDepth depth : Nat} {nodeType : NodeType} {value : V}
    {rest s : List UInt8} {branch : TreeNode V}
    (built : newBranch maxDepth nodeType value depth rest = some branch)
    (found : (nodeAt branch s).isSome = true) : s <+: rest := by
  induction rest generalizing depth branch s with
  | nil =>
    rw [newBranch] at built
    split at built
    · cases built
    · rw [← Option.some.inj built] at found
      cases s with
      | nil => exact List.prefix_rfl
      | cons b s => cases found
  | cons byte rest ih =>
    rw [newBranch] at built
    split at built
    · cases built
    · obtain ⟨child, below, rfl⟩ := Option.map_eq_some_iff.mp built
      cases s with
      | nil => exact List.nil_prefix
      | cons b s =>
        rw [nodeAt, TreeNode.children_setChild] at found
        by_cases same : b = byte
        · rw [if_pos same, Option.bind_some] at found
          exact List.cons_prefix_cons.mpr ⟨same, ih below found⟩
        · rw [if_neg same] at found
          cases found

theorem nodeAt_insertLocked {maxDepth depth : Nat} {nodeType : NodeType} {value : V}
    {node node' : TreeNode V} {input s : List UInt8}
    (inserted : insertLocked maxDepth nodeType value node depth input = some node')
    (found : (nodeAt node' s).isSome = true) :
    (nodeAt node s).isSome = true ∨ s <+: input := by
  induction input generalizing node node' depth s with
  | nil => cases inserted
  | cons byte rest ih =>
    cases s with
    | nil => exact Or.inl rfl
    | cons b s =>
      obtain ⟨below, set, added⟩ := insertLocked_cases inserted
      rw [← set, nodeAt, TreeNode.children_setChild] at found
      by_cases same : b = byte
      · rw [if_pos same, Option.bind_some] at found
        rw [same]
        obtain ⟨-, built⟩ | ⟨child, here, changed⟩ := added
        · exact Or.inr (List.cons_prefix_cons.mpr ⟨rfl, nodeAt_newBranch built found⟩)
        · rw [nodeAt, here, Option.bind_some]
          obtain ⟨-, rfl⟩ | ⟨-, deeper⟩ := changed
          · refine Or.inl ?_
            cases s with
            | nil => rfl
            | cons c s => exact found
          · exact (ih deeper found).imp_right fun begins => List.cons_prefix_cons.mpr ⟨rfl, begins⟩
      · rw [if_neg same] at found
        exact Or.inl found

/-! ### The three lookups -/

theorem hasPrefixLocked_eq (node : TreeNode V) (input : List UInt8) :
    hasPrefixLocked node input = containsLocked node input := by
  induction input generalizing node with
  | nil => rfl
  | cons byte rest ih =>
    rw [hasPrefixLocked, containsLocked]
    cases node.children byte with
    | none => rfl
    | some child =>
      simp only [ih, isMatch]
      split
      · rename_i found
        simp [found]
      · rename_i other
        rw [not_or, not_and] at other
        by_cases last : rest = [] <;> simp [last, other.1, other.2]

def Matches (node : TreeNode V) (front input : List UInt8) : Prop :=
  front ≠ [] ∧ front <+: input ∧
    (typeAt node front = .kPrefix ∨ (front = input ∧ typeAt node front = .kLiteral))

theorem matches_cons {node child : TreeNode V} {byte : UInt8} {front rest : List UInt8}
    (here : node.children byte = some child) :
    Matches node (byte :: front) (byte :: rest) ↔
      (front = [] ∧ isMatch child rest = true) ∨ Matches child front rest := by
  unfold Matches
  rw [List.cons_prefix_cons, typeAt, here, List.cons.injEq]
  cases front with
  | nil => simp [isMatch, typeAt, @eq_comm _ [] rest]
  | cons b front => simp

theorem matches_first {node : TreeNode V} {byte : UInt8} {front rest : List UInt8}
    (found : Matches node front (byte :: rest)) : ∃ child later,
      node.children byte = some child ∧ front = byte :: later ∧
        ((later = [] ∧ isMatch child rest = true) ∨ Matches child later rest) := by
  obtain ⟨nonempty, begins, type⟩ := found
  cases front with
  | nil => exact absurd rfl nonempty
  | cons b later =>
    obtain ⟨rfl, -⟩ := List.cons_prefix_cons.mp begins
    have there := type
    rw [typeAt] at there
    cases here : node.children b with
    | none =>
      rw [here] at there
      rcases there with absent | ⟨-, absent⟩ <;> cases absent
    | some child =>
      exact ⟨child, later, rfl, rfl, (matches_cons here).mp ⟨nonempty, begins, type⟩⟩

theorem longestMatch_cases (node : TreeNode V) (found : Option (TreeNode V))
    (input : List UInt8) :
    (¬ (∃ front, Matches node front input) ∧ longestMatch node found input = found) ∨
      ∃ front m, Matches node front input ∧
        (∀ other, Matches node other input → other.length ≤ front.length) ∧
        longestMatch node found input = some m ∧ (m.nodeType, m.value) = dataAt node front := by
  induction input generalizing node found with
  | nil =>
    refine Or.inl ⟨?_, rfl⟩
    rintro ⟨front, nonempty, begins, -⟩
    exact nonempty (List.prefix_nil.mp begins)
  | cons byte rest ih =>
    rw [longestMatch]
    cases here : node.children byte with
    | none =>
      refine Or.inl ⟨?_, rfl⟩
      rintro ⟨front, found⟩
      obtain ⟨child, later, there, -⟩ := matches_first found
      rw [here] at there
      cases there
    | some child =>
      have first : ∀ front, Matches node front (byte :: rest) → ∃ later, front = byte :: later ∧
          ((later = [] ∧ isMatch child rest = true) ∨ Matches child later rest) := by
        intro front found
        obtain ⟨child', later, there, split⟩ := matches_first found
        rw [here, Option.some.injEq] at there
        rw [there]
        exact ⟨later, split⟩
      simp only
      rcases ih child (if isMatch child rest then some child else found) with
        ⟨none, same⟩ | ⟨front, m, matched, longest, same, data⟩
      · rw [same]
        by_cases own : isMatch child rest = true
        · rw [if_pos own]
          refine Or.inr ⟨[byte], child, (matches_cons here).mpr (Or.inl ⟨rfl, own⟩), ?_, rfl, ?_⟩
          · intro other found
            obtain ⟨later, rfl, ⟨rfl, -⟩ | deeper⟩ := first other found
            · exact Nat.le_refl 1
            · exact absurd ⟨later, deeper⟩ none
          · rw [dataAt, here]
            rfl
        · rw [if_neg own]
          refine Or.inl ⟨?_, rfl⟩
          rintro ⟨front, found⟩
          obtain ⟨later, -, ⟨-, match_⟩ | deeper⟩ := first front found
          · exact own match_
          · exact none ⟨later, deeper⟩
      · rw [same]
        refine Or.inr ⟨byte :: front, m, (matches_cons here).mpr (Or.inr matched), ?_, rfl, ?_⟩
        · intro other found
          obtain ⟨later, rfl, ⟨rfl, -⟩ | deeper⟩ := first other found
          · exact Nat.succ_le_succ (Nat.zero_le _)
          · exact Nat.succ_le_succ (longest later deeper)
        · rw [dataAt, here]
          exact data

/-! ### The tree and the map -/

structure Represents (h : History V) (m : Contents V) : Prop where
  empty : m [] = none
  data : ∀ s, s ≠ [] → dataAt h.tree.root s =
    match m s with
    | none => (.kInner, none)
    | some (kind, value) => (kind.nodeType, some value)
  depth : ∀ s, (nodeAt h.tree.root s).isSome = true → s.length ≤ h.tree.maxDepth

section Represented
variable {h : History V} {m : Contents V}

theorem needs_iff_long (rep : Represents h m) (input : List UInt8) :
    NeedsDeepNode h.tree.maxDepth h.tree.root 0 input ↔ h.tree.maxDepth < input.length := by
  constructor
  · rintro ⟨front, begins, -, deep⟩
    have short := begins.length_le
    omega
  · intro long
    refine ⟨input, List.prefix_rfl, ?_, by omega⟩
    by_contra some
    have short := rep.depth input (Option.isSome_iff_ne_none.mpr some)
    omega

theorem typeAt_represented (rep : Represents h m) {s : List UInt8} (nonempty : s ≠ []) :
    typeAt h.tree.root s = (m s).elim .kInner fun entry => entry.1.nodeType := by
  rw [typeAt_eq, rep.data s nonempty]
  cases m s <;> rfl

theorem matches_iff_covers (rep : Represents h m) (front input : List UInt8) :
    Matches h.tree.root front input ↔ ∃ value, Covers m front input value := by
  unfold Matches Covers
  by_cases nonempty : front = []
  · subst nonempty
    simp [rep.empty]
  · rw [typeAt_represented rep nonempty]
    cases m front with
    | none => simp
    | some entry =>
      obtain ⟨kind, value⟩ := entry
      cases kind <;> simp [nonempty, Kind.nodeType]

theorem covers_value (rep : Represents h m) {front input : List UInt8} {value : V}
    (covers : Covers m front input value) : (dataAt h.tree.root front).2 = some value := by
  have nonempty : front ≠ [] := by
    rintro rfl
    rcases covers.2 with entry | ⟨entry, -⟩ <;> rw [rep.empty] at entry <;> cases entry
  rw [rep.data front nonempty]
  rcases covers.2 with entry | ⟨entry, -⟩ <;> rw [entry]

theorem insertLocked_none_iff_long (rep : Represents h m) (nodeType : NodeType) (value : V)
    (input : List UInt8) :
    insertLocked h.tree.maxDepth nodeType value h.tree.root 0 input = none ↔
      input = [] ∨ h.tree.maxDepth < input.length := by
  rw [insertLocked_none_iff, needs_iff_long rep]

theorem answer_false_iff (counted : Counted h) (nodeType : NodeType) (value : V)
    (input : List UInt8) :
    (h.insert input nodeType value).answer = some false ↔
      insertLocked h.tree.maxDepth nodeType value h.tree.root 0 input = none := by
  have refines := (insert_spec counted input nodeType value).refines
  rw [refines]
  show some (h.tree.insert input nodeType value).inserted = some false ↔ _
  cases (h.tree.insert input nodeType value).inserted <;> simp

theorem represents_insert (counted : Counted h) (rep : Represents h m) (input : List UInt8)
    (kind : Kind) (value : V) :
    Represents (h.insert input kind.nodeType value).history
      (m.put h.tree.maxDepth input kind value) := by
  have refused := insertLocked_none_iff_long rep kind.nodeType value input
  rw [← answer_false_iff counted] at refused
  unfold Contents.put
  by_cases long : input = [] ∨ h.tree.maxDepth < input.length
  · rw [if_pos long, insert_refused counted (refused.mpr long)]
    exact rep
  · rw [if_neg long]
    have refines := (insert_spec counted input kind.nodeType value).refines
    have done : (h.tree.insert input kind.nodeType value).inserted = true := by
      cases answer : (h.tree.insert input kind.nodeType value).inserted with
      | true => rfl
      | false => exact absurd (refused.mp (congrArg some answer)) long
    rw [if_pos done] at refines
    refine ⟨?_, ?_, ?_⟩
    · simp only [if_neg (fun same => long (Or.inl (Eq.symm same))), rep.empty]
    · intro s nonempty
      refine (dataAt_insertLocked refines s).trans ?_
      by_cases same : s = input
      · simp only [if_pos same]
      · simp only [if_neg same]
        exact rep.data s nonempty
    · intro s found
      rcases nodeAt_insertLocked refines found with before | begins
      · exact rep.depth s before
      · have short := begins.length_le
        show s.length ≤ h.tree.maxDepth
        omega

theorem represents_new (maxDepth : Nat) :
    Represents (⟨.new maxDepth, 0⟩ : History V) fun _ => none := by
  refine ⟨rfl, fun s _ => dataAt_new s, ?_⟩
  intro s found
  cases s with
  | nil => exact Nat.zero_le _
  | cons b s => cases found

theorem call_maxDepth (h : History V) (call : Call V) :
    (h.call call).history.tree.maxDepth = h.tree.maxDepth := by
  cases call <;> rfl

theorem represents_call (counted : Counted h) (rep : Represents h m) (call : Call V) :
    Represents (h.call call).history (m.after h.tree.maxDepth call) := by
  cases call with
  | insertPrefix input value => exact represents_insert counted rep input .beginning value
  | insertLiteral input value => exact represents_insert counted rep input .literal value
  | reset => exact represents_new h.tree.maxDepth

end Represented

theorem run_represents (maxDepth : Nat) (calls : List (Call V)) :
    Represents (History.run maxDepth calls) (Contents.run maxDepth calls) := by
  have later : ∀ (h : History V) m, Counted h → Represents h m → h.tree.maxDepth = maxDepth →
      Represents (calls.foldl (fun h call => (h.call call).history) h)
        (calls.foldl (Contents.after maxDepth) m) := by
    induction calls with
    | nil => exact fun _ _ _ rep _ => rep
    | cons call calls ih =>
      intro h m counted rep depth
      refine ih _ _ (call_counted counted call) ?_ ((call_maxDepth h call).trans depth)
      rw [← depth]
      exact represents_call counted rep call
  exact later _ _ (new_counted maxDepth) (represents_new maxDepth) rfl

/-- The tree answers as the map: the lookups find what covers the input, the longest entry gives
    its value, and an insertion is refused, without any effect, just for the empty string and
    where a new node would be too deep. -/
structure Behaves (h : History V) (m : Contents V) : Prop where
  hasPrefix : ∀ input, h.hasPrefix input = true ↔ ∃ front value, Covers m front input value
  contains : ∀ input, h.contains (some input) = true ↔ ∃ front value, Covers m front input value
  containsNull : h.contains none = false
  longest : ∀ input front value, Longest m front (History.cString input) value →
    h.lookupLongestMatchingPrefix input = some (some value)
  nothing : ∀ input, (¬ ∃ front value, Covers m front (History.cString input) value) →
    h.lookupLongestMatchingPrefix input = none
  refused : ∀ input (kind : Kind) value, (h.insert input kind.nodeType value).answer = some false ↔
    input = [] ∨ NeedsDeepNode h.tree.maxDepth h.tree.root 0 input
  deep : ∀ input, NeedsDeepNode h.tree.maxDepth h.tree.root 0 input ↔
    h.tree.maxDepth < input.length
  unchanged : ∀ input (kind : Kind) value,
    (h.insert input kind.nodeType value).answer = some false →
      (h.insert input kind.nodeType value).history = h

section Lookups
variable {h : History V} {m : Contents V}

theorem containsLocked_covers (rep : Represents h m) (input : List UInt8) :
    containsLocked h.tree.root input = true ↔ ∃ front value, Covers m front input value := by
  rw [containsLocked_iff]
  exact exists_congr fun front => matches_iff_covers rep front input

theorem longest_value (rep : Represents h m) {input front : List UInt8} {value : V}
    (longest : Longest m front input value) :
    (longestMatch h.tree.root none input).map TreeNode.value = some (some value) := by
  have matched := (matches_iff_covers rep front input).mpr ⟨value, longest.1⟩
  rcases longestMatch_cases h.tree.root none input with
    ⟨none, -⟩ | ⟨other, n, found, top, same, data⟩
  · exact absurd ⟨front, matched⟩ none
  · obtain ⟨value', covers⟩ := (matches_iff_covers rep other input).mp found
    -- two beginnings of one length are the same
    have length : other.length = front.length :=
      Nat.le_antisymm (longest.2 other value' covers) (top front matched)
    have equal : other = front :=
      (List.prefix_of_prefix_length_le covers.1 longest.1.1 (Nat.le_of_eq length)).eq_of_length
        length
    have stored := covers_value rep longest.1
    rw [← equal, ← data] at stored
    rw [same, Option.map_some]
    exact congrArg some stored

theorem no_match (rep : Represents h m) {input : List UInt8}
    (none_ : ¬ ∃ front value, Covers m front input value) :
    (longestMatch h.tree.root none input).map TreeNode.value = none := by
  rcases longestMatch_cases h.tree.root none input with ⟨-, same⟩ | ⟨front, n, found, -, -, -⟩
  · rw [same]
    rfl
  · obtain ⟨value, covers⟩ := (matches_iff_covers rep front input).mp found
    exact absurd ⟨front, value, covers⟩ none_

end Lookups

/-- After any inserts and resets, the tree is the map of what was stored last. -/
theorem tree_behaves_as_map (maxDepth : Nat) (calls : List (Call V)) :
    Behaves (History.run maxDepth calls) (Contents.run maxDepth calls) := by
  have counted := run_counted maxDepth calls
  have rep := run_represents maxDepth calls
  refine ⟨?_, containsLocked_covers rep, rfl, ?_, ?_, ?_, needs_iff_long rep, ?_⟩
  · intro input
    rw [History.hasPrefix, hasPrefixLocked_eq]
    exact containsLocked_covers rep input
  · exact fun input front value longest => longest_value rep longest
  · exact fun input none => no_match rep none
  · intro input kind value
    rw [answer_false_iff counted, insertLocked_none_iff]
  · exact fun input kind value refused => insert_refused counted refused

end SantaPrefixTree
