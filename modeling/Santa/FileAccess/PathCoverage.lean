import Santa.Common.PrefixTree
import Santa.FileAccess.WatchItems

/-!
Which paths the file access rules cover. The matches of every pattern are inserted into a
tree one after another, and a match that is inserted again takes the type that it has then:
a path given both as a prefix and as a literal is only one of them in the tree. The tree
of the data rules holds the rules, that of a process rule only says what it contains.
-/
namespace SantaPathCoverage
open SantaPrefixTree hiding PATH_MAX
open SantaWatchItems (WatchItemPathType PairPathAndType FindMatches DataWatchItemPolicy PATH_MAX)

variable {V Base : Type}

def bytes (s : String) : List UInt8 := s.toByteArray.data.toList

def nodeTypeOf : WatchItemPathType → NodeType
  | .kPrefix => .kPrefix
  | .kLiteral => .kLiteral

def insertMatch (tree : PrefixTree V) (entry : PairPathAndType × V) : PrefixTree V :=
  match entry.1.2 with
  | .kPrefix => (tree.insertPrefix (bytes entry.1.1) entry.2).2
  | .kLiteral => (tree.insertLiteral (bytes entry.1.1) entry.2).2

def buildTree (entries : List (PairPathAndType × V)) : PrefixTree V :=
  entries.foldl insertMatch .new

/-- What is inserted for the data rules, in the order in which the set of them is iterated. -/
def dataEntries (findMatches : FindMatches) (policies : List (DataWatchItemPolicy Base)) :
    List (PairPathAndType × DataWatchItemPolicy Base) :=
  policies.flatMap fun item => (findMatches item.path).map fun found =>
    ((found, item.pathType), item)

def processEntries (findMatches : FindMatches) (pathTypePairs : List PairPathAndType) :
    List (PairPathAndType × Unit) :=
  pathTypePairs.flatMap fun pair => (findMatches pair.1).map fun found => ((found, pair.2), ())

def findPolicy (findMatches : FindMatches) (policies : List (DataWatchItemPolicy Base))
    (path : List UInt8) : Option (Option (DataWatchItemPolicy Base)) :=
  (buildTree (dataEntries findMatches policies)).lookupLongestMatchingPrefix path

def processContains (findMatches : FindMatches) (pathTypePairs : List PairPathAndType)
    (path : List UInt8) : Bool :=
  (buildTree (processEntries findMatches pathTypePairs)).contains path

def Covers (pair : PairPathAndType) (path : List UInt8) : Prop :=
  match pair.2 with
  | .kPrefix => bytes pair.1 <+: path
  | .kLiteral => bytes pair.1 = path

def lastType (entries : List (PairPathAndType × V)) (path : String) : Option WatchItemPathType :=
  (entries.reverse.find? fun entry => entry.1.1 = path).map fun entry => entry.1.2

def Insertable (entries : List (PairPathAndType × V)) : Prop :=
  ∀ entry ∈ entries, entry.1.1 ≠ "" ∧ entry.1.1.utf8ByteSize ≤ PATH_MAX

/-! ### Bytes of strings -/

theorem bytes_injective {s t : String} (same : bytes s = bytes t) : s = t := by
  have arrays : s.toByteArray.data = t.toByteArray.data := Array.toList_inj.mp same
  exact String.toByteArray_inj.mp (ByteArray.ext arrays)

theorem bytes_length (s : String) : (bytes s).length = s.utf8ByteSize := rfl

theorem bytes_ne_nil {s : String} (nonempty : s ≠ "") : bytes s ≠ [] := by
  intro empty
  exact nonempty (bytes_injective (empty.trans rfl))

/-! ### The tree holds the last type of every path -/

theorem insertMatch_eq (tree : PrefixTree V) (entry : PairPathAndType × V) :
    insertMatch tree entry =
      (tree.insert (bytes entry.1.1) (nodeTypeOf entry.1.2) entry.2).2 := by
  obtain ⟨⟨path, _ | _⟩, value⟩ := entry <;> rfl

theorem maxDepth_buildTree (entries : List (PairPathAndType × V)) :
    (buildTree entries).maxDepth = PATH_MAX := by
  induction entries using List.reverseRecOn with
  | nil => rfl
  | append_singleton entries entry ih =>
    rw [buildTree, List.foldl_append, List.foldl_cons, List.foldl_nil, insertMatch_eq,
      PrefixTree.insert]
    split <;> exact ih

theorem typeAt_insertMatch (entries : List (PairPathAndType × V)) {entry : PairPathAndType × V}
    (nonempty : entry.1.1 ≠ "") (short : entry.1.1.utf8ByteSize ≤ PATH_MAX) (path : List UInt8) :
    typeAt (insertMatch (buildTree entries) entry).root path =
      if path = bytes entry.1.1 then nodeTypeOf entry.1.2
      else typeAt (buildTree entries).root path := by
  have succeeds : (insertLocked (buildTree entries).maxDepth (nodeTypeOf entry.1.2) entry.2
      (buildTree entries).root 0 (bytes entry.1.1)).isSome = true := by
    refine insertLocked_isSome _ _ _ (bytes_ne_nil nonempty) ?_
    rw [maxDepth_buildTree, Nat.zero_add, bytes_length]
    exact short
  obtain ⟨root, inserted⟩ := Option.isSome_iff_exists.mp succeeds
  rw [insertMatch_eq, PrefixTree.insert, inserted]
  exact typeAt_insertLocked inserted path

theorem typeAt_buildTree {entries : List (PairPathAndType × V)} (insertable : Insertable entries)
    (path : List UInt8) :
    typeAt (buildTree entries).root path =
      ((entries.reverse.find? fun entry => bytes entry.1.1 = path).map
        fun entry => nodeTypeOf entry.1.2).getD .kInner := by
  induction entries using List.reverseRecOn with
  | nil => exact typeAt_new path
  | append_singleton entries entry ih =>
    obtain ⟨nonempty, short⟩ := insertable entry (List.mem_append_right _ List.mem_cons_self)
    have build : buildTree (entries ++ [entry]) = insertMatch (buildTree entries) entry := by
      rw [buildTree, List.foldl_append]
      rfl
    rw [build, typeAt_insertMatch entries nonempty short, List.reverse_append,
      ih fun entry member => insertable entry (List.mem_append_left _ member)]
    by_cases same : bytes entry.1.1 = path
    · simp [same]
    · simp [same, Ne.symm same]

theorem typeAt_bytes {entries : List (PairPathAndType × V)} (insertable : Insertable entries)
    (path : String) :
    typeAt (buildTree entries).root (bytes path) =
      ((lastType entries path).map nodeTypeOf).getD .kInner := by
  have same : (fun entry : PairPathAndType × V => decide (bytes entry.1.1 = bytes path)) =
      fun entry => decide (entry.1.1 = path) := by
    funext entry
    exact decide_eq_decide.mpr ⟨bytes_injective, congrArg bytes⟩
  rw [typeAt_buildTree insertable, same, lastType, Option.map_map]
  rfl

theorem nodeTypeOf_inj {type type' : WatchItemPathType}
    (same : nodeTypeOf type = nodeTypeOf type') :
    type = type' := by
  cases type <;> cases type' <;> first | rfl | cases same

theorem matched_iff {entries : List (PairPathAndType × V)} (insertable : Insertable entries)
    (path : List UInt8) :
    Matched (buildTree entries).root path ↔ ∃ entry ∈ entries, Covers entry.1 path ∧
      lastType entries entry.1.1 = some entry.1.2 := by
  constructor
  · rintro ⟨front, -, isPrefix, type⟩
    have typed : typeAt (buildTree entries).root front ≠ .kInner := by
      rcases type with prefixType | ⟨-, literalType⟩
      · rw [prefixType]
        decide
      · rw [literalType]
        decide
    rw [typeAt_buildTree insertable] at typed
    obtain ⟨entry, last⟩ : ∃ entry, (entries.reverse.find? fun entry =>
        decide (bytes entry.1.1 = front)) = some entry := by
      rw [← Option.isSome_iff_exists, Option.isSome_iff_ne_none]
      intro none
      rw [none] at typed
      exact typed rfl
    have member : entry ∈ entries := List.mem_reverse.mp (List.mem_of_find?_eq_some last)
    obtain rfl : bytes entry.1.1 = front := by simpa using List.find?_some last
    have here : typeAt (buildTree entries).root (bytes entry.1.1) = nodeTypeOf entry.1.2 := by
      rw [typeAt_buildTree insertable, last]
      rfl
    refine ⟨entry, member, ?_, ?_⟩
    · rw [here] at type
      unfold Covers
      cases kind : entry.1.2 with
      | kPrefix => exact isPrefix
      | kLiteral =>
        rw [kind] at type
        exact type.elim (fun wrong => by cases wrong) And.left
    · rw [typeAt_bytes insertable] at here
      cases found : lastType entries entry.1.1 with
      | none =>
        rw [found] at here
        cases kind : entry.1.2 <;> rw [kind] at here <;> cases here
      | some type =>
        rw [found] at here
        rw [nodeTypeOf_inj here]
  · rintro ⟨entry, member, covers, last⟩
    have here : typeAt (buildTree entries).root (bytes entry.1.1) = nodeTypeOf entry.1.2 := by
      rw [typeAt_bytes insertable, last]
      rfl
    unfold Covers at covers
    refine ⟨bytes entry.1.1, bytes_ne_nil (insertable entry member).1, ?_, ?_⟩
    · cases kind : entry.1.2 with
      | kPrefix =>
        rw [kind] at covers
        exact covers
      | kLiteral =>
        rw [kind] at covers
        simp only at covers
        rw [covers]
    · rw [here]
      cases kind : entry.1.2 with
      | kPrefix => exact .inl rfl
      | kLiteral =>
        rw [kind] at covers
        exact .inr ⟨covers, rfl⟩

/-! ### Coverage -/

def Absolute (findMatches : FindMatches) : Prop :=
  ∀ pattern, ∀ found ∈ findMatches pattern, found.toList.head? = some '/'

def Uniform (entries : List (PairPathAndType × V)) : Prop :=
  ∀ entry ∈ entries, ∀ entry' ∈ entries, entry.1.1 = entry'.1.1 → entry.1.2 = entry'.1.2

/-- A path is found iff an entry covers it whose path was inserted last with its type, and where
    no path has two types iff any entry covers it. -/
def CoveredBy (entries : List (PairPathAndType × V)) (path : List UInt8) (found : Bool) : Prop :=
  (found = true ↔ ∃ entry ∈ entries, Covers entry.1 path ∧
      lastType entries entry.1.1 = some entry.1.2) ∧
    (Uniform entries → (found = true ↔ ∃ entry ∈ entries, Covers entry.1 path))

theorem lastType_uniform {entries : List (PairPathAndType × V)} (uniform : Uniform entries)
    {entry : PairPathAndType × V} (member : entry ∈ entries) :
    lastType entries entry.1.1 = some entry.1.2 := by
  unfold lastType
  cases last : entries.reverse.find? fun other => decide (other.1.1 = entry.1.1) with
  | none =>
    have absent := List.find?_eq_none.mp last entry (List.mem_reverse.mpr member)
    exact absurd (decide_eq_true rfl) absent
  | some other =>
    have member' : other ∈ entries := List.mem_reverse.mp (List.mem_of_find?_eq_some last)
    have same : other.1.1 = entry.1.1 := by simpa using List.find?_some last
    rw [Option.map_some, uniform other member' entry member same]

theorem coveredBy_of_matched {entries : List (PairPathAndType × V)}
    (insertable : Insertable entries) {path : List UInt8} {found : Bool}
    (agrees : found = true ↔ Matched (buildTree entries).root path) :
    CoveredBy entries path found := by
  rw [matched_iff insertable] at agrees
  refine ⟨agrees, fun uniform => agrees.trans ⟨?_, ?_⟩⟩
  · rintro ⟨entry, member, covers, -⟩
    exact ⟨entry, member, covers⟩
  · rintro ⟨entry, member, covers⟩
    exact ⟨entry, member, covers, lastType_uniform uniform member⟩

theorem nonempty_of_absolute {found : String} (absolute : found.toList.head? = some '/') :
    found ≠ "" := by
  rintro rfl
  cases absolute

/-- Whatever the order of the rules, a path is found iff some expanded pair covers it that no later
    pair with the other type has replaced. -/
theorem path_coverage {findMatches : FindMatches} (absolute : Absolute findMatches)
    (policies : List (DataWatchItemPolicy Base)) (pathTypePairs : List PairPathAndType)
    (shortData : ∀ entry ∈ dataEntries findMatches policies,
      entry.1.1.utf8ByteSize ≤ PATH_MAX)
    (shortProcess : ∀ entry ∈ processEntries findMatches pathTypePairs,
      entry.1.1.utf8ByteSize ≤ PATH_MAX)
    (path : List UInt8) :
    CoveredBy (dataEntries findMatches policies) path
        (findPolicy findMatches policies path).isSome ∧
      CoveredBy (processEntries findMatches pathTypePairs) path
        (processContains findMatches pathTypePairs path) := by
  have insertableData : Insertable (dataEntries findMatches policies) := by
    intro entry member
    obtain ⟨item, -, expanded⟩ := List.mem_flatMap.mp member
    obtain ⟨found, listed, same⟩ := List.mem_map.mp expanded
    refine ⟨?_, shortData entry member⟩
    rw [← same]
    exact nonempty_of_absolute (absolute item.path found listed)
  have insertableProcess : Insertable (processEntries findMatches pathTypePairs) := by
    intro entry member
    obtain ⟨pair, -, expanded⟩ := List.mem_flatMap.mp member
    obtain ⟨found, listed, same⟩ := List.mem_map.mp expanded
    refine ⟨?_, shortProcess entry member⟩
    rw [← same]
    exact nonempty_of_absolute (absolute pair.1 found listed)
  constructor
  · refine coveredBy_of_matched insertableData ?_
    rw [findPolicy, PrefixTree.lookupLongestMatchingPrefix, Option.isSome_map, longestMatch_isSome]
    simp
  · refine coveredBy_of_matched insertableProcess ?_
    rw [processContains, PrefixTree.contains, containsLocked_iff]

def asWritten : FindMatches :=
  fun pattern => if pattern.toList.head? = some '/' then [pattern] else ["/" ++ pattern]

theorem asWritten_absolute : Absolute asWritten := by
  intro pattern found member
  unfold asWritten at member
  split_ifs at member with slash
  · rw [List.mem_singleton.mp member]
    exact slash
  · rw [List.mem_singleton.mp member]
    simp

def fooPrefix : DataWatchItemPolicy Unit := ⟨(), "/foo", .kPrefix⟩
def fooLiteral : DataWatchItemPolicy Unit := ⟨(), "/foo", .kLiteral⟩

theorem foo_coverage :
    CoveredBy (dataEntries asWritten [fooLiteral, fooPrefix]) (bytes "/foo/bar")
        (findPolicy asWritten [fooLiteral, fooPrefix] (bytes "/foo/bar")).isSome ∧
      CoveredBy (processEntries asWritten [("/foo", .kPrefix)]) (bytes "/foo/bar")
        (processContains asWritten [("/foo", .kPrefix)] (bytes "/foo/bar")) :=
  path_coverage asWritten_absolute _ _ (by decide +kernel) (by decide +kernel) _

/-- A literal inserted after the prefix takes away what is below the path. -/
theorem literal_hides_prefix :
    ¬ ((findPolicy asWritten [fooPrefix, fooLiteral] (bytes "/foo/bar")).isSome = true ↔
      ∃ entry ∈ dataEntries asWritten [fooPrefix, fooLiteral],
        Covers entry.1 (bytes "/foo/bar")) := by
  intro agrees
  have listed : "/foo" ∈ asWritten fooPrefix.path := by decide +kernel
  have covers : Covers ("/foo", .kPrefix) (bytes "/foo/bar") := by
    show bytes "/foo" <+: bytes "/foo/bar"
    decide +kernel
  have found := agrees.mpr ⟨(("/foo", .kPrefix), fooPrefix), List.mem_flatMap.mpr
    ⟨fooPrefix, List.mem_cons_self, List.mem_map.mpr ⟨"/foo", listed, rfl⟩⟩, covers⟩
  exact absurd found (by decide +kernel)

/-! ### The list of what is inserted stands for the tree -/

theorem bytes_prefix_iff {s t : String} : bytes s <+: bytes t ↔ s.toList <+: t.toList := by
  constructor
  · rintro ⟨rest, same⟩
    refine List.isPrefix_of_utf8Encode_append_eq_utf8Encode ⟨rest.toArray⟩ ?_
    rw [String.utf8Encode_toList, String.utf8Encode_toList]
    refine ByteArray.ext (Array.toList_inj.mp ?_)
    rw [ByteArray.data_append, Array.toList_append]
    exact same
  · rintro ⟨rest, same⟩
    refine ⟨rest.utf8Encode.data.toList, ?_⟩
    rw [bytes, bytes, ← String.utf8Encode_toList, ← Array.toList_append, ← ByteArray.data_append,
      ← List.utf8Encode_append, same, String.utf8Encode_toList]

theorem nodeType_toList {entries : List (PairPathAndType × V)} (insertable : Insertable entries)
    (path : String) :
    SantaWatchItems.PrefixTree.nodeType (entries.map Prod.fst) path.toList =
      lastType entries path := by
  have all : (entries.map Prod.fst).filter SantaWatchItems.insertable = entries.map Prod.fst := by
    rw [List.filter_eq_self]
    intro pair member
    obtain ⟨entry, listed, rfl⟩ := List.mem_map.mp member
    simpa [SantaWatchItems.insertable] using insertable entry listed
  unfold SantaWatchItems.PrefixTree.nodeType lastType
  rw [all, ← List.map_reverse, List.find?_map, Option.map_map]
  congr 2
  funext entry
  simp [String.toList_inj]

theorem lastType_some {entries : List (PairPathAndType × V)} {path : String}
    {type : WatchItemPathType} (last : lastType entries path = some type) :
    ∃ entry ∈ entries, entry.1.1 = path ∧ entry.1.2 = type := by
  obtain ⟨entry, found, kind⟩ := Option.map_eq_some_iff.mp last
  exact ⟨entry, List.mem_reverse.mp (List.mem_of_find?_eq_some found),
    by simpa using List.find?_some found, kind⟩

/-- The tree contains what the list of its insertions contains. -/
theorem contains_buildTree {entries : List (PairPathAndType × V)} (insertable : Insertable entries)
    (input : String) :
    (buildTree entries).contains (bytes input) =
      SantaWatchItems.PrefixTree.contains (entries.map Prod.fst) input := by
  rw [Bool.eq_iff_iff, PrefixTree.contains, containsLocked_iff, matched_iff insertable]
  simp only [SantaWatchItems.PrefixTree.contains, List.any_eq_true, List.mem_inits,
    Bool.or_eq_true, Bool.and_eq_true, decide_eq_true_eq]
  constructor
  · rintro ⟨entry, -, covers, last⟩
    refine ⟨entry.1.1.toList, ?_⟩
    rw [nodeType_toList insertable, last]
    unfold Covers at covers
    cases kind : entry.1.2 with
    | kPrefix =>
      rw [kind] at covers
      exact ⟨bytes_prefix_iff.mp covers, .inl rfl⟩
    | kLiteral =>
      rw [kind] at covers
      have same : entry.1.1.toList = input.toList := congrArg String.toList (bytes_injective covers)
      exact ⟨by rw [same], .inr ⟨same, rfl⟩⟩
  · rintro ⟨front, isPrefix, type⟩
    obtain ⟨path, rfl⟩ : ∃ path : String, path.toList = front :=
      ⟨String.ofList front, String.toList_ofList⟩
    rw [nodeType_toList insertable] at type
    rcases type with prefixType | ⟨same, literalType⟩
    · obtain ⟨entry, member, here, kind⟩ := lastType_some prefixType
      refine ⟨entry, member, ?_, by rw [here, kind]; exact prefixType⟩
      unfold Covers
      rw [kind, here]
      exact bytes_prefix_iff.mpr isPrefix
    · obtain ⟨entry, member, here, kind⟩ := lastType_some literalType
      refine ⟨entry, member, ?_, by rw [here, kind]; exact literalType⟩
      unfold Covers
      rw [kind, here, String.toList_inj.mp same]

end SantaPathCoverage
