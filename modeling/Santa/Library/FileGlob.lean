import Mathlib.Data.List.Nodup

/-!
Pathname patterns. A pattern is cut at its slashes, and each part is held
against the names in a directory; what a part without wildcards stands for is
looked up as it is. Two slashes in a row are one, and a slash at the end asks
for a directory.
-/
namespace FileGlob

abbrev Text := List Char

/-- The names in each directory, by its path from the root. A directory may be reached by more
    than one path. -/
structure FileSystem where
  entries : List Text → Option (List Text)
  root : (entries []).isSome = true
  nodup : ∀ d names, entries d = some names → names.Nodup
  proper : ∀ d names name, entries d = some names → name ∈ names → name ≠ [] ∧ '/' ∉ name

structure Wildcards where
  magic : Text → Bool
  fits : Text → Text → Bool
  plain : ∀ part name, '\\' ∉ part → magic part = false → (fits part name = true ↔ name = part)

namespace FileSystem
variable (fs : FileSystem)

def isDir (d : List Text) : Bool := (fs.entries d).isSome

def listed (d : List Text) : List Text := (fs.entries d).getD []

theorem listed_nodup (d : List Text) : (fs.listed d).Nodup := by
  unfold listed
  cases found : fs.entries d with
  | none => exact List.nodup_nil
  | some names => exact fs.nodup d names found

theorem listed_proper {d : List Text} {name : Text} (member : name ∈ fs.listed d) :
    name ≠ [] ∧ '/' ∉ name := by
  unfold listed at member
  cases found : fs.entries d with
  | none => simp [found] at member
  | some names =>
    rw [found] at member
    exact fs.proper d names name found member

theorem isDir_of_listed {d : List Text} {name : Text} (member : name ∈ fs.listed d) :
    fs.isDir d = true := by
  unfold listed at member
  unfold isDir
  cases found : fs.entries d with
  | none => simp [found] at member
  | some names => rfl

def ofTable (table : List (List Text × List Text))
    (root : ((table.find? fun row => row.1 = []).map Prod.snd).isSome = true)
    (ok : ∀ row ∈ table, row.2.Nodup ∧ ∀ name ∈ row.2, name ≠ [] ∧ '/' ∉ name) : FileSystem where
  entries d := (table.find? fun row => row.1 = d).map Prod.snd
  root := root
  nodup d names found := by
    obtain ⟨row, first, rfl⟩ := Option.map_eq_some_iff.mp found
    exact (ok row (List.mem_of_find?_eq_some first)).1
  proper d names name found member := by
    obtain ⟨row, first, rfl⟩ := Option.map_eq_some_iff.mp found
    exact (ok row (List.mem_of_find?_eq_some first)).2 name member

theorem listed_ofTable {table : List (List Text × List Text)}
    {root : ((table.find? fun row => row.1 = []).map Prod.snd).isSome = true}
    {ok : ∀ row ∈ table, row.2.Nodup ∧ ∀ name ∈ row.2, name ≠ [] ∧ '/' ∉ name} {d : List Text}
    {name : Text} (member : name ∈ (ofTable table root ok).listed d) :
    ∃ row ∈ table, name ∈ row.2 := by
  simp only [listed, ofTable] at member
  cases first : table.find? fun row => row.1 = d with
  | none => simp [first] at member
  | some row =>
    simp only [first, Option.map_some, Option.getD_some] at member
    exact ⟨row, List.mem_of_find?_eq_some first, member⟩

end FileSystem

/-! ### Paths and their names -/

def pathText (slash : Bool) (names : List Text) : Text :=
  (names.flatMap fun name => '/' :: name) ++ if slash then ['/'] else []

def named (parts : List Text) : List Text := parts.filter fun part => part ≠ []

def pathNames (path : Text) : List Text := named (path.splitOn '/')

def endsInSlash (path : Text) : Bool := path.getLast? = some '/'

def Proper (names : List Text) : Prop := ∀ name ∈ names, name ≠ [] ∧ '/' ∉ name

theorem proper_append {xs ys : List Text} : Proper (xs ++ ys) ↔ Proper xs ∧ Proper ys :=
  List.forall_mem_append

theorem proper_cons {x : Text} {xs : List Text} :
    Proper (x :: xs) ↔ (x ≠ [] ∧ '/' ∉ x) ∧ Proper xs :=
  List.forall_mem_cons

theorem not_mem_of_mem_splitOn {path part : Text} (member : part ∈ path.splitOn '/') :
    '/' ∉ part := by
  induction path generalizing part with
  | nil =>
    rw [List.splitOn_nil, List.mem_singleton] at member
    subst member
    exact List.not_mem_nil
  | cons c path ih =>
    rw [List.splitOn_cons_eq_if_modifyHead] at member
    by_cases slash : c = '/'
    · rw [if_pos (by simpa using slash), List.mem_cons] at member
      obtain rfl | later := member
      · exact List.not_mem_nil
      · exact ih later
    · rw [if_neg (by simpa using slash)] at member
      cases parts : path.splitOn '/' with
      | nil => exact absurd parts (List.splitOn_ne_nil '/' path)
      | cons first parts' =>
        rw [parts, List.modifyHead_cons, List.mem_cons] at member
        obtain rfl | later := member
        · rw [List.mem_cons, not_or]
          exact ⟨fun same => slash same.symm, ih (by rw [parts]; exact List.mem_cons_self)⟩
        · exact ih (by rw [parts]; exact List.mem_cons_of_mem _ later)

@[simp] theorem named_empty (parts : List Text) : named ([] :: parts) = named parts :=
  List.filter_cons_of_neg (by simp)

theorem named_proper {names : List Text} (proper : Proper names) : named names = names :=
  List.filter_eq_self.mpr fun name member => decide_eq_true (proper name member).1

theorem pathNames_proper (path : Text) : Proper (pathNames path) := by
  intro name member
  obtain ⟨part, some⟩ := List.mem_filter.mp member
  exact ⟨of_decide_eq_true some, not_mem_of_mem_splitOn part⟩

def ending (slash : Bool) : List Text := if slash then [[]] else []

theorem intercalate_slash (part : Text) (parts : List Text) :
    ['/'].intercalate (part :: parts) = part ++ parts.flatMap fun name => '/' :: name := by
  induction parts generalizing part with
  | nil => rw [List.intercalate_singleton, List.flatMap_nil, List.append_nil]
  | cons next parts ih =>
    rw [List.intercalate_cons_cons, ih, List.flatMap_cons]
    simp only [List.append_assoc, List.cons_append, List.nil_append]

theorem pathText_eq_intercalate (slash : Bool) (names : List Text) :
    pathText slash names = ['/'].intercalate ([] :: (names ++ ending slash)) := by
  rw [intercalate_slash, List.nil_append, List.flatMap_append, pathText]
  cases slash <;> rfl

theorem pathNames_slash (path : Text) : pathNames ('/' :: path) = pathNames path := by
  rw [pathNames, List.splitOn_cons_eq_if_modifyHead, if_pos (beq_self_eq_true '/'), named_empty]
  rfl

theorem splitOn_pathText {names : List Text} (slash : Bool) (proper : Proper names) :
    (pathText slash names).splitOn '/' = [] :: (names ++ ending slash) := by
  rw [pathText_eq_intercalate]
  refine List.splitOn_intercalate '/' ?_ (List.cons_ne_nil _ _)
  intro part member
  rw [List.mem_cons, List.mem_append] at member
  obtain rfl | name | last := member
  · exact List.not_mem_nil
  · exact (proper part name).2
  · cases slash <;> simp_all [ending]

theorem pathNames_pathText {names : List Text} (slash : Bool) (proper : Proper names) :
    pathNames (pathText slash names) = names := by
  rw [pathNames, splitOn_pathText slash proper, named_empty, named, List.filter_append]
  rw [← named, named_proper proper]
  cases slash <;> simp [ending]

theorem pathText_injective {slash : Bool} {xs ys : List Text} (properX : Proper xs)
    (properY : Proper ys) (same : pathText slash xs = pathText slash ys) : xs = ys := by
  rw [← pathNames_pathText slash properX, same, pathNames_pathText slash properY]

theorem pathText_true (names : List Text) :
    pathText true names = pathText false names ++ ['/'] := by
  simp [pathText]

theorem pathText_append_name (names : List Text) (name : Text) :
    pathText true names ++ name = pathText false (names ++ [name]) := by
  simp [pathText]

theorem endsInSlash_true (names : List Text) : endsInSlash (pathText true names) = true := by
  rw [pathText_true, endsInSlash, List.getLast?_concat]
  rfl

theorem endsInSlash_false {names : List Text} (proper : Proper names) :
    endsInSlash (pathText false names) = false := by
  obtain rfl | ⟨front, name, rfl⟩ := names.eq_nil_or_concat
  · rfl
  · rw [List.concat_eq_append] at proper ⊢
    obtain ⟨some, free⟩ := proper name (List.mem_append_right _ (List.mem_singleton_self name))
    rw [← pathText_append_name, endsInSlash, List.getLast?_append]
    cases last : name.getLast? with
    | none => exact absurd (List.getLast?_eq_none_iff.mp last) some
    | some c =>
      refine decide_eq_false ?_
      rw [Option.some_or, Option.some.injEq]
      rintro rfl
      exact free (List.mem_of_getLast? last)

/-! ### The expansion of a pattern -/

section
variable (w : Wildcards) (fs : FileSystem)

def matched (d : List Text) (part : Text) : List Text := (fs.listed d).filter (w.fits part)

def expand : List Text → List Text → List (List Text)
  | _, [] => [[]]
  | d, part :: parts =>
    if part = [] then
      if fs.isDir d then (expand d parts).map (part :: ·) else []
    else (matched w fs d part).flatMap fun name => (expand (d ++ [name]) parts).map (name :: ·)

def kept (slash : Bool) (d : List Text) (part : Text) : List Text :=
  (matched w fs d part).filter fun name => !slash || fs.isDir (d ++ [name])

def glob (pattern : Text) : List Text :=
  (expand w fs [] (pattern.splitOn '/')).map (['/'].intercalate)

def hasMagic (pattern : Text) : Bool := (pathNames pattern).any w.magic

inductive Matches : List Text → List Text → List Text → Prop
  | nil (d : List Text) : Matches d [] []
  | cons {d : List Text} {part name : Text} {parts names : List Text} :
      name ∈ matched w fs d part → Matches (d ++ [name]) parts names →
      Matches d (part :: parts) (name :: names)

variable {w fs}

theorem listed_of_matched {d : List Text} {part name : Text} (member : name ∈ matched w fs d part) :
    name ∈ fs.listed d :=
  (List.mem_filter.mp member).1

theorem matched_nodup (d : List Text) (part : Text) : (matched w fs d part).Nodup :=
  (fs.listed_nodup d).filter _

theorem listed_of_matches {d parts names : List Text} (found : Matches w fs d parts names)
    {name : Text} (among : name ∈ names) : ∃ e, name ∈ fs.listed e := by
  induction found with
  | nil => exact absurd among List.not_mem_nil
  | @cons d part first parts names member _ ih =>
    obtain rfl | later := List.mem_cons.mp among
    · exact ⟨d, listed_of_matched member⟩
    · exact ih later

theorem matches_proper {d parts names : List Text} (found : Matches w fs d parts names) :
    Proper names := by
  intro name among
  obtain ⟨e, listed⟩ := listed_of_matches found among
  exact fs.listed_proper listed

theorem mem_expand_iff {d parts names : List Text} (some : ∀ part ∈ parts, part ≠ []) :
    names ∈ expand w fs d parts ↔ Matches w fs d parts names := by
  induction parts generalizing d names with
  | nil =>
    rw [expand, List.mem_singleton]
    constructor
    · rintro rfl
      exact .nil d
    · intro found
      cases found
      rfl
  | cons part parts ih =>
    obtain ⟨here, later⟩ := List.forall_mem_cons.mp some
    rw [expand, if_neg here, List.mem_flatMap]
    constructor
    · rintro ⟨name, member, below⟩
      obtain ⟨rest, found, rfl⟩ := List.mem_map.mp below
      exact .cons member ((ih later).mp found)
    · intro found
      cases found with
      | cons member below =>
        exact ⟨_, member, List.mem_map_of_mem ((ih later).mpr below)⟩

theorem expand_nodup {parts : List Text} (some : ∀ part ∈ parts, part ≠ []) (d : List Text) :
    (expand w fs d parts).Nodup := by
  induction parts generalizing d with
  | nil => exact List.nodup_singleton _
  | cons part parts ih =>
    obtain ⟨here, later⟩ := List.forall_mem_cons.mp some
    rw [expand, if_neg here]
    refine List.nodup_flatMap.mpr ⟨fun name _ => ?_, (matched_nodup d part).imp ?_⟩
    · exact (ih later _).map fun xs ys same => (List.cons.inj same).2
    · intro name other differ found member again
      obtain ⟨xs, -, rfl⟩ := List.mem_map.mp member
      obtain ⟨ys, -, same⟩ := List.mem_map.mp again
      exact differ (List.cons.inj same).1.symm

theorem expand_append {front : List Text} (some : ∀ part ∈ front, part ≠ []) (d back : List Text) :
    expand w fs d (front ++ back) = (expand w fs d front).flatMap fun found =>
      (expand w fs (d ++ found) back).map (found ++ ·) := by
  induction front generalizing d with
  | nil => simp [expand]
  | cons part front ih =>
    obtain ⟨here, later⟩ := List.forall_mem_cons.mp some
    rw [List.cons_append, expand, if_neg here, expand, if_neg here, List.flatMap_assoc]
    refine List.flatMap_congr ?_
    intro name _
    rw [ih later, List.map_flatMap, List.flatMap_map]
    simp [List.map_map, Function.comp_def]

theorem expand_component {part : Text} (some : part ≠ []) (slash : Bool) (d : List Text) :
    expand w fs d (part :: ending slash) =
      (kept w fs slash d part).map fun name => name :: ending slash := by
  rw [expand, if_neg some, kept]
  induction matched w fs d part with
  | nil => rfl
  | cons name names ih =>
    rw [List.flatMap_cons, ih, List.filter_cons]
    cases slash with
    | false => simp [expand, ending]
    | true => cases dir : fs.isDir (d ++ [name]) <;> simp [expand, ending, dir]

theorem glob_pathText {d : List Text} {part : Text} (proper : Proper (d ++ [part]))
    (slash : Bool) :
    glob w fs (pathText slash (d ++ [part])) = (expand w fs [] d).flatMap fun k =>
      (kept w fs slash k part).map fun name => pathText slash (k ++ [name]) := by
  obtain ⟨properD, one⟩ := proper_append.mp proper
  rw [glob, splitOn_pathText slash proper, expand, if_pos rfl,
    if_pos (show fs.isDir [] = true from fs.root), List.append_assoc, List.singleton_append,
    expand_append fun p member => (properD p member).1, List.map_flatMap, List.map_flatMap]
  refine List.flatMap_congr ?_
  intro k _
  rw [expand_component (proper_cons.mp one).1.1]
  simp [pathText_eq_intercalate]

/-! ### A path read as a pattern -/

variable (w fs) in
/-- Whatever `part` matches in a directory that the path of `d` matches, when it is read as a
    pattern, it matches in `d`; and if there is such a name, then `d` is matched by its path. -/
structure ReadsBack (slash : Bool) (d : List Text) (part : Text) : Prop where
  alone : ∀ k, Matches w fs [] d k → kept w fs slash k part ≠ [] → k = d
  itself : kept w fs slash d part ≠ [] → Matches w fs [] d d

theorem flatMap_of_unique {A B : Type} {l : List A} {f : A → List B} {a : A} (nodup : l.Nodup)
    (alone : ∀ x ∈ l, f x ≠ [] → x = a) (itself : f a ≠ [] → a ∈ l) : l.flatMap f = f a := by
  have nothing : ∀ xs : List A, (∀ x ∈ xs, x ∈ l) → a ∉ xs → xs.flatMap f = [] := by
    intro xs within absent
    rw [List.flatMap_eq_nil_iff]
    intro x member
    by_contra some
    rw [alone x (within x member) some] at member
    exact absent member
  by_cases member : a ∈ l
  · obtain ⟨front, back, rfl⟩ := List.append_of_mem member
    obtain ⟨before, after⟩ := List.nodup_middle.mp nodup |> List.nodup_cons.mp
    rw [List.mem_append, not_or] at before
    rw [List.flatMap_append, List.flatMap_cons,
      nothing front (fun x => List.mem_append_left _) before.1,
      nothing back (fun x among => List.mem_append_right _ (List.mem_cons_of_mem _ among)) before.2,
      List.nil_append, List.append_nil]
  · rw [nothing l (fun _ among => among) member]
    by_contra some
    exact member (itself (Ne.symm some))

theorem glob_below_iff {d : List Text} {part : Text} (proper : Proper (d ++ [part]))
    (slash : Bool) :
    (glob w fs (pathText slash (d ++ [part])) =
        (kept w fs slash d part).map fun name => pathText slash (d ++ [name])) ↔
      ReadsBack w fs slash d part := by
  obtain ⟨properD, one⟩ := proper_append.mp proper
  have some : ∀ p ∈ d, p ≠ [] := fun p member => (properD p member).1
  have same_directory : ∀ {k : List Text} {name other : Text}, Matches w fs [] d k →
      name ∈ kept w fs slash k part → other ∈ kept w fs slash d part →
      pathText slash (k ++ [name]) = pathText slash (d ++ [other]) → k = d := by
    intro k name other found member among same
    have one : ∀ {e : List Text} {x : Text}, x ∈ kept w fs slash e part → Proper [x] := by
      intro e x here
      have listed := listed_of_matched (List.mem_filter.mp here).1
      exact proper_cons.mpr ⟨fs.listed_proper listed, fun _ none => absurd none List.not_mem_nil⟩
    have whole := pathText_injective (proper_append.mpr ⟨matches_proper found, one member⟩)
      (proper_append.mpr ⟨properD, one among⟩) same
    exact (List.append_inj' whole rfl).1
  rw [glob_pathText proper]
  constructor
  · intro below
    refine ⟨?_, ?_⟩
    · intro k found more
      obtain ⟨name, member⟩ := List.exists_mem_of_ne_nil _ more
      have hit : pathText slash (k ++ [name]) ∈
          (kept w fs slash d part).map fun name => pathText slash (d ++ [name]) := by
        rw [← below]
        exact List.mem_flatMap.mpr ⟨k, (mem_expand_iff some).mpr found, List.mem_map_of_mem member⟩
      obtain ⟨other, among, same⟩ := List.mem_map.mp hit
      exact same_directory found member among same.symm
    · intro more
      obtain ⟨other, among⟩ := List.exists_mem_of_ne_nil _ more
      have hit : pathText slash (d ++ [other]) ∈ (expand w fs [] d).flatMap fun k =>
          (kept w fs slash k part).map fun name => pathText slash (k ++ [name]) := by
        rw [below]
        exact List.mem_map_of_mem among
      obtain ⟨k, listed, there⟩ := List.mem_flatMap.mp hit
      obtain ⟨name, member, same⟩ := List.mem_map.mp there
      have found := (mem_expand_iff some).mp listed
      rw [same_directory found member among same] at found
      exact found
  · rintro ⟨alone, itself⟩
    refine flatMap_of_unique (expand_nodup some []) ?_ ?_
    · intro k listed more
      exact alone k ((mem_expand_iff some).mp listed) fun none => more (by rw [none]; rfl)
    · intro more
      exact (mem_expand_iff some).mpr (itself fun none => more (by rw [none]; rfl))

def Plain (w : Wildcards) (name : Text) : Prop := '\\' ∉ name ∧ w.magic name = false

theorem matches_plain {d parts names : List Text} (found : Matches w fs d parts names)
    (plain : ∀ part ∈ parts, Plain w part) : names = parts := by
  induction found with
  | nil => rfl
  | @cons d part name parts names member _ ih =>
    obtain ⟨⟨unquoted, literal⟩, later⟩ := List.forall_mem_cons.mp plain
    have fits := (List.mem_filter.mp member).2
    rw [ih later, (w.plain part name unquoted literal).mp fits]

theorem matches_itself {d parts names : List Text} (found : Matches w fs d parts names)
    (plain : ∀ name ∈ names, Plain w name) : Matches w fs d names names := by
  induction found with
  | nil d => exact .nil d
  | @cons d part name parts names member _ ih =>
    obtain ⟨⟨unquoted, literal⟩, later⟩ := List.forall_mem_cons.mp plain
    have fits : w.fits name name = true := (w.plain name name unquoted literal).mpr rfl
    exact .cons (List.mem_filter.mpr ⟨listed_of_matched member, fits⟩) (ih later)

theorem readsBack_of_plain {parts names : List Text} (found : Matches w fs [] parts names)
    (plain : ∀ name ∈ names, Plain w name) (slash : Bool) (part : Text) :
    ReadsBack w fs slash names part where
  alone _ read _ := matches_plain read plain
  itself _ := matches_itself found plain

end

/-! ### The wildcards of glob(3) -/

abbrev Quoted := Char × Bool

def quote : Text → List Quoted
  | '\\' :: c :: rest => (c, true) :: quote rest
  | c :: rest => (c, false) :: quote rest
  | [] => []

inductive Token where
  | any
  | one
  | set (negated : Bool) (ranges : List (Char × Char))
  | char (c : Char)
  deriving DecidableEq, Repr

/-- The members of a bracket expression after its first character `q`, and how many characters
    they are with the closing bracket. -/
def members (q : Quoted) : List Quoted → List (Char × Char) × Nat
  | [] => ([(q.1, q.1)], 0)
  | (']', false) :: _ => ([(q.1, q.1)], 1)
  | ('-', false) :: (']', false) :: _ => ([(q.1, q.1), ('-', '-')], 2)
  | ('-', false) :: last :: (']', false) :: _ => ([(q.1, last.1)], 3)
  | ('-', false) :: last :: next :: rest =>
    let (ranges, used) := members next rest
    ((q.1, last.1) :: ranges, used + 3)
  | next :: rest =>
    let (ranges, used) := members next rest
    ((q.1, q.1) :: ranges, used + 1)

/-- A bracket expression after its opening bracket, if it is closed: whether it is negated, its
    members and how many characters it takes. -/
def bracket (rest : List Quoted) : Option (Bool × List (Char × Char) × Nat) :=
  let negated := rest.head? == some ('!', false)
  match (if negated then rest.tail else rest) with
  | [] => none
  | q :: rest =>
    if (']', false) ∈ rest then
      let (ranges, used) := members q rest
      some (negated, ranges, used + if negated then 2 else 1)
    else none

def tokens : Nat → List Quoted → List Token
  | _, [] => []
  | skip + 1, _ :: rest => tokens skip rest
  | 0, ('*', false) :: rest => .any :: tokens 0 rest
  | 0, ('?', false) :: rest => .one :: tokens 0 rest
  | 0, ('[', false) :: rest =>
    match bracket rest with
    | some (negated, ranges, used) => .set negated ranges :: tokens used rest
    | none => .char '[' :: tokens 0 rest
  | 0, (c, _) :: rest => .char c :: tokens 0 rest

def Token.isMagic : Token → Bool
  | .char _ => false
  | _ => true

def matchTokens : List Token → Text → Bool
  | [], name => name.isEmpty
  | .any :: ts, name => name.tails.any fun rest => matchTokens ts rest
  | .one :: ts, _ :: rest => matchTokens ts rest
  | .set negated ranges :: ts, c :: rest =>
    (ranges.any fun range => range.1 ≤ c && c ≤ range.2) != negated && matchTokens ts rest
  | .char c :: ts, d :: rest => c == d && matchTokens ts rest
  | _ :: _, [] => false

/-- A dot at the start of a name is matched by a dot alone. -/
def fitsTokens (ts : List Token) (name : Text) : Bool :=
  (name.head? != some '.' || ts.head? == some (.char '.')) && matchTokens ts name

theorem quote_plain {part : Text} (unquoted : '\\' ∉ part) :
    quote part = part.map fun c => (c, false) := by
  induction part with
  | nil => rfl
  | cons c part ih =>
    obtain ⟨differs, later⟩ := not_or.mp (mt List.mem_cons.mpr unquoted)
    rw [quote, ih later]
    · rfl
    · exact fun _ _ same _ => differs same.symm

theorem tokens_plain {part : Text}
    (plain : (tokens 0 (part.map fun c => (c, false))).any Token.isMagic = false) :
    tokens 0 (part.map fun c => (c, false)) = part.map Token.char := by
  induction part with
  | nil => rfl
  | cons c part ih =>
    rw [List.map_cons] at plain ⊢
    by_cases star : c = '*'
    · simp [star, tokens, Token.isMagic] at plain
    · by_cases question : c = '?'
      · simp [question, tokens, Token.isMagic] at plain
      · by_cases opening : c = '['
        · subst opening
          rw [tokens] at plain ⊢
          cases closed : bracket (part.map fun c => (c, false)) with
          | none =>
            simp only [closed, List.any_cons, Bool.or_eq_false_iff] at plain ⊢
            rw [ih plain.2]
            rfl
          | some set =>
            simp [closed, Token.isMagic] at plain
        · rw [tokens] at plain ⊢
          · rw [List.any_cons, Bool.or_eq_false_iff] at plain
            rw [ih plain.2]
            rfl
          all_goals simp [star, question, opening]

theorem matchTokens_chars (part name : Text) :
    matchTokens (part.map Token.char) name = true ↔ name = part := by
  induction part generalizing name with
  | nil => cases name <;> simp [matchTokens]
  | cons c part ih =>
    cases name with
    | nil => simp [matchTokens]
    | cons d name =>
      rw [List.map_cons, matchTokens, Bool.and_eq_true, beq_iff_eq, ih, List.cons.injEq]
      exact and_congr_left' eq_comm

def shell : Wildcards where
  magic part := (tokens 0 (quote part)).any Token.isMagic
  fits part name := fitsTokens (tokens 0 (quote part)) name
  plain part name unquoted plain := by
    rw [quote_plain unquoted] at plain ⊢
    rw [tokens_plain plain, fitsTokens, Bool.and_eq_true, matchTokens_chars]
    constructor
    · exact And.right
    · rintro rfl
      refine ⟨?_, rfl⟩
      cases name with
      | nil => rfl
      | cons c name => by_cases dot : c = '.' <;> simp [dot]

end FileGlob
