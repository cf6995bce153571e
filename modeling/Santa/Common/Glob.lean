import Santa.Library.FileGlob

/-!
The paths that a watch item names. A path with wildcards is expanded one
component at a time, and each directory found is the start of the next pattern;
where nothing is found the rest of the path is kept if it is literal. The
search is compared with one that goes down the directories themselves.
-/
namespace SantaGlob
open FileGlob

section
variable (w : Wildcards) (fs : FileSystem)

def findMatchesBelow : Text → List Text → List Text
  | base, [] => [base]
  | base, component :: rest =>
    let path := base ++ component
    let hits := glob w fs path
    if hits = [] then
      if hasMagic w path then []
      else
        let remainingPath := rest.flatten
        if hasMagic w remainingPath then [] else [path ++ remainingPath]
    else hits.flatMap fun hit => findMatchesBelow hit rest

/-- The first slash is a component, and so is a last one. -/
def pathComponents (path : Text) : List Text :=
  (if path.head? = some '/' then [['/']] else []) ++ pathNames path ++
    if endsInSlash path ∧ pathNames path ≠ [] then [['/']] else []

/-- A component with a slash is matched by directories alone. -/
def modifiedPathComponents (slash : Bool) : List Text → List Text
  | [] => []
  | component :: rest =>
    (if rest = [] ∧ slash = false then component else component ++ ['/']) ::
      modifiedPathComponents slash rest

def absolute (path : Text) : Text := if path.head? = some '/' then path else '/' :: path

def findMatches : Option Text → List Text
  | none => []
  | some path =>
    let path := absolute path
    if hasMagic w path then
      let components := pathComponents path
      if components.length > 40 then []
      else
        let limit := if endsInSlash path then components.length - 1 else components.length
        findMatchesBelow w fs ['/']
          (modifiedPathComponents (endsInSlash path) ((components.take limit).drop 1))
    else [path]

/-! ### What the expansion is for -/

def WholeMatch (path : Text) (names : List Text) : Prop :=
  Matches w fs [] (pathNames path) names ∧ (endsInSlash path = true → fs.isDir names = true)

structure Expands (path : Text) (found : List Text) : Prop where
  complete : ∀ names, WholeMatch w fs path names →
    ∃ r ∈ found, pathNames r = names ∧ endsInSlash r = endsInSlash path
  sound : ∀ r ∈ found, endsInSlash r = endsInSlash path ∧
    (WholeMatch w fs path (pathNames r) ∨
      ∃ front back names, pathNames path = front ++ back ∧ Matches w fs [] front names ∧
        fs.isDir names = true ∧ back.any w.magic = false ∧ pathNames r = names ++ back)
  once : (found.map pathNames).Nodup

/-- Each directory that leading components match is read back where the next component is sought. -/
def DirectoriesReadBack (path : Text) : Prop :=
  ∀ front part back names, pathNames path = front ++ part :: back → Matches w fs [] front names →
    fs.isDir names = true → ReadsBack w fs (endsInSlash path || !back.isEmpty) names part

/-- Without wildcards the path is taken as it is written, and is no pattern for another path. -/
def ReadAsWritten (path : Text) : Prop :=
  (hasMagic w path = true → DirectoriesReadBack w fs path) ∧
    (hasMagic w path = false →
      (∀ part ∈ pathNames path, '\\' ∉ part) ∨ ∀ names, ¬ WholeMatch w fs path names)

/-! ### The search through the directories -/

def walk (slash : Bool) : List Text → List Text → List (List Text)
  | d, [] => [d]
  | d, part :: rest =>
    let hits := kept w fs (slash || !rest.isEmpty) d part
    if hits = [] then if (d ++ part :: rest).any w.magic then [] else [d ++ part :: rest]
    else hits.flatMap fun name => walk slash (d ++ [name]) rest

end

variable {w : Wildcards} {fs : FileSystem} {slash : Bool}

theorem isDir_of_kept {d rest : List Text} {part name : Text} (more : rest ≠ [] ∨ slash = true)
    (hit : name ∈ kept w fs (slash || !rest.isEmpty) d part) : fs.isDir (d ++ [name]) = true := by
  have sep : (slash || !rest.isEmpty) = true := by
    rcases more with some | slash
    · cases rest with
      | nil => exact absurd rfl some
      | cons => simp
    · simp [slash]
  simpa [sep] using (List.mem_filter.mp hit).2

theorem proper_of_kept {d : List Text} {part name : Text} (proper : Proper d)
    (hit : name ∈ kept w fs slash d part) : Proper (d ++ [name]) := by
  have listed := listed_of_matched (List.mem_filter.mp hit).1
  refine proper_append.mpr ⟨proper, proper_cons.mpr ⟨fs.listed_proper listed, ?_⟩⟩
  exact fun _ none => absurd none List.not_mem_nil

theorem walk_extends {d rest found : List Text} (member : found ∈ walk w fs slash d rest) :
    d <+: found := by
  induction rest generalizing d with
  | nil =>
    rw [walk, List.mem_singleton] at member
    subst member
    exact List.prefix_refl found
  | cons part rest ih =>
    rw [walk] at member
    split at member
    · split at member
      · exact absurd member List.not_mem_nil
      · rw [List.mem_singleton] at member
        rw [member]
        exact List.prefix_append d _
    · obtain ⟨name, -, member⟩ := List.mem_flatMap.mp member
      exact (List.prefix_append d [name]).trans (ih member)

theorem walk_complete {d rest names : List Text} (found : Matches w fs d rest names)
    (dir : slash = true → fs.isDir (d ++ names) = true) : d ++ names ∈ walk w fs slash d rest := by
  induction found with
  | nil d =>
    rw [walk, List.append_nil]
    exact List.mem_singleton_self d
  | @cons d part name rest names member below ih =>
    rw [List.append_cons] at dir ⊢
    have last : name ∈ kept w fs (slash || !rest.isEmpty) d part := by
      refine List.mem_filter.mpr ⟨member, ?_⟩
      cases below with
      | nil =>
        cases slash with
        | false => rfl
        | true => simpa using dir rfl
      | cons next _ =>
        simp [fs.isDir_of_listed (listed_of_matched next)]
    rw [walk, if_neg (List.ne_nil_of_mem last)]
    exact List.mem_flatMap.mpr ⟨name, last, ih dir⟩

theorem walk_sound {d rest found : List Text} (dir : rest ≠ [] ∨ slash = true → fs.isDir d = true)
    (member : found ∈ walk w fs slash d rest) :
    (∃ names, found = d ++ names ∧ Matches w fs d rest names ∧
      (slash = true → fs.isDir found = true)) ∨
    ∃ front back names, rest = front ++ back ∧ Matches w fs d front names ∧
      fs.isDir (d ++ names) = true ∧ back.any w.magic = false ∧ found = d ++ names ++ back := by
  induction rest generalizing d with
  | nil =>
    rw [walk, List.mem_singleton] at member
    subst member
    exact Or.inl ⟨[], (List.append_nil _).symm, .nil _, fun slash => dir (Or.inr slash)⟩
  | cons part rest ih =>
    rw [walk] at member
    split at member
    · split at member
      · exact absurd member List.not_mem_nil
      · rename_i literal
        rw [List.mem_singleton] at member
        rw [List.any_append, Bool.or_eq_true, not_or, Bool.not_eq_true, Bool.not_eq_true]
          at literal
        refine Or.inr ⟨[], part :: rest, [], rfl, .nil d, ?_, literal.2, ?_⟩
        · rw [List.append_nil]
          exact dir (Or.inl (List.cons_ne_nil _ _))
        · rw [List.append_nil, member]
    · obtain ⟨name, hit, member⟩ := List.mem_flatMap.mp member
      have matched := (List.mem_filter.mp hit).1
      obtain ⟨names, rfl, whole, last⟩ | ⟨front, back, names, rfl, leading, isDir, literal, rfl⟩ :=
        ih (fun more => isDir_of_kept more hit) member
      · exact Or.inl ⟨name :: names, (List.append_cons ..).symm, .cons matched whole, last⟩
      · refine Or.inr ⟨part :: front, back, name :: names, rfl, .cons matched leading, ?_, literal,
          ?_⟩
        · rw [List.append_cons]
          exact isDir
        · rw [List.append_cons d name names]

theorem walk_once (d rest : List Text) : (walk w fs slash d rest).Nodup := by
  induction rest generalizing d with
  | nil => exact List.nodup_singleton d
  | cons part rest ih =>
    rw [walk]
    split
    · split
      · exact List.nodup_nil
      · exact List.nodup_singleton _
    · refine List.nodup_flatMap.mpr ⟨fun name _ => ih (d ++ [name]), ?_⟩
      refine ((matched_nodup d part).filter _).imp ?_
      intro name other differ found member again
      -- what is below one directory is not below another of the same depth
      have same := List.prefix_of_prefix_length_le (walk_extends member) (walk_extends again)
        (by simp)
      have alike := List.append_cancel_left (List.IsPrefix.eq_of_length same (by simp))
      exact differ (List.singleton_inj.mp alike)

theorem walk_proper {d rest found : List Text} (properD : Proper d) (proper : Proper rest)
    (member : found ∈ walk w fs slash d rest) : Proper found := by
  induction rest generalizing d with
  | nil =>
    rw [walk, List.mem_singleton] at member
    rw [member]
    exact properD
  | cons part rest ih =>
    rw [walk] at member
    split at member
    · split at member
      · exact absurd member List.not_mem_nil
      · rw [List.mem_singleton] at member
        rw [member]
        exact proper_append.mpr ⟨properD, proper⟩
    · obtain ⟨name, hit, member⟩ := List.mem_flatMap.mp member
      exact ih (proper_of_kept properD hit) (proper_cons.mp proper).2 member

/-! ### The patterns that the code makes -/

theorem pathText_component (slash : Bool) (names : List Text) (part : Text) (rest : List Text) :
    pathText true names ++ (if rest = [] ∧ slash = false then part else part ++ ['/']) =
      pathText (slash || !rest.isEmpty) (names ++ [part]) := by
  split
  · rename_i last
    rw [pathText_append_name, last.1, last.2]
    rfl
  · rename_i more
    rw [← List.append_assoc, pathText_append_name, ← pathText_true]
    cases rest <;> cases slash <;> simp_all

theorem pathText_modified (slash : Bool) (names rest : List Text) :
    pathText (slash || !rest.isEmpty) names ++ (modifiedPathComponents slash rest).flatten =
      pathText slash (names ++ rest) := by
  induction rest generalizing names with
  | nil => simp [modifiedPathComponents]
  | cons part rest ih =>
    rw [modifiedPathComponents, List.flatten_cons, ← List.append_assoc, List.isEmpty_cons,
      Bool.not_false, Bool.or_true, pathText_component, ih, ← List.append_cons]

theorem hasMagic_pathText {names : List Text} (slash : Bool) (proper : Proper names) :
    hasMagic w (pathText slash names) = names.any w.magic := by
  rw [hasMagic, pathNames_pathText slash proper]

theorem hasMagic_modified {rest : List Text} (proper : Proper rest) :
    hasMagic w (modifiedPathComponents slash rest).flatten = rest.any w.magic := by
  cases rest with
  | nil => rfl
  | cons part rest =>
    have whole := pathText_modified slash [] (part :: rest)
    rw [List.isEmpty_cons, Bool.not_false, Bool.or_true, List.nil_append] at whole
    rw [← hasMagic_pathText slash proper, ← whole, hasMagic, hasMagic]
    exact congrArg (fun names => names.any w.magic) (pathNames_slash _).symm

theorem findMatchesBelow_eq_walk {d rest : List Text} (properD : Proper d) (proper : Proper rest)
    (dir : rest ≠ [] → fs.isDir d = true)
    (readsBack : ∀ front part back names, rest = front ++ part :: back →
      Matches w fs d front names → fs.isDir (d ++ names) = true →
      ReadsBack w fs (slash || !back.isEmpty) (d ++ names) part) :
    findMatchesBelow w fs (pathText (slash || !rest.isEmpty) d)
        (modifiedPathComponents slash rest) =
      (walk w fs slash d rest).map (pathText slash) := by
  induction rest generalizing d with
  | nil => simp [findMatchesBelow, modifiedPathComponents, walk]
  | cons part rest ih =>
    obtain ⟨properPart, properRest⟩ := proper_cons.mp proper
    have here : ReadsBack w fs (slash || !rest.isEmpty) d part := by
      have first := readsBack [] part rest [] rfl (.nil d)
      rw [List.append_nil] at first
      exact first (dir (List.cons_ne_nil _ _))
    have below : Proper (d ++ [part]) :=
      proper_append.mpr ⟨properD, proper_cons.mpr ⟨properPart, by simp [Proper]⟩⟩
    have path := pathText_component slash d part rest
    rw [modifiedPathComponents, findMatchesBelow, List.isEmpty_cons, Bool.not_false, Bool.or_true,
      path, (glob_below_iff below _).mpr here, walk]
    simp only [List.map_eq_nil_iff]
    split
    · have literal : (d ++ part :: rest).any w.magic =
          ((d ++ [part]).any w.magic || rest.any w.magic) := by
        rw [List.append_cons, List.any_append]
      rw [hasMagic_pathText _ below, hasMagic_modified properRest, pathText_modified,
        ← List.append_cons, literal]
      cases (d ++ [part]).any w.magic <;> cases rest.any w.magic <;> rfl
    · rw [List.flatMap_map, List.map_flatMap]
      refine List.flatMap_congr ?_
      intro name hit
      have member := (List.mem_filter.mp hit).1
      refine ih (proper_of_kept properD hit) properRest
        (fun some => isDir_of_kept (Or.inl some) hit) ?_
      rintro front next back names rfl leading isDir
      rw [← List.append_cons] at isDir ⊢
      exact readsBack (part :: front) next back (name :: names) rfl (.cons member leading) isDir

theorem expands_literal {path : Text} (literal : hasMagic w path = false)
    (unquoted : (∀ part ∈ pathNames path, '\\' ∉ part) ∨ ∀ names, ¬ WholeMatch w fs path names) :
    Expands w fs path [path] where
  complete names whole := by
    rcases unquoted with unquoted | none
    · have plain : ∀ part ∈ pathNames path, Plain w part := fun part member =>
        ⟨unquoted part member, Bool.eq_false_iff.mpr (List.any_eq_false.mp literal part member)⟩
      exact ⟨path, List.mem_singleton_self path, (matches_plain whole.1 plain).symm, rfl⟩
    · exact absurd whole (none names)
  sound r member := by
    rw [List.mem_singleton] at member
    subst member
    exact ⟨rfl, Or.inr ⟨[], pathNames r, [], rfl, .nil [], fs.root, literal, rfl⟩⟩
  once := List.nodup_singleton _

theorem expands_walk (path : Text) :
    Expands w fs path ((walk w fs (endsInSlash path) [] (pathNames path)).map
      (pathText (endsInSlash path))) := by
  have proper : ∀ found ∈ walk w fs (endsInSlash path) [] (pathNames path), Proper found :=
    fun found member => walk_proper (by simp [Proper]) (pathNames_proper path) member
  have read : ∀ found ∈ walk w fs (endsInSlash path) [] (pathNames path),
      pathNames (pathText (endsInSlash path) found) = found ∧
        endsInSlash (pathText (endsInSlash path) found) = endsInSlash path := by
    intro found member
    refine ⟨pathNames_pathText _ (proper found member), ?_⟩
    cases slash : endsInSlash path with
    | true => exact endsInSlash_true found
    | false => exact endsInSlash_false (proper found member)
  constructor
  · intro names whole
    have member := walk_complete whole.1 whole.2
    rw [List.nil_append] at member
    exact ⟨_, List.mem_map_of_mem member, read names member⟩
  · intro r member
    obtain ⟨found, walked, rfl⟩ := List.mem_map.mp member
    obtain ⟨names, last⟩ := read found walked
    refine ⟨last, ?_⟩
    rw [names]
    obtain ⟨whole, rfl, matched, dir⟩ | ⟨front, back, leading, parts, matched, dir, literal, rfl⟩ :=
      walk_sound (fun _ => fs.root) walked
    · exact Or.inl ⟨matched, dir⟩
    · exact Or.inr ⟨front, back, leading, parts, matched, dir, literal, rfl⟩
  · have same : (walk w fs (endsInSlash path) [] (pathNames path)).map
        (pathNames ∘ pathText (endsInSlash path)) =
          walk w fs (endsInSlash path) [] (pathNames path) :=
      (List.map_congr_left fun found member => (read found member).1).trans (List.map_id _)
    rw [List.map_map, same]
    exact walk_once [] _

theorem slice_pathComponents {path : Text} (root : path.head? = some '/')
    (some : pathNames path ≠ []) :
    ((pathComponents path).take (if endsInSlash path then (pathComponents path).length - 1
      else (pathComponents path).length)).drop 1 = pathNames path := by
  rw [pathComponents, if_pos root]
  cases slash : endsInSlash path with
  | true => simp [some]
  | false => simp

theorem head_absolute (path : Text) : (absolute path).head? = some '/' := by
  unfold absolute
  split
  · assumption
  · rfl

/-- When each directory found is read back where the next component is sought, and a path without
    wildcards has no backslash or stands for none that exists, the watched paths are what the
    pattern matches and what its literal end may still become. -/
theorem find_matches_expands (w : Wildcards) (fs : FileSystem) (path : Text)
    (few : (pathComponents (absolute path)).length ≤ 40)
    (asWritten : ReadAsWritten w fs (absolute path)) :
    Expands w fs (absolute path) (findMatches w fs (some path)) := by
  rw [findMatches]
  cases magic : hasMagic w (absolute path) with
  | false => exact expands_literal magic (asWritten.2 magic)
  | true =>
    have some : pathNames (absolute path) ≠ [] := by
      intro none
      rw [hasMagic, none] at magic
      exact Bool.false_ne_true magic
    have walked : findMatchesBelow w fs (pathText true [])
        (modifiedPathComponents (endsInSlash (absolute path)) (pathNames (absolute path))) =
        (walk w fs (endsInSlash (absolute path)) [] (pathNames (absolute path))).map
          (pathText (endsInSlash (absolute path))) := by
      have more : (endsInSlash (absolute path) || !(pathNames (absolute path)).isEmpty) = true := by
        simp [some]
      rw [← findMatchesBelow_eq_walk (fun _ none => absurd none List.not_mem_nil)
        (pathNames_proper (absolute path)) (fun _ => fs.root) (asWritten.1 magic), more]
    simp only [if_pos, if_neg (Nat.not_lt.mpr few), slice_pathComponents (head_absolute path) some]
    rw [show (['/'] : Text) = pathText true [] from rfl, walked]
    exact expands_walk (absolute path)

theorem directoriesReadBack_of_plain {path : Text}
    (plain : ∀ d, ∀ name ∈ fs.listed d, Plain w name) : DirectoriesReadBack w fs path := by
  intro front part back names _ leading _
  refine readsBack_of_plain leading ?_ _ part
  intro name among
  obtain ⟨e, listed⟩ := listed_of_matches leading among
  exact plain e name listed

def namedLikePattern : FileSystem :=
  .ofTable [([], ["[b]".toList, "b".toList]), (["[b]".toList], ["c".toList]),
    (["b".toList], ["c".toList])] (by decide) (by decide)

/-- The path below this directory is missed, and the one beside it is found twice. -/
theorem bracketed_directory_missed :
    (pathComponents (absolute "/*/c".toList)).length ≤ 40 ∧
      WholeMatch shell namedLikePattern (absolute "/*/c".toList) ["[b]".toList, "c".toList] ∧
      findMatches shell namedLikePattern (some "/*/c".toList) = ["/b/c".toList, "/b/c".toList] ∧
      ¬ Expands shell namedLikePattern (absolute "/*/c".toList)
        (findMatches shell namedLikePattern (some "/*/c".toList)) := by
  have found : findMatches shell namedLikePattern (some "/*/c".toList) =
      ["/b/c".toList, "/b/c".toList] := by
    decide +kernel
  have whole : WholeMatch shell namedLikePattern (absolute "/*/c".toList)
      ["[b]".toList, "c".toList] :=
    ⟨.cons (by decide) (.cons (by decide) (.nil _)), fun slash => absurd slash (by decide)⟩
  refine ⟨by decide, whole, found, ?_⟩
  rw [found]
  intro expands
  exact absurd expands.once (by decide)

def namedPlainly : FileSystem :=
  .ofTable [([], ["a".toList, "b".toList]), (["a".toList], ["c".toList]), (["b".toList], [])]
    (by decide) (by decide)

theorem plain_directories_expand :
    Expands shell namedPlainly (absolute "/*/c".toList)
      (findMatches shell namedPlainly (some "/*/c".toList)) := by
  refine find_matches_expands shell namedPlainly "/*/c".toList (by decide) ⟨?_, ?_⟩
  · intro _
    refine directoriesReadBack_of_plain ?_
    intro d name listed
    obtain ⟨row, among, member⟩ := FileSystem.listed_ofTable listed
    have plain : ∀ row ∈ [([], ["a".toList, "b".toList]), (["a".toList], ["c".toList]),
        (["b".toList], [])], ∀ name ∈ (row : List Text × List Text).2,
          '\\' ∉ name ∧ shell.magic name = false := by
      decide
    exact plain row among name member
  · intro literal
    exact absurd literal (by decide)

end SantaGlob
