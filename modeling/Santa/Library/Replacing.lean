/-!
Placeholders in a text: a name between two delimiters. Names are replaced by one
pass over the text each, left to right and without overlap. `expand` is what the
text means, all names at once; the passes agree with it in any order as long as
no value holds the delimiter and what stands between two placeholders could not
be mistaken for a name, whatever is put around it.
-/
namespace Replacing
variable {A : Type}

abbrev Segments (A : Type) := List A × List (List A)

def join (d : A) (s : Segments A) : List A := s.1 ++ s.2.flatMap fun x => d :: x

def placeholder (d : A) (name : List A) : List A := d :: name ++ [d]

def expand (m : List A → Option (List A)) : List A → List (List A) → Segments A
  | s, [] => (s, [])
  | s, [x] => (s, [x])
  | s, x :: y :: rest =>
      match m x with
      | some v => (s ++ v ++ (expand m y rest).1, (expand m y rest).2)
      | none => (s, (expand m x (y :: rest)).1 :: (expand m x (y :: rest)).2)

def Stops (names : List (List A)) (c : A) : Prop := ∀ name ∈ names, c ∉ name

def Stopped (names : List (List A)) (x : List A) : Prop := ∃ c ∈ x, Stops names c

/-- What stands between a delimiter and a placeholder is stopped: with a value put behind it, it
    is still no name. -/
def Spaced (names : List (List A)) : List (List A) → Prop
  | [] => True
  | [_] => True
  | x :: y :: rest =>
      (rest ≠ [] → y ∈ names → Stopped names x) ∧ Spaced names (y :: rest)

def Free (d : A) (s : Segments A) : Prop := d ∉ s.1 ∧ ∀ x ∈ s.2, d ∉ x

section plain
variable {names : List (List A)} {m : List A → Option (List A)}

theorem join_front (d : A) (front : List A) (s : Segments A) :
    join d (front ++ s.1, s.2) = front ++ join d s := List.append_assoc _ _ _

theorem prefix_iff {d : A} {name x : List A} (plainName : d ∉ name) (plain : d ∉ x)
    (text : List A) : name ++ [d] <+: x ++ d :: text ↔ x = name := by
  constructor
  · rintro ⟨rest, same⟩
    rw [List.append_assoc] at same
    induction name generalizing x with
    | nil =>
      cases x with
      | nil => rfl
      | cons c x =>
        have first : d = c := by simpa using congrArg List.head? same
        exact absurd (first ▸ List.mem_cons_self) plain
    | cons n name ih =>
      cases x with
      | nil =>
        have first : n = d := by simpa using congrArg List.head? same
        exact absurd (first ▸ List.mem_cons_self) plainName
      | cons c x =>
        simp only [List.cons_append, List.cons.injEq] at same
        rw [same.1, ih (fun m => plainName (List.mem_cons_of_mem n m))
          (fun m => plain (List.mem_cons_of_mem c m)) same.2]
  · rintro rfl
    exact ⟨text, by simp⟩

theorem not_prefix_last {d : A} {name x : List A} (plain : d ∉ x) :
    ¬ name ++ [d] <+: x := by
  rintro ⟨rest, same⟩
  exact plain (same ▸ by simp)

theorem Stopped.append {x : List A} (stopped : Stopped names x) (back : List A) :
    Stopped names (x ++ back) :=
  stopped.imp fun _ h => ⟨List.mem_append_left back h.1, h.2⟩

theorem Stopped.not_mem {x : List A} (stopped : Stopped names x) : x ∉ names :=
  fun member => stopped.elim fun _ h => h.2 x member h.1

theorem Spaced.tail {x : List A} {rest : List (List A)} (spaced : Spaced names (x :: rest)) :
    Spaced names rest := by
  cases rest with
  | nil => trivial
  | cons y rest => exact spaced.2

theorem expand_append (m : List A → Option (List A)) (front s : List A) (rest : List (List A)) :
    expand m (front ++ s) rest = (front ++ (expand m s rest).1, (expand m s rest).2) := by
  match rest with
  | [] => rfl
  | [x] => rfl
  | x :: y :: rest =>
    cases found : m x with
    | none => simp [expand, found]
    | some w => simp [expand, found]

theorem expand_other (m : List A → Option (List A)) (s : List A) {x : List A}
    (rest : List (List A)) (none : m x = none) :
    expand m s (x :: rest) = (s, (expand m x rest).1 :: (expand m x rest).2) := by
  cases rest with
  | nil => rfl
  | cons y rest => simp only [expand, none]

theorem expand_name (m : List A → Option (List A)) (s : List A) {x w : List A}
    (y : List A) (rest : List (List A)) (found : m x = some w) :
    expand m s (x :: y :: rest) = (s ++ w ++ (expand m y rest).1, (expand m y rest).2) := by
  simp only [expand, found]

theorem expand_none : ∀ (s : List A) (rest : List (List A)),
    expand (fun _ => none) s rest = (s, rest)
  | _, [] => rfl
  | s, x :: rest => by rw [expand_other _ s rest rfl, expand_none x rest]

theorem expand_free {d : A} (values : ∀ x w, m x = some w → d ∉ w) :
    ∀ (s : List A) (rest : List (List A)), Free d (s, rest) → Free d (expand m s rest)
  | _, [], free => free
  | _, [_], free => free
  | s, x :: y :: rest, free => by
      obtain ⟨plain, others⟩ := free
      simp only [List.forall_mem_cons] at others
      cases found : m x with
      | none =>
        obtain ⟨first, second⟩ := expand_free values x (y :: rest)
          ⟨others.1, List.forall_mem_cons.mpr others.2⟩
        rw [expand_other m s (y :: rest) found]
        exact ⟨plain, List.forall_mem_cons.mpr ⟨first, second⟩⟩
      | some w =>
        obtain ⟨first, second⟩ := expand_free values y rest others.2
        rw [expand_name m s y rest found]
        refine ⟨?_, second⟩
        simp only [List.mem_append, not_or]
        exact ⟨⟨plain, values x w found⟩, first⟩

end plain

variable [DecidableEq A]

def segments (d : A) : List A → Segments A
  | [] => ([], [])
  | c :: rest =>
      if c = d then ([], (segments d rest).1 :: (segments d rest).2)
      else (c :: (segments d rest).1, (segments d rest).2)

def replaceFrom (target value : List A) : Nat → List A → List A
  | _, [] => []
  | skip + 1, _ :: rest => replaceFrom target value skip rest
  | 0, c :: rest =>
      if target.isPrefixOf (c :: rest) then
        value ++ replaceFrom target value (target.length - 1) rest
      else c :: replaceFrom target value 0 rest

def replaceAll (target value text : List A) : List A := replaceFrom target value 0 text

def single (name value : List A) : List A → Option (List A) :=
  fun x => if x = name then some value else none

def override (name value : List A) (m : List A → Option (List A)) : List A → Option (List A) :=
  fun x => if x = name then some value else m x

def passes (d : A) (entries : List (List A × List A)) (text : List A) : List A :=
  entries.foldl (fun t e => replaceAll (placeholder d e.1) e.2 t) text

def meaning : List (List A × List A) → List A → Option (List A)
  | [] => fun _ => none
  | (name, value) :: rest => override name value (meaning rest)

instance (names : List (List A)) (x : List A) : Decidable (Stopped names x) :=
  inferInstanceAs (Decidable (∃ c ∈ x, ∀ name ∈ names, c ∉ name))

instance decidableSpaced (names : List (List A)) : (xs : List (List A)) →
    Decidable (Spaced names xs)
  | [] => .isTrue trivial
  | [_] => .isTrue trivial
  | x :: y :: rest =>
      have := decidableSpaced names (y :: rest)
      inferInstanceAs (Decidable ((rest ≠ [] → y ∈ names → Stopped names x) ∧
        Spaced names (y :: rest)))

/-! ### Segments -/

theorem join_segments (d : A) (text : List A) : join d (segments d text) = text := by
  induction text with
  | nil => rfl
  | cons c rest ih =>
    simp only [join] at ih
    by_cases delimiter : c = d
    · simp [segments, delimiter, join, ih]
    · simp [segments, delimiter, join, ih]

theorem segments_free (d : A) (text : List A) : Free d (segments d text) := by
  induction text with
  | nil => simp [Free, segments]
  | cons c rest ih =>
    by_cases delimiter : c = d
    · simpa [Free, segments, delimiter] using ih
    · simpa [Free, segments, delimiter, Ne.symm delimiter] using ih

/-! ### One pass -/

theorem replaceFrom_skip (target value : List A) (skip : Nat) (text : List A) :
    replaceFrom target value skip text = replaceFrom target value 0 (text.drop skip) := by
  induction text generalizing skip with
  | nil => cases skip <;> rfl
  | cons c rest ih =>
    cases skip with
    | zero => rfl
    | succ skip => exact ih skip

theorem replaceFrom_plain {d : A} (name value : List A) {front : List A} (plain : d ∉ front)
    (text : List A) :
    replaceFrom (placeholder d name) value 0 (front ++ text) =
      front ++ replaceFrom (placeholder d name) value 0 text := by
  induction front with
  | nil => rfl
  | cons c front ih =>
    have differ : (d == c) = false := by
      simpa using fun same : d = c => plain (same ▸ List.mem_cons_self)
    have no : (placeholder d name).isPrefixOf (c :: (front ++ text)) = false := by
      simp [placeholder, List.isPrefixOf, differ]
    simp only [List.cons_append, replaceFrom, no, Bool.false_eq_true, if_false,
      ih fun member => plain (List.mem_cons_of_mem c member)]

theorem replaceAll_join {d : A} {name : List A} (value : List A) (plainName : d ∉ name) :
    ∀ (s : List A) (rest : List (List A)), Free d (s, rest) →
      replaceAll (placeholder d name) value (join d (s, rest)) =
        join d (expand (single name value) s rest)
  | s, [], free => by
      have plain := replaceFrom_plain name value free.1 []
      simpa [replaceAll, join, expand, replaceFrom] using plain
  | s, [x], free => by
      have lastPlain : d ∉ x := free.2 x List.mem_cons_self
      have no : (placeholder d name).isPrefixOf (d :: x) = false := by
        have none : (name ++ [d]).isPrefixOf x = false :=
          Bool.eq_false_iff.mpr (mt List.isPrefixOf_iff_prefix.mp (not_prefix_last lastPlain))
        rw [placeholder, List.cons_append, List.isPrefixOf, none, Bool.and_false]
      have rest := replaceFrom_plain name value lastPlain []
      simp only [List.append_nil, replaceFrom] at rest
      simp only [replaceAll, join, expand, List.flatMap_cons, List.flatMap_nil, List.append_nil]
      rw [replaceFrom_plain name value free.1]
      simp only [replaceFrom, no, Bool.false_eq_true, if_false, rest]
  | s, x :: y :: rest, free => by
      have plain : d ∉ x := free.2 x List.mem_cons_self
      have later : Free d (y, rest) :=
        ⟨free.2 y (by simp), fun z member => free.2 z (by simp [member])⟩
      have next : Free d (x, y :: rest) := ⟨plain, fun z member => free.2 z (by simp [member])⟩
      have occurs := prefix_iff plainName plain (join d (y, rest))
      rw [← List.isPrefixOf_iff_prefix] at occurs
      have shape : join d (s, x :: y :: rest) = s ++ d :: (x ++ d :: join d (y, rest)) := by
        simp [join]
      rw [shape, replaceAll, replaceFrom_plain name value free.1]
      by_cases same : x = name
      · have yes : (placeholder d name).isPrefixOf (d :: (x ++ d :: join d (y, rest))) = true := by
          simpa [placeholder, List.isPrefixOf] using occurs.mpr same
        have ih := replaceAll_join value plainName y rest later
        have skipped : (x ++ d :: join d (y, rest)).drop ((placeholder d name).length - 1) =
            join d (y, rest) := by
          rw [← same]
          simp [placeholder]
        simp only [replaceFrom, yes, if_true]
        rw [replaceFrom_skip, skipped]
        simp only [expand, single, same, if_true]
        rw [join_front, List.append_assoc]
        exact congrArg (fun t => s ++ (value ++ t)) ih
      · have no : (placeholder d name).isPrefixOf (d :: (x ++ d :: join d (y, rest))) = false := by
          have none := Bool.eq_false_iff.mpr (mt occurs.mp same)
          rw [placeholder, List.cons_append, List.isPrefixOf, none, Bool.and_false]
        have ih := replaceAll_join value plainName x (y :: rest) next
        have inner : join d (x, y :: rest) = x ++ d :: join d (y, rest) := by simp [join]
        rw [inner] at ih
        simp only [replaceFrom, no, Bool.false_eq_true, if_false]
        simp only [expand, single, same, if_false]
        simp only [join, List.flatMap_cons, List.cons_append]
        exact congrArg (fun t => s ++ d :: t) ih

/-! ### Passes after each other -/

variable {names : List (List A)} {m : List A → Option (List A)} {b v : List A}

theorem expand_front (known : b ∈ names) (x : List A) {rest : List (List A)}
    (spaced : Spaced names (x :: rest)) :
    (expand (single b v) x rest).1 = x ∨ Stopped names (expand (single b v) x rest).1 := by
  match rest with
  | [] => exact .inl rfl
  | [y] => exact .inl rfl
  | y :: z :: rest =>
    by_cases same : y = b
    · have stopped := spaced.1 (List.cons_ne_nil z rest) (same ▸ known)
      rw [expand_name _ x z rest (if_pos same), List.append_assoc]
      exact .inr (stopped.append _)
    · rw [expand_other _ x (z :: rest) (if_neg same)]
      exact .inl rfl

theorem expand_spaced (known : b ∈ names) : ∀ (s : List A) (rest : List (List A)),
    (Spaced names rest → Spaced names (expand (single b v) s rest).2) ∧
    (Spaced names (s :: rest) →
      Spaced names ((expand (single b v) s rest).1 :: (expand (single b v) s rest).2))
  | _, [] => ⟨id, id⟩
  | _, [_] => ⟨id, id⟩
  | s, x :: y :: rest => by
      obtain ⟨later, _⟩ := expand_spaced known y rest
      obtain ⟨_, next⟩ := expand_spaced known x (y :: rest)
      by_cases same : x = b
      · rw [expand_name _ s y rest (if_pos same)]
        refine ⟨fun spaced => later spaced.2.tail, fun spaced => ?_⟩
        have stopped := spaced.1 (List.cons_ne_nil y rest) (same ▸ known)
        have kept := later spaced.2.2.tail
        rw [List.append_assoc]
        generalize (expand (single b v) y rest).2 = others at kept
        cases others with
        | nil => trivial
        | cons z others => exact ⟨fun _ _ => stopped.append _, kept⟩
      · rw [expand_other _ s (y :: rest) (if_neg same)]
        refine ⟨next, fun spaced => ⟨fun _ member => ?_, next spaced.2⟩⟩
        rcases expand_front known x spaced.2 with front | stopped
        · rw [front] at member
          exact spaced.1 (List.cons_ne_nil y rest) member
        · exact absurd member stopped.not_mem

theorem expand_expand (known : b ∈ names) (domain : ∀ x, x ∉ names → m x = none) :
    ∀ (s : List A) (rest : List (List A)), Spaced names rest →
      expand m (expand (single b v) s rest).1 (expand (single b v) s rest).2 =
        expand (override b v m) s rest
  | _, [], _ => rfl
  | _, [_], _ => rfl
  | s, x :: y :: rest, spaced => by
      have later := expand_expand known domain y rest spaced.2.tail
      have next := expand_expand known domain x (y :: rest) spaced.2
      by_cases same : x = b
      · rw [expand_name _ s y rest (if_pos same), expand_name _ s y rest (if_pos same),
          expand_append, later]
      · rw [expand_other _ s (y :: rest) (if_neg same)]
        have kept : override b v m x = m x := if_neg same
        by_cases placed : y = b ∧ rest ≠ []
        · have stopped := spaced.1 placed.2 (placed.1 ▸ known)
          have none := domain x stopped.not_mem
          have front : m (expand (single b v) x (y :: rest)).1 = Option.none := by
            rcases expand_front known x spaced with front | stopped
            · rw [front, none]
            · exact domain _ stopped.not_mem
          rw [expand_other m s _ front, next, expand_other _ s (y :: rest) (kept.trans none)]
        · have split : expand (single b v) x (y :: rest) =
              (x, (expand (single b v) y rest).1 :: (expand (single b v) y rest).2) := by
            cases rest with
            | nil => rfl
            | cons z rest =>
              exact expand_other _ x (z :: rest) (if_neg fun h => placed ⟨h, by simp⟩)
          rw [split] at next ⊢
          cases found : m x with
          | none =>
            rw [expand_other m s _ found, next, expand_other _ s (y :: rest) (kept.trans found)]
          | some w =>
            rw [expand_name m s _ _ found, later,
              expand_name _ s y rest (kept.trans found)]

theorem meaning_unknown {entries : List (List A × List A)} {x : List A}
    (known : ∀ e ∈ entries, e.1 ∈ names) (unknown : x ∉ names) : meaning entries x = none := by
  induction entries with
  | nil => rfl
  | cons e entries ih =>
    obtain ⟨here, others⟩ := List.forall_mem_cons.mp known
    have differ : x ≠ e.1 := fun same => unknown (same ▸ here)
    rw [meaning, override, if_neg differ, ih others]

theorem passes_join {d : A} (plainNames : ∀ name ∈ names, d ∉ name)
    (entries : List (List A × List A)) (known : ∀ e ∈ entries, e.1 ∈ names ∧ d ∉ e.2) :
    ∀ (s : List A) (rest : List (List A)), Free d (s, rest) → Spaced names rest →
      passes d entries (join d (s, rest)) = join d (expand (meaning entries) s rest) := by
  induction entries with
  | nil =>
    intro s rest _ _
    rw [meaning, expand_none]
    rfl
  | cons e entries ih =>
    intro s rest free spaced
    obtain ⟨⟨member, plain⟩, others⟩ := List.forall_mem_cons.mp known
    have values : ∀ x w, single e.1 e.2 x = some w → d ∉ w := by
      intro x w found
      simp only [single, Option.ite_none_right_eq_some, Option.some.injEq] at found
      exact found.2 ▸ plain
    have domain := fun x unknown => meaning_unknown (x := x) (fun f m => (others f m).1) unknown
    have once := replaceAll_join e.2 (plainNames e.1 member) s rest free
    have pass : passes d (e :: entries) (join d (s, rest)) =
        passes d entries (join d (expand (single e.1 e.2) s rest)) :=
      congrArg (passes d entries) once
    rw [pass, ih others _ _ (expand_free values s rest free)
      ((expand_spaced member s rest).1 spaced), expand_expand member domain s rest spaced]
    rfl

/-- The order of the passes does not matter. -/
theorem meaning_perm {entries others : List (List A × List A)} (same : entries.Perm others)
    (unique : (entries.map Prod.fst).Nodup) : meaning entries = meaning others := by
  induction same with
  | nil => rfl
  | cons e _ ih =>
    exact congrArg (override e.1 e.2) (ih (List.nodup_cons.mp unique).2)
  | swap e f rest =>
    have differ : f.1 ≠ e.1 := by
      simp only [List.map_cons, List.nodup_cons, List.mem_cons, not_or] at unique
      exact unique.1.1
    funext x
    simp only [meaning, override]
    by_cases first : x = e.1
    · rw [if_pos first, if_pos first, if_neg fun second => differ (second.symm.trans first)]
    · rw [if_neg first, if_neg first]
  | trans same _ first second =>
    exact (first unique).trans (second ((same.map Prod.fst).nodup unique))

end Replacing
