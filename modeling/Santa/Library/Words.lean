import Mathlib.Data.List.Basic
import Mathlib.Data.List.Flatten

/-!
Words that are written one after the other with nothing between them. What is
written can be read in two ways only if, at the first word where the readings
differ, the longer word runs on over the end of the shorter one. Words of which
none begins another are read in one way.
-/
namespace Words
variable {α : Type}

/-- At the first difference the word of `v` runs on over the end of that of `u`, with what
    follows there in `u`. -/
def RunsOn (u v : List (List α)) : Prop :=
  ∃ common w more rest rest', u = common ++ w :: rest ∧ v = common ++ (w ++ more) :: rest' ∧
    more ≠ [] ∧ rest.flatten = more ++ rest'.flatten

theorem RunsOn.cons {u v : List (List α)} (w : List α) (runs : RunsOn u v) :
    RunsOn (w :: u) (w :: v) := by
  obtain ⟨common, x, more, rest, rest', hu, hv, some_more, same⟩ := runs
  exact ⟨w :: common, x, more, rest, rest', by rw [hu]; rfl, by rw [hv]; rfl, some_more, same⟩

theorem RunsOn.flatten {u v : List (List α)} (runs : RunsOn u v) : u.flatten = v.flatten := by
  obtain ⟨common, w, more, rest, rest', hu, hv, -, same⟩ := runs
  rw [hu, hv, List.flatten_append, List.flatten_append, List.flatten_cons, List.flatten_cons,
    same, List.append_assoc]

theorem first_cases {w w' : List α} {u v : List (List α)}
    (same : w ++ u.flatten = w' ++ v.flatten) :
    (w = w' ∧ u.flatten = v.flatten) ∨ RunsOn (w :: u) (w' :: v) ∨ RunsOn (w' :: v) (w :: u) := by
  rcases List.append_eq_append_iff.mp same with ⟨more, longer, rest⟩ | ⟨more, longer, rest⟩
  · by_cases none : more = []
    · rw [none, List.append_nil] at longer
      rw [none, List.nil_append] at rest
      exact .inl ⟨longer.symm, rest⟩
    · exact .inr (.inl ⟨[], w, more, u, v, rfl, by rw [longer]; rfl, none, rest⟩)
  · by_cases none : more = []
    · rw [none, List.append_nil] at longer
      rw [none, List.nil_append] at rest
      exact .inl ⟨longer, rest.symm⟩
    · exact .inr (.inr ⟨[], w', more, v, u, rfl, by rw [longer]; rfl, none, rest⟩)

theorem flatten_eq_iff {u v : List (List α)} (some_u : ∀ w ∈ u, w ≠ []) (some_v : ∀ w ∈ v, w ≠ []) :
    u.flatten = v.flatten ↔ u = v ∨ RunsOn u v ∨ RunsOn v u := by
  constructor
  · induction u generalizing v with
    | nil =>
      intro same
      cases v with
      | nil => exact .inl rfl
      | cons w v =>
        rw [List.flatten_cons] at same
        exact absurd (List.append_eq_nil_iff.mp same.symm).1 (some_v w List.mem_cons_self)
    | cons w u ih =>
      intro same
      cases v with
      | nil =>
        rw [List.flatten_cons] at same
        exact absurd (List.append_eq_nil_iff.mp same).1 (some_u w List.mem_cons_self)
      | cons w' v =>
        rcases first_cases same with ⟨equal, rest⟩ | runs
        · subst equal
          have later := ih (fun x member => some_u x (List.mem_cons_of_mem _ member))
            (fun x member => some_v x (List.mem_cons_of_mem _ member)) rest
          rcases later with equal | runs | runs
          · exact .inl (by rw [equal])
          · exact .inr (.inl (runs.cons _))
          · exact .inr (.inr (runs.cons _))
        · exact .inr runs
  · rintro (equal | runs | runs)
    · rw [equal]
    · exact runs.flatten
    · exact runs.flatten.symm

def PrefixFree (code : List α → Prop) : Prop :=
  ∀ w w', code w → code w' → w <+: w' → w = w'

theorem PrefixFree.not_runsOn {code : List α → Prop} (free : PrefixFree code)
    {u v : List (List α)} (code_u : ∀ w ∈ u, code w) (code_v : ∀ w ∈ v, code w) :
    ¬ RunsOn u v := by
  rintro ⟨common, w, more, rest, rest', hu, hv, some_more, -⟩
  subst hu hv
  have same := free w (w ++ more) (code_u _ (by simp)) (code_v _ (by simp)) ⟨more, rfl⟩
  exact some_more (List.append_right_eq_self.mp same.symm)

theorem PrefixFree.flatten_inj {code : List α → Prop} (free : PrefixFree code)
    (some_word : ∀ w, code w → w ≠ []) {u v : List (List α)} (code_u : ∀ w ∈ u, code w)
    (code_v : ∀ w ∈ v, code w) : u.flatten = v.flatten ↔ u = v := by
  rw [flatten_eq_iff (fun w member => some_word w (code_u w member))
    (fun w member => some_word w (code_v w member))]
  constructor
  · rintro (equal | runs | runs)
    · exact equal
    · exact absurd runs (free.not_runsOn code_u code_v)
    · exact absurd runs (free.not_runsOn code_v code_u)
  · exact .inl

/-- A text without `stop`, then `stop`, then a number of letters that is always the same. -/
def Stopped (stop : α) (length : Nat) (w : List α) : Prop :=
  ∃ text tail, w = text ++ stop :: tail ∧ stop ∉ text ∧ tail.length = length

theorem stopped_ne_nil {stop : α} {length : Nat} (w : List α) (stopped : Stopped stop length w) :
    w ≠ [] := by
  obtain ⟨text, tail, same, -, -⟩ := stopped
  simp [same]

theorem stop_inj {stop : α} {text text' tail tail' : List α} (no_stop : stop ∉ text)
    (no_stop' : stop ∉ text') (same : text ++ stop :: tail = text' ++ stop :: tail') :
    text = text' ∧ tail = tail' := by
  rcases List.append_eq_append_iff.mp same with ⟨more, longer, rest⟩ | ⟨more, longer, rest⟩
  · cases more with
    | nil => simpa using And.intro longer.symm rest
    | cons a more =>
      rw [List.cons_append, List.cons.injEq] at rest
      rw [longer, ← rest.1] at no_stop'
      simp at no_stop'
  · cases more with
    | nil => simpa using And.intro longer rest.symm
    | cons a more =>
      rw [List.cons_append, List.cons.injEq] at rest
      rw [longer, ← rest.1] at no_stop
      simp at no_stop

theorem stopped_prefixFree (stop : α) (length : Nat) : PrefixFree (Stopped stop length) := by
  rintro w w' ⟨text, tail, rfl, no_stop, tail_length⟩ ⟨text', tail', rfl, no_stop', tail_length'⟩
    ⟨more, same⟩
  rw [List.append_assoc, List.cons_append] at same
  obtain ⟨same_text, same_tail⟩ := stop_inj no_stop no_stop' same
  have none : more = [] := by
    have lengths := congrArg List.length same_tail
    rw [List.length_append, tail_length, tail_length'] at lengths
    exact List.length_eq_zero_iff.mp (by omega)
  rw [none, List.append_nil] at same_tail
  rw [same_text, same_tail]

end Words
