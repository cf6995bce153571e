/-!
Runs of a labelled machine whose step may be disabled. A run is a list of
labels; it ends early at the first label that the machine does not accept.
`Always` speaks of every state a run reaches, `Meets` of every step it takes
(the condition sees the state before the step). The last theorem is the exact
version: a run is safe throughout iff each of its steps met the condition.
-/
namespace Runs
variable {S L : Type}

def run (step : S → L → Option S) : S → List L → Option S
  | s, [] => some s
  | s, l :: ls => (step s l).bind fun t => run step t ls

def Always (step : S → L → Option S) (safe : S → Prop) : S → List L → Prop
  | s, [] => safe s
  | s, l :: ls => safe s ∧ ∀ t, step s l = some t → Always step safe t ls

def Meets (step : S → L → Option S) (cond : S → L → Prop) : S → List L → Prop
  | _, [] => True
  | s, l :: ls => ∀ t, step s l = some t → cond s l ∧ Meets step cond t ls

theorem always_head {step : S → L → Option S} {safe : S → Prop} {s : S} {ls : List L}
    (h : Always step safe s ls) : safe s := by
  cases ls with
  | nil => exact h
  | cons l ls => exact h.1

theorem always_mono {step : S → L → Option S} {p q : S → Prop} (weaker : ∀ s, p s → q s)
    {s : S} {ls : List L} (h : Always step p s ls) : Always step q s ls := by
  induction ls generalizing s with
  | nil => exact weaker s h
  | cons l ls ih => exact ⟨weaker s h.1, fun t ht => ih (h.2 t ht)⟩

theorem always_last {step : S → L → Option S} {safe : S → Prop} {s t : S} {ls : List L}
    (h : Always step safe s ls) (ends : run step s ls = some t) : safe t := by
  induction ls generalizing s with
  | nil =>
    simp only [run, Option.some.injEq] at ends
    subst t
    exact h
  | cons l ls ih =>
    simp only [run, Option.bind_eq_some_iff] at ends
    obtain ⟨m, first, rest⟩ := ends
    exact ih (h.2 m first) rest

/-- The step lemma lifted to runs. The invariant need only survive the steps
    that meet the condition. -/
theorem always_of_meets {step : S → L → Option S} {cond : S → L → Prop} {inv : S → Prop}
    (keep : ∀ s l t, inv s → cond s l → step s l = some t → inv t)
    {s : S} {ls : List L} (start : inv s) (meets : Meets step cond s ls) :
    Always step inv s ls := by
  induction ls generalizing s with
  | nil => exact start
  | cons l ls ih =>
    refine ⟨start, ?_⟩
    intro t first
    obtain ⟨ok, rest⟩ := meets t first
    exact ih (keep s l t start ok first) rest

theorem meets_true (step : S → L → Option S) (s : S) (ls : List L) :
    Meets step (fun _ _ => True) s ls := by
  induction ls generalizing s with
  | nil => trivial
  | cons l ls ih => exact fun t _ => ⟨trivial, ih t⟩

/-- An invariant of every step is an invariant of every run. -/
theorem always_of_keep {step : S → L → Option S} (inv : S → Prop)
    (keep : ∀ s l t, inv s → step s l = some t → inv t)
    {s : S} (start : inv s) (ls : List L) : Always step inv s ls :=
  always_of_meets (fun s l t hs _ ht => keep s l t hs ht) start (meets_true step s ls)

/-- An invariant that also speaks of the labels taken so far. -/
theorem history_of_keep {step : S → L → Option S} (inv : List L → S → Prop)
    (keep : ∀ past s l t, inv past s → step s l = some t → inv (past ++ [l]) t)
    {s t : S} {ls : List L} (start : inv [] s) (ends : run step s ls = some t) : inv ls t := by
  have later : ∀ (ls : List L) past s, inv past s → run step s ls = some t →
      inv (past ++ ls) t := by
    intro ls
    induction ls with
    | nil =>
      intro past s holds ends
      simp only [run, Option.some.injEq] at ends
      rw [← ends, List.append_nil]
      exact holds
    | cons l ls ih =>
      intro past s holds ends
      simp only [run, Option.bind_eq_some_iff] at ends
      obtain ⟨m, first, rest⟩ := ends
      rw [List.append_cons]
      exact ih (past ++ [l]) m (keep past s l m holds first) rest
  exact later ls [] s start ends

theorem meets_cons {step : S → L → Option S} {cond : S → L → Prop} {s t : S} {l : L} {ls : List L}
    (first : step s l = some t) :
    (cond s l ∧ Meets step cond t ls) ↔ Meets step cond s (l :: ls) := by
  constructor
  · rintro met u second
    rw [first, Option.some.injEq] at second
    subst second
    exact met
  · exact fun met => met t first

instance decidableMeets (step : S → L → Option S) (cond : S → L → Prop)
    [∀ s l, Decidable (cond s l)] : (s : S) → (ls : List L) → Decidable (Meets step cond s ls)
  | _, [] => .isTrue trivial
  | s, l :: ls =>
      match first : step s l with
      | none => .isTrue fun _ some => by simp [first] at some
      | some t =>
          have := decidableMeets step cond t ls
          decidable_of_iff (cond s l ∧ Meets step cond t ls) (meets_cons first)

theorem meets_congr {step : S → L → Option S} {p q : S → L → Prop} {inv : S → Prop}
    (same : ∀ s l t, inv s → step s l = some t → (p s l ↔ q s l))
    (keep : ∀ s l t, inv s → step s l = some t → inv t)
    {s : S} (start : inv s) (ls : List L) : Meets step p s ls ↔ Meets step q s ls := by
  induction ls generalizing s with
  | nil => exact Iff.rfl
  | cons l ls ih =>
    simp only [Meets]
    refine forall_congr' fun t => imp_congr_right fun first => ?_
    rw [same s l t start first, ih (keep s l t start first)]

theorem meets_iff {step : S → L → Option S} {p q : S → L → Prop} {inv : S → Prop}
    (same : ∀ s l, inv s → (p s l ↔ q s l)) (keep : ∀ s l t, inv s → step s l = some t → inv t)
    {s : S} (start : inv s) (ls : List L) : Meets step p s ls ↔ Meets step q s ls :=
  meets_congr (fun s l _ holds _ => same s l holds) keep start ls

theorem meets_of_meets {step : S → L → Option S} {p q : S → L → Prop} {inv : S → Prop}
    (implies : ∀ s l, inv s → p s l → q s l)
    (keep : ∀ s l t, inv s → p s l → step s l = some t → inv t)
    {s : S} (start : inv s) {ls : List L} (meets : Meets step p s ls) : Meets step q s ls := by
  induction ls generalizing s with
  | nil => trivial
  | cons l ls ih =>
    intro t first
    obtain ⟨ok, rest⟩ := meets t first
    exact ⟨implies s l start ok, ih (keep s l t start ok first) rest⟩

theorem meets_and {step : S → L → Option S} {p q : S → L → Prop} {s : S} {ls : List L}
    (first : Meets step p s ls) (second : Meets step q s ls) :
    Meets step (fun s l => p s l ∧ q s l) s ls := by
  induction ls generalizing s with
  | nil => trivial
  | cons l ls ih =>
    intro t next
    obtain ⟨here, later⟩ := first t next
    obtain ⟨here', later'⟩ := second t next
    exact ⟨⟨here, here'⟩, ih later later'⟩

theorem meets_and_forall {step : S → L → Option S} {cond : S → L → Prop} {given : L → Prop} {s : S}
    {ls : List L} (meets : Meets step cond s ls) (all : ∀ l ∈ ls, given l) :
    Meets step (fun s l => cond s l ∧ given l) s ls := by
  induction ls generalizing s with
  | nil => trivial
  | cons l ls ih =>
    intro t first
    obtain ⟨here, rest⟩ := meets t first
    exact ⟨⟨here, all l List.mem_cons_self⟩,
      ih rest fun l' member => all l' (List.mem_cons_of_mem l member)⟩

theorem meets_last {step : S → L → Option S} {cond : S → L → Prop} {s t u : S} {l : L}
    {ls : List L} (meets : Meets step cond s (ls ++ [l])) (ends : run step s ls = some t)
    (last : step t l = some u) : cond t l := by
  induction ls generalizing s with
  | nil =>
    simp only [run, Option.some.injEq] at ends
    subst t
    exact (meets u last).1
  | cons k ls ih =>
    simp only [run, Option.bind_eq_some_iff] at ends
    obtain ⟨m, first, rest⟩ := ends
    exact ih (meets m first).2 rest

theorem run_eq_foldlM (step : S → L → Option S) (s : S) (ls : List L) :
    ls.foldlM step s = run step s ls := by
  induction ls generalizing s with
  | nil => rfl
  | cons l ls ih =>
    simp only [List.foldlM_cons, run, Option.bind_eq_bind]
    cases step s l with
    | none => rfl
    | some t => exact ih t

theorem foldlM_keeps {step : S → L → Option S} {inv : S → Prop}
    (keep : ∀ s l t, inv s → step s l = some t → inv t)
    {s t : S} {ls : List L} (start : inv s) (ends : ls.foldlM step s = some t) : inv t := by
  rw [run_eq_foldlM] at ends
  exact always_last (always_of_keep inv keep start ls) ends

/-- If a step that breaks the condition always leaves an unsafe state, then the
    condition is not only enough but exact, run by run. -/
theorem always_iff_meets {step : S → L → Option S} {cond : S → L → Prop}
    (inv : S → Prop) {safe : S → Prop} (enough : ∀ s, inv s → safe s)
    (keep : ∀ s l t, inv s → cond s l → step s l = some t → inv t)
    (breaks : ∀ s l t, inv s → ¬ cond s l → step s l = some t → ¬ safe t)
    {s : S} (start : inv s) (ls : List L) :
    Always step safe s ls ↔ Meets step cond s ls := by
  constructor
  · intro always
    induction ls generalizing s with
    | nil => trivial
    | cons l ls ih =>
      intro t first
      have met : cond s l := by
        by_cases met : cond s l
        · exact met
        · exact absurd (always_head (always.2 t first)) (breaks s l t start met first)
      exact ⟨met, ih (keep s l t start met first) (always.2 t first)⟩
  · intro meets
    exact always_mono enough (always_of_meets keep start meets)

end Runs
