import Santa.Library.Runs

/-!
Deterministic machines that answer each label. Two machines that stay related answer alike; the
relation need only survive the steps that meet a condition.
-/
namespace Simulations
open Runs
variable {S M L A : Type}

def outputs (step : S → L → A × S) : S → List L → List A
  | _, [] => []
  | s, l :: ls => (step s l).1 :: outputs step (step s l).2 ls

def next (step : S → L → A × S) (s : S) (l : L) : Option S := some (step s l).2

theorem outputs_eq {step : S → L → A × S} {spec : M → L → A × M} {cond : S → L → Prop}
    {related : S → M → Prop}
    (keep : ∀ s m l, related s m → cond s l →
      (step s l).1 = (spec m l).1 ∧ related (step s l).2 (spec m l).2)
    {s : S} {m : M} {ls : List L} (start : related s m) (met : Meets (next step) cond s ls) :
    outputs step s ls = outputs spec m ls := by
  induction ls generalizing s m with
  | nil => rfl
  | cons l ls ih =>
    obtain ⟨here, rest⟩ := met _ rfl
    obtain ⟨same, related⟩ := keep s m l start here
    simp only [outputs]
    rw [same, ih related rest]

theorem outputs_all {step : S → L → A × S} {cond : S → L → Prop} {inv : S → Prop} {good : A → Prop}
    (keep : ∀ s l, inv s → cond s l → inv (step s l).2 ∧ good (step s l).1)
    {s : S} {ls : List L} (start : inv s) (met : Meets (next step) cond s ls) :
    ∀ a ∈ outputs step s ls, good a := by
  induction ls generalizing s with
  | nil => exact fun a member => absurd member List.not_mem_nil
  | cons l ls ih =>
    obtain ⟨here, rest⟩ := met _ rfl
    obtain ⟨held, answer⟩ := keep s l start here
    intro a member
    rcases List.mem_cons.mp member with rfl | later
    · exact answer
    · exact ih held rest a later

end Simulations
