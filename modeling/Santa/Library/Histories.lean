import Mathlib.Data.List.Basic

/-!
Histories whose every element is allowed by the elements before it.
-/
namespace Histories
variable {A : Type}

def Lawful (allowed : List A → A → Prop) (history : List A) : Prop :=
  ∀ before a after, history = before ++ a :: after → allowed before a

theorem lawful_nil (allowed : List A → A → Prop) : Lawful allowed [] := by
  intro before a after same
  exact absurd same (by simp)

theorem lawful_concat_iff {allowed : List A → A → Prop} {history : List A} {a : A} :
    Lawful allowed (history ++ [a]) ↔ Lawful allowed history ∧ allowed history a := by
  constructor
  · intro lawful
    constructor
    · intro before b after same
      exact lawful before b (after ++ [a]) (by rw [same, List.append_assoc]; rfl)
    · exact lawful history a [] rfl
  · rintro ⟨lawful, last⟩ before b after same
    rcases List.eq_nil_or_concat' after with empty | ⟨front, c, shape⟩
    · subst empty
      obtain ⟨rfl, only⟩ := List.append_inj' same rfl
      obtain rfl := List.cons.inj only |>.1
      exact last
    · rw [shape, ← List.cons_append, ← List.append_assoc] at same
      exact lawful before b front (List.append_inj' same rfl).1

theorem Lawful.append {allowed : List A → A → Prop} {history : List A}
    (lawful : Lawful allowed history) {more : List A} (short : more.length ≤ 1)
    (next : ∀ a ∈ more, allowed history a) : Lawful allowed (history ++ more) := by
  match more, short with
  | [], _ =>
    rw [List.append_nil]
    exact lawful
  | [a], _ => exact lawful_concat_iff.mpr ⟨lawful, next a List.mem_cons_self⟩

def Occurs (a : A) (after : List A → Prop) (history : List A) : Prop :=
  ∃ before rest, history = before ++ a :: rest ∧ after before

theorem occurs_iff_not_lawful {a : A} {after : List A → Prop} {history : List A} :
    Occurs a after history ↔ ¬ Lawful (fun before b => ¬ (b = a ∧ after before)) history := by
  constructor
  · rintro ⟨before, rest, same, holds⟩ lawful
    exact lawful before a rest same ⟨rfl, holds⟩
  · intro unlawful
    simp only [Lawful, not_forall, not_not] at unlawful
    obtain ⟨before, b, rest, same, rfl, holds⟩ := unlawful
    exact ⟨before, rest, same, holds⟩

theorem occurs_concat_iff {a b : A} {after : List A → Prop} {history : List A} :
    Occurs a after (history ++ [b]) ↔ Occurs a after history ∨ (b = a ∧ after history) := by
  rw [occurs_iff_not_lawful, lawful_concat_iff, occurs_iff_not_lawful, not_and_or, not_not]

end Histories
