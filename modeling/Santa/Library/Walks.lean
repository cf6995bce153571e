import Mathlib.Data.List.Basic
import Mathlib.Logic.Relation

/-!
Walks from place to place, each place with at most one that follows it. A walk ends unless it
comes to a circle; among finitely many places it ends within as many steps as there are.
-/
namespace Walks
variable {A B : Type}

def walk (step : A → A ⊕ B) : Nat → A → Option B
  | 0, _ => none
  | depth + 1, a =>
      match step a with
      | .inl next => walk step depth next
      | .inr result => some result

def Leads (step : A → A ⊕ B) (a b : A) : Prop := step a = .inl b

def Circles (step : A → A ⊕ B) (a : A) : Prop :=
  ∃ b, Relation.ReflTransGen (Leads step) a b ∧ Relation.TransGen (Leads step) b b

variable {step : A → A ⊕ B}

theorem leads_unique {a b c : A} (first : Leads step a b) (second : Leads step a c) : b = c :=
  Sum.inl.inj (first.symm.trans second)

theorem walk_leads {a b : A} (leads : Leads step a b) (depth : Nat) :
    walk step (depth + 1) a = walk step depth b := by
  rw [walk, leads]

theorem walk_done {a : A} {result : B} (done : step a = .inr result) (depth : Nat) :
    walk step (depth + 1) a = some result := by
  rw [walk, done]

theorem walk_more {depth more : Nat} {a : A} {result : B}
    (ends : walk step depth a = some result) (le : depth ≤ more) :
    walk step more a = some result := by
  induction depth generalizing a more with
  | zero => cases ends
  | succ depth ih =>
    obtain ⟨rest, rfl⟩ := Nat.exists_eq_add_of_lt le
    cases here : step a with
    | inl next =>
      rw [walk_leads here] at ends ⊢
      exact ih ends (by omega)
    | inr result =>
      rw [walk_done here] at ends ⊢
      exact ends

theorem walk_same {depth depth' : Nat} {a : A} {result result' : B}
    (ends : walk step depth a = some result) (ends' : walk step depth' a = some result') :
    result = result' := by
  have first := walk_more ends (Nat.le_max_left depth depth')
  have second := walk_more ends' (Nat.le_max_right depth depth')
  exact Option.some.inj (first.symm.trans second)

theorem walk_end {depth : Nat} {a : A} {result : B} (ends : walk step depth a = some result) :
    ∃ b, Relation.ReflTransGen (Leads step) a b ∧ step b = .inr result := by
  induction depth generalizing a with
  | zero => cases ends
  | succ depth ih =>
    cases here : step a with
    | inl next =>
      rw [walk_leads here] at ends
      obtain ⟨b, path, done⟩ := ih ends
      exact ⟨b, .head here path, done⟩
    | inr result =>
      rw [walk_done here] at ends
      cases ends
      exact ⟨a, .refl, here⟩

theorem circles_of_leads {a b : A} (leads : Leads step a b) (circles : Circles step a) :
    Circles step b := by
  obtain ⟨c, path, circle⟩ := circles
  rcases Relation.ReflTransGen.cases_head path with same | ⟨next, first, rest⟩
  · subst same
    obtain ⟨next, first, rest⟩ := Relation.TransGen.head'_iff.mp circle
    rw [leads_unique leads first]
    exact ⟨a, rest, circle⟩
  · rw [leads_unique leads first]
    exact ⟨c, rest, circle⟩

theorem not_circles {depth : Nat} {a : A} {result : B}
    (ends : walk step depth a = some result) : ¬ Circles step a := by
  induction depth generalizing a with
  | zero => cases ends
  | succ depth ih =>
    cases here : step a with
    | inl next =>
      rw [walk_leads here] at ends
      exact fun circles => ih ends (circles_of_leads here circles)
    | inr result =>
      rintro ⟨b, path, circle⟩
      have nowhere : ∀ c, ¬ Leads step a c := fun c leads => by
        cases here.symm.trans leads
      rcases Relation.ReflTransGen.cases_head path with same | ⟨next, first, _⟩
      · subst same
        obtain ⟨next, first, _⟩ := Relation.TransGen.head'_iff.mp circle
        exact nowhere next first
      · exact nowhere next first

theorem walk_within (count : Nat) : ∀ (left : List A), left.length = count → ∀ a,
    (∀ b, Relation.TransGen (Leads step) a b → b ∈ left) → ¬ Circles step a →
      ∃ result, walk step (count + 1) a = some result := by
  classical
  induction count with
  | zero =>
    intro left none a inside _
    cases here : step a with
    | inl next =>
      have member := inside next (.single here)
      rw [List.eq_nil_of_length_eq_zero none] at member
      cases member
    | inr result => exact ⟨result, walk_done here 0⟩
  | succ count ih =>
    intro left few a inside straight
    cases here : step a with
    | inl next =>
      have member := inside next (.single here)
      have straight' : ¬ Circles step next := fun ⟨b, path, circle⟩ =>
        straight ⟨b, .head here path, circle⟩
      obtain ⟨result, ends⟩ := ih (left.erase next)
        (by rw [List.length_erase_of_mem member, few]; rfl) next
        (fun b path => by
          have other : b ≠ next := fun same => straight' ⟨next, .refl, same ▸ path⟩
          exact (List.mem_erase_of_ne other).mpr (inside b (.head here path))) straight'
      exact ⟨result, (walk_leads here _).trans ends⟩
    | inr result => exact ⟨result, walk_done here _⟩

section places
variable {places : List A} (inside : ∀ a b, Leads step a b → b ∈ places)
include inside

theorem reached_inside {a b : A} (path : Relation.TransGen (Leads step) a b) : b ∈ places := by
  obtain ⟨c, _, last⟩ := Relation.TransGen.tail'_iff.mp path
  exact inside c b last

theorem walk_ends_iff (a : A) :
    (∃ depth, (walk step depth a).isSome) ↔ ¬ Circles step a := by
  constructor
  · rintro ⟨depth, ends⟩
    obtain ⟨result, ends⟩ := Option.isSome_iff_exists.mp ends
    exact not_circles ends
  · intro straight
    obtain ⟨result, ends⟩ :=
      walk_within places.length places rfl a (fun b => reached_inside inside) straight
    exact ⟨places.length + 1, Option.isSome_iff_exists.mpr ⟨result, ends⟩⟩

theorem walk_settled {depth : Nat} {a : A} {result : B}
    (ends : walk step depth a = some result) : walk step (places.length + 1) a = some result := by
  obtain ⟨result', ends'⟩ :=
    walk_within places.length places rfl a (fun b => reached_inside inside) (not_circles ends)
  rw [walk_same ends ends']
  exact ends'

end places
end Walks
