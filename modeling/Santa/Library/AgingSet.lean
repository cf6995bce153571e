import Mathlib.Data.Nat.Basic

/-!
A set in two generations. Entries go into the current generation; when a period
has passed since the last rotation, the next use makes the current generation
the previous one and drops the one before. How long an entry is held is counted
from the rotation in force when it was recorded, not from its own time.
-/
structure AgingSet (α : Type) where
  current : List α
  previous : List α
  lastRotation : Int
  deriving DecidableEq, Repr

namespace AgingSet
variable {α : Type}

def empty (now : Int) : AgingSet α := ⟨[], [], now⟩

def Due (s : AgingSet α) (period now : Int) : Prop := period ≤ now - s.lastRotation

instance (s : AgingSet α) (period now : Int) : Decidable (s.Due period now) :=
  inferInstanceAs (Decidable (period ≤ now - s.lastRotation))

def refresh (s : AgingSet α) (period now : Int) : AgingSet α :=
  if s.Due period now then ⟨[], s.current, now⟩ else s

def record (s : AgingSet α) (a : α) : AgingSet α := { s with current := a :: s.current }

def Holds (s : AgingSet α) (a : α) : Prop := a ∈ s.current ∨ a ∈ s.previous

instance [DecidableEq α] (s : AgingSet α) (a : α) : Decidable (s.Holds a) :=
  inferInstanceAs (Decidable (a ∈ s.current ∨ a ∈ s.previous))

theorem refresh_due {s : AgingSet α} {period now : Int} (due : s.Due period now) :
    s.refresh period now = ⟨[], s.current, now⟩ := by
  simp [refresh, due]

theorem refresh_early {s : AgingSet α} {period now : Int} (early : ¬ s.Due period now) :
    s.refresh period now = s := by
  simp [refresh, early]

theorem holds_record {s : AgingSet α} {a b : α} : (s.record a).Holds b ↔ b = a ∨ s.Holds b := by
  simp [Holds, record, or_assoc]

theorem holds_refresh {s : AgingSet α} {period now : Int} {a : α} :
    (s.refresh period now).Holds a ↔ a ∈ s.current ∨ (a ∈ s.previous ∧ ¬ s.Due period now) := by
  by_cases due : s.Due period now
  · simp [refresh_due due, Holds, due]
  · simp [refresh_early due, Holds, due]

def Apart (s : AgingSet α) : Prop := ∀ a ∈ s.previous, a ∉ s.current

theorem apart_refresh {s : AgingSet α} (apart : s.Apart) (period now : Int) :
    (s.refresh period now).Apart := by
  by_cases due : s.Due period now
  · rw [refresh_due due]
    intro a _
    simp
  · rw [refresh_early due]
    exact apart

theorem apart_record {s : AgingSet α} {a : α} (apart : s.Apart) (new : ¬ s.Holds a) :
    (s.record a).Apart := by
  intro b old
  simp only [record, List.mem_cons, not_or]
  refine ⟨?_, apart b old⟩
  intro same
  subst same
  exact new (Or.inr old)

/-- Each logged entry with the rotation in force when it was recorded: it is held for
    two periods from then on. -/
def Kept (period : Int) (s : AgingSet α) (log : List (α × Int)) : Prop :=
  ∀ e ∈ log, (e.1 ∈ s.current ∧ e.2 = s.lastRotation) ∨
    (e.1 ∈ s.previous ∧ e.2 + period ≤ s.lastRotation) ∨ e.2 + 2 * period ≤ s.lastRotation

theorem kept_refresh {period : Int} (now : Int) {s : AgingSet α} {log : List (α × Int)}
    (positive : 0 ≤ period) (kept : Kept period s log) :
    Kept period (s.refresh period now) log := by
  by_cases due : s.Due period now
  · rw [refresh_due due]
    unfold Due at due
    intro e logged
    rcases kept e logged with ⟨member, same⟩ | ⟨_, before⟩ | before
    · exact Or.inr (Or.inl ⟨member, by simp only; omega⟩)
    · exact Or.inr (Or.inr (by simp only; omega))
    · exact Or.inr (Or.inr (by simp only; omega))
  · rw [refresh_early due]
    exact kept

theorem kept_record {period : Int} {s : AgingSet α} {log : List (α × Int)} (a : α)
    (kept : Kept period s log) : Kept period (s.record a) ((a, s.lastRotation) :: log) := by
  intro e logged
  rcases List.mem_cons.mp logged with new | old
  · subst new
    exact Or.inl ⟨List.mem_cons_self .., rfl⟩
  · rcases kept e old with ⟨member, same⟩ | later
    · exact Or.inl ⟨List.mem_cons_of_mem a member, same⟩
    · exact Or.inr later

theorem kept_holds {period : Int} {s : AgingSet α} {log : List (α × Int)} {e : α × Int}
    (kept : Kept period s log) (logged : e ∈ log) (young : s.lastRotation < e.2 + 2 * period) :
    s.Holds e.1 := by
  rcases kept e logged with ⟨member, _⟩ | ⟨member, _⟩ | old
  · exact Or.inl member
  · exact Or.inr member
  · omega

end AgingSet
