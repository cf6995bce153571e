import Mathlib.Data.Finset.Basic
import Mathlib.Data.Finset.SDiff

/-!
Finite sets that follow another one by its changes. A follower that has been emptied
on the way is behind, but within the set; it has caught up once the set itself has
been empty.
-/
namespace Deltas
variable {P : Type} [DecidableEq P]

structure Delta (P : Type) where
  added : Finset P
  removed : Finset P

def Delta.between (old new : Finset P) : Delta P := ⟨new \ old, old \ new⟩

def Delta.apply (d : Delta P) (s : Finset P) : Finset P := (s \ d.removed) ∪ d.added

def replay (ds : List (Delta P)) (s : Finset P) : Finset P := ds.foldl (fun s d => d.apply s) s

@[simp] theorem apply_between (old new : Finset P) : (Delta.between old new).apply old = new := by
  ext p
  simp only [Delta.between, Delta.apply, Finset.mem_union, Finset.mem_sdiff]
  by_cases before : p ∈ old <;> by_cases after : p ∈ new <;> simp [before, after]

theorem apply_mono (d : Delta P) {s t : Finset P} (sub : s ⊆ t) : d.apply s ⊆ d.apply t :=
  Finset.union_subset_union_left (Finset.sdiff_subset_sdiff sub (Finset.Subset.refl _))

theorem replay_concat (ds : List (Delta P)) (d : Delta P) (s : Finset P) :
    replay (ds ++ [d]) s = d.apply (replay ds s) := List.foldl_concat ..

/-- The follower is at the base of the deltas still to come, or within it while the base comes by
    the empty set. -/
def CatchesUp (follower base : Finset P) (ds : List (Delta P)) : Prop :=
  follower ⊆ base ∧ (follower = base ∨ ∃ first rest, ds = first ++ rest ∧ replay first base = ∅)

theorem catchesUp_self (base : Finset P) (ds : List (Delta P)) : CatchesUp base base ds :=
  ⟨Finset.Subset.refl base, .inl rfl⟩

theorem catchesUp_empty {base : Finset P} {ds : List (Delta P)} (ends : replay ds base = ∅) :
    CatchesUp ∅ base ds :=
  ⟨Finset.empty_subset base, .inr ⟨ds, [], (List.append_nil ds).symm, ends⟩⟩

theorem CatchesUp.concat {follower base : Finset P} {ds : List (Delta P)}
    (behind : CatchesUp follower base ds) (d : Delta P) : CatchesUp follower base (ds ++ [d]) := by
  obtain ⟨within, same | ⟨first, rest, split, empty⟩⟩ := behind
  · exact ⟨within, .inl same⟩
  · exact ⟨within, .inr ⟨first, rest ++ [d], by rw [split, List.append_assoc], empty⟩⟩

theorem CatchesUp.apply {follower base : Finset P} {d : Delta P} {ds : List (Delta P)}
    (behind : CatchesUp follower base (d :: ds)) :
    CatchesUp (d.apply follower) (d.apply base) ds := by
  obtain ⟨within, same | ⟨first, rest, split, empty⟩⟩ := behind
  · rw [same]
    exact catchesUp_self _ ds
  · cases first with
    | nil =>
      -- The base is empty, and so is the follower.
      obtain rfl : base = ∅ := empty
      rw [Finset.subset_empty.mp within]
      exact catchesUp_self _ ds
    | cons e first =>
      obtain ⟨rfl, tail⟩ := List.cons.inj split
      exact ⟨apply_mono d within, .inr ⟨first, rest, tail, empty⟩⟩

theorem CatchesUp.done {follower base : Finset P} (behind : CatchesUp follower base []) :
    follower = base := by
  obtain ⟨within, same | ⟨first, rest, split, empty⟩⟩ := behind
  · exact same
  · obtain rfl := (List.append_eq_nil_iff.mp split.symm).1
    obtain rfl : base = ∅ := empty
    exact Finset.subset_empty.mp within

end Deltas
