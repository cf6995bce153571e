import Mathlib.Order.Lattice

/-!
A window of fixed length over a linear order, kept sorted in place. A new entry
goes right after the last one below it; the entries in front of that place move
down by one, so that exactly the oldest entry is lost. Nothing here assumes that
entries are distinct.
-/
namespace RecentWindow

def slide (w : List α) (i : Nat) (a : α) : List α :=
  (w.drop 1).take i ++ a :: w.drop (i + 1)

theorem slide_cons (x : α) (xs : List α) (i : Nat) (a : α) :
    slide (x :: xs) i a = xs.take i ++ a :: xs.drop i := by
  simp [slide]

theorem slide_length {w : List α} {i : Nat} (inside : i < w.length) (a : α) :
    (slide w i a).length = w.length := by
  simp only [slide, List.length_append, List.length_take, List.length_drop, List.length_cons]
  omega

theorem mem_slide_iff {w : List α} {i : Nat} {a y : α} :
    y ∈ slide w i a ↔ y = a ∨ y ∈ w.tail := by
  cases w with
  | nil => simp [slide]
  | cons x xs =>
    rw [slide_cons, List.mem_append, List.mem_cons, List.tail_cons]
    have split : y ∈ xs ↔ y ∈ xs.take i ∨ y ∈ xs.drop i := by
      rw [← List.mem_append, List.take_append_drop]
    rw [split]
    constructor
    · rintro (front | same | back)
      · exact Or.inr (Or.inl front)
      · exact Or.inl same
      · exact Or.inr (Or.inr back)
    · rintro (same | front | back)
      · exact Or.inr (Or.inl same)
      · exact Or.inl front
      · exact Or.inr (Or.inr back)

variable {α : Type} [LinearOrder α]

def lastBelow : List α → α → Option Nat
  | [], _ => none
  | x :: xs, a =>
      match lastBelow xs a with
      | some i => some (i + 1)
      | none => if x < a then some 0 else none

theorem lastBelow_none_iff (w : List α) (a : α) :
    lastBelow w a = none ↔ ∀ x ∈ w, a ≤ x := by
  induction w with
  | nil => simp [lastBelow]
  | cons x xs ih =>
    simp only [lastBelow, List.mem_cons, forall_eq_or_imp]
    cases h : lastBelow xs a with
    | some i =>
      have some_below : ¬ ∀ y ∈ xs, a ≤ y := by
        intro all
        rw [h] at ih
        exact absurd (ih.mpr all) (by simp)
      simp [some_below]
    | none =>
      have above := ih.mp h
      by_cases lt : x < a
      · simp [lt, not_le.mpr lt]
      · simpa [lt, not_lt.mp lt] using above

theorem lastBelow_some {w : List α} {a : α} {i : Nat} (h : lastBelow w a = some i) :
    i < w.length ∧ (∃ x, w[i]? = some x ∧ x < a) ∧ ∀ x ∈ w.drop (i + 1), a ≤ x := by
  induction w generalizing i with
  | nil => simp [lastBelow] at h
  | cons x xs ih =>
    simp only [lastBelow] at h
    cases later : lastBelow xs a with
    | some j =>
      simp only [later, Option.some.injEq] at h
      subst i
      obtain ⟨bound, entry, above⟩ := ih later
      refine ⟨by simp only [List.length_cons]; omega, ?_, ?_⟩
      · simpa using entry
      · simpa using above
    | none =>
      simp only [later] at h
      split at h
      · rename_i lt
        simp only [Option.some.injEq] at h
        subst i
        exact ⟨by simp, ⟨x, by simp, lt⟩, by simpa using (lastBelow_none_iff xs a).mp later⟩
      · simp at h

theorem sorted_take_below {w : List α} {a : α} {i : Nat} (sorted : w.Pairwise (· ≤ ·))
    (entry : ∃ x, w[i]? = some x ∧ x < a) : ∀ y ∈ w.take (i + 1), y < a := by
  obtain ⟨x, at_i, below⟩ := entry
  intro y member
  obtain ⟨j, hj, eq⟩ := List.mem_take_iff_getElem.mp member
  have hi := List.getElem?_eq_some_iff.mp at_i
  obtain ⟨bound, value⟩ := hi
  have order : w[j] ≤ w[i] := by
    rcases Nat.lt_or_ge j i with less | same
    · exact List.pairwise_iff_getElem.mp sorted j i _ _ less
    · have : j = i := by omega
      subst j
      exact le_refl _
  rw [← eq]
  exact lt_of_le_of_lt (by rw [← value]; exact order) below

theorem slide_sorted {w : List α} {a : α} {i : Nat} (sorted : w.Pairwise (· ≤ ·))
    (found : lastBelow w a = some i) : (slide w i a).Pairwise (· ≤ ·) := by
  obtain ⟨bound, entry, above⟩ := lastBelow_some found
  have below := sorted_take_below sorted entry
  cases w with
  | nil => simp at bound
  | cons x xs =>
    rw [slide_cons]
    have tail := (List.pairwise_cons.mp sorted).2
    simp only [List.drop_succ_cons] at above
    simp only [List.take_succ_cons, List.mem_cons, forall_eq_or_imp] at below
    refine List.pairwise_append.mpr ⟨tail.sublist (List.take_sublist i xs), ?_, ?_⟩
    · exact List.pairwise_cons.mpr ⟨above, tail.sublist (List.drop_sublist i xs)⟩
    · intro y hy z hz
      rcases List.mem_cons.mp hz with same | later
      · subst z
        exact le_of_lt (below.2 y hy)
      · exact le_trans (le_of_lt (below.2 y hy)) (above z later)

theorem slide_lower_bound {w : List α} {a : α} {i : Nat} {x : α}
    (sorted : (x :: w).Pairwise (· ≤ ·)) (found : lastBelow (x :: w) a = some i) :
    ∀ y ∈ slide (x :: w) i a, x ≤ y := by
  have below := sorted_take_below sorted (lastBelow_some found).2.1
  intro y member
  rcases mem_slide_iff.mp member with same | old
  · subst y
    exact le_of_lt (below x (by simp))
  · exact (List.pairwise_cons.mp sorted).1 y old

theorem slide_keeps_or_outdates {w : List α} {a : α} {i : Nat} (sorted : w.Pairwise (· ≤ ·))
    (found : lastBelow w a = some i) {y : α} (member : y ∈ w) :
    y ∈ slide w i a ∨ ∀ z ∈ slide w i a, y < z := by
  cases w with
  | nil => simp at member
  | cons x xs =>
    by_cases stays : y ∈ slide (x :: xs) i a
    · exact Or.inl stays
    · right
      have oldest : y = x := by
        rcases List.mem_cons.mp member with same | later
        · exact same
        · exact absurd (mem_slide_iff.mpr (Or.inr later)) stays
      subst y
      intro z hz
      have le := slide_lower_bound sorted found z hz
      exact lt_of_le_of_ne le (by rintro rfl; exact stays hz)

end RecentWindow
