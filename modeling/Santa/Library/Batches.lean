import Mathlib.Data.List.Basic

/-!
Cutting a list into batches. Some elements count and some do not; a batch is
full with the element that brings it to its size, and the end of the list ends
the last one.
-/
namespace Batches
variable {α : Type}

def cut (counts : α → Bool) (size : Nat) : List α → List α → List (List α)
  | _, [] => []
  | batch, x :: xs =>
      if size ≤ (batch ++ [x]).countP counts ∨ xs = [] then (batch ++ [x]) :: cut counts size [] xs
      else cut counts size (batch ++ [x]) xs

section
variable {counts : α → Bool} {size : Nat} {batch : List α} {x : α} {xs : List α}

theorem cut_full (full : size ≤ (batch ++ [x]).countP counts ∨ xs = []) :
    cut counts size batch (x :: xs) = (batch ++ [x]) :: cut counts size [] xs :=
  if_pos full

theorem cut_more (more : ¬ (size ≤ (batch ++ [x]).countP counts ∨ xs = [])) :
    cut counts size batch (x :: xs) = cut counts size (batch ++ [x]) xs :=
  if_neg more

theorem flatten_cut (batch : List α) (ne : xs ≠ []) :
    (cut counts size batch xs).flatten = batch ++ xs := by
  induction xs generalizing batch with
  | nil => exact absurd rfl ne
  | cons x xs ih =>
    by_cases full : size ≤ (batch ++ [x]).countP counts ∨ xs = []
    · rw [cut_full full, List.flatten_cons]
      by_cases last : xs = []
      · subst last
        exact List.append_nil (batch ++ [x])
      · rw [ih [] last, List.nil_append, List.append_assoc, List.singleton_append]
    · rw [cut_more full, ih (batch ++ [x]) fun last => full (.inr last), List.append_assoc,
        List.singleton_append]

theorem flatten_cut_nil (xs : List α) : (cut counts size [] xs).flatten = xs := by
  cases xs with
  | nil => rfl
  | cons x xs => exact flatten_cut [] (List.cons_ne_nil x xs)

theorem countP_concat_le (room : batch.countP counts < size) :
    (batch ++ [x]).countP counts ≤ size := by
  rw [List.countP_append]
  have one : [x].countP counts ≤ 1 := List.countP_le_length
  omega

theorem countP_le_of_mem_cut (positive : 1 ≤ size) (room : batch.countP counts < size) :
    ∀ b ∈ cut counts size batch xs, b.countP counts ≤ size := by
  induction xs generalizing batch with
  | nil => exact fun b member => nomatch member
  | cons x xs ih =>
    intro b member
    by_cases full : size ≤ (batch ++ [x]).countP counts ∨ xs = []
    · rw [cut_full full] at member
      rcases List.mem_cons.mp member with rfl | later
      · exact countP_concat_le room
      · exact @ih [] positive b later
    · rw [cut_more full] at member
      apply @ih (batch ++ [x]) _ b member
      rw [not_or] at full
      omega

end
end Batches
