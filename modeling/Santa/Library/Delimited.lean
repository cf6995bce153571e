import Mathlib.Data.List.Basic

/-!
Words that end with a delimiter, one after the other, and their splitting at the first
delimiter from a position on.
-/
namespace Delimited
variable {α : Type}

def terminated (x : α) (words : List (List α)) : List α := words.flatMap (· ++ [x])

theorem terminated_cons (x : α) (w : List α) (words : List (List α)) :
    terminated x (w :: words) = w ++ x :: terminated x words := by
  simp [terminated]

theorem terminated_append (x : α) (words more : List (List α)) :
    terminated x (words ++ more) = terminated x words ++ terminated x more :=
  List.flatMap_append

theorem terminated_replicate (x : α) (n : Nat) :
    terminated x (List.replicate n []) = List.replicate n x := by
  induction n with
  | zero => rfl
  | succ n ih => rw [List.replicate_succ, terminated_cons, ih]; rfl

theorem drop_findIdx {p : α → Bool} {l : List α} {n : Nat} (first : l.findIdx? p = some n) :
    l.drop n = l.dropWhile fun a => !p a := by
  induction l generalizing n with
  | nil => cases first
  | cons a l ih =>
    rw [List.findIdx?_cons] at first
    by_cases here : p a
    · rw [if_pos here] at first
      cases first
      simp [here]
    · rw [if_neg here] at first
      obtain ⟨m, later, rfl⟩ := Option.map_eq_some_iff.mp first
      simpa [here] using ih later

variable [BEq α] [LawfulBEq α]

theorem splitOn_terminated {x : α} {words : List (List α)} (free : ∀ w ∈ words, x ∉ w) :
    (terminated x words).splitOn x = words ++ [[]] := by
  induction words with
  | nil => exact List.splitOn_nil x
  | cons w words ih =>
    rw [terminated_cons, List.splitOn_append_cons_self_of_not_mem (free w List.mem_cons_self),
      ih fun v member => free v (List.mem_cons_of_mem w member)]
    rfl

theorem dropWhile_terminated {x : α} {words : List (List α)} (free : ∀ w ∈ words, x ∉ w) :
    (terminated x words).dropWhile (· == x) = terminated x (words.dropWhile List.isEmpty) := by
  induction words with
  | nil => rfl
  | cons w words ih =>
    have ih := ih fun v member => free v (List.mem_cons_of_mem w member)
    rw [terminated_cons]
    cases w with
    | nil => simpa using ih
    | cons c w =>
      have other : c ≠ x := fun same => free (c :: w) List.mem_cons_self (by simp [same])
      simp [other, terminated_cons]

theorem splitOn_some {x : α} {l : List α} {n : Nat} (first : l.findIdx? (· == x) = some n) :
    l.splitOn x = l.take n :: (l.drop (n + 1)).splitOn x := by
  obtain ⟨less, found, before⟩ := List.findIdx?_eq_some_iff_getElem.mp first
  have free : x ∉ l.take n := by
    intro member
    obtain ⟨i, below, same⟩ := List.mem_take_iff_getElem.mp member
    exact before i (by omega) (beq_iff_eq.mpr same)
  have cut : l = l.take n ++ x :: l.drop (n + 1) := by
    rw [← eq_of_beq found, ← List.drop_eq_getElem_cons, List.take_append_drop]
  conv_lhs => rw [cut]
  exact List.splitOn_append_cons_self_of_not_mem free _

theorem splitOn_none {x : α} {l : List α} (nowhere : l.findIdx? (· == x) = none) :
    l.splitOn x = [l] := by
  refine List.splitOn_eq_singleton fun member => ?_
  have other := List.findIdx?_eq_none_iff.mp nowhere x member
  simp at other

end Delimited
