/-!
A growing array: its elements, and how many it has room for. One that is resized beyond its room
gets twice the room, or what was asked for where that is more. A write at an offset stays inside
the elements or is refused.
-/
structure GrowingVector (A : Type) where
  contents : List A
  capacity : Nat
  fits : contents.length ≤ capacity

namespace GrowingVector
variable {A : Type}

def filled (n : Nat) (a : A) : GrowingVector A :=
  ⟨List.replicate n a, n, Nat.le_of_eq List.length_replicate⟩

def size (v : GrowingVector A) : Nat := v.contents.length

def resize (v : GrowingVector A) (n : Nat) (a : A) : GrowingVector A where
  contents := v.contents.take n ++ List.replicate (n - v.size) a
  capacity := if n ≤ v.capacity then v.capacity else max (2 * v.capacity) n
  fits := by
    have before := v.fits
    simp only [List.length_append, List.length_take, List.length_replicate, size]
    split <;> omega

def writeAt (v : GrowingVector A) (offset : Nat) (items : List A) : Option (GrowingVector A) :=
  if inside : offset + items.length ≤ v.size then
    some ⟨v.contents.take offset ++ items ++ v.contents.drop (offset + items.length), v.capacity, by
      have before := v.fits
      simp only [size] at inside
      simp only [List.length_append, List.length_take, List.length_drop]
      omega⟩
  else none

@[simp] theorem size_filled (n : Nat) (a : A) : (filled n a).size = n := List.length_replicate

@[simp] theorem capacity_filled (n : Nat) (a : A) : (filled n a).capacity = n := rfl

@[simp] theorem size_resize (v : GrowingVector A) (n : Nat) (a : A) : (v.resize n a).size = n := by
  simp only [size, resize, List.length_append, List.length_take, List.length_replicate]
  omega

theorem resize_take (v : GrowingVector A) {n m : Nat} (a : A) (within : m ≤ v.size)
    (kept : m ≤ n) : (v.resize n a).contents.take m = v.contents.take m := by
  have long : m ≤ (v.contents.take n).length := by
    rw [List.length_take]
    exact Nat.le_min.mpr ⟨kept, within⟩
  rw [resize, List.take_append_of_le_length long, List.take_take, Nat.min_eq_left kept]

theorem writeAt_some {v v' : GrowingVector A} {offset : Nat} {items : List A}
    (written : v.writeAt offset items = some v') :
    v'.size = v.size ∧ v'.capacity = v.capacity ∧
      v'.contents.take (offset + items.length) = v.contents.take offset ++ items := by
  unfold writeAt at written
  split at written
  · rename_i inside
    obtain rfl := Option.some.inj written
    have before : (v.contents.take offset ++ items).length = offset + items.length := by
      simp only [size] at inside
      rw [List.length_append, List.length_take, Nat.min_eq_left (by omega)]
    refine ⟨?_, rfl, List.take_left' before⟩
    simp only [size] at inside ⊢
    rw [List.length_append, before, List.length_drop, Nat.add_sub_cancel' inside]
  · cases written

theorem writeAt_none_iff {v : GrowingVector A} {offset : Nat} {items : List A} :
    v.writeAt offset items = none ↔ v.size < offset + items.length := by
  unfold writeAt
  split
  · rename_i inside
    exact iff_of_false (fun none => by cases none) (Nat.not_lt.mpr inside)
  · rename_i outside
    exact iff_of_true rfl (Nat.lt_of_not_le outside)

end GrowingVector
