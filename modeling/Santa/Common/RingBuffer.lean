import Mathlib.Data.Nat.Basic

/-!
The fixed-capacity queue of pending notifications. A full buffer gives up its
front to make room; a buffer of capacity zero cannot be built (the constructor
aborts).
-/
structure RingBuffer (α : Type) where
  capacity : Nat
  buffer : List α
  positive : 0 < capacity
  bounded : buffer.length ≤ capacity

namespace RingBuffer
variable {α : Type}

def new (capacity : Nat) (positive : 0 < capacity) : RingBuffer α :=
  ⟨capacity, [], positive, Nat.zero_le _⟩

def full (r : RingBuffer α) : Bool := r.buffer.length = r.capacity

/-- The value removed to make room, if any, and the buffer with `val` at the back. -/
def enqueue (r : RingBuffer α) (val : α) : Option α × RingBuffer α :=
  if full : r.buffer.length = r.capacity then
    (r.buffer.head?, ⟨r.capacity, r.buffer.tail ++ [val], r.positive, by
      have := r.positive
      simp only [List.length_append, List.length_tail, List.length_singleton]
      omega⟩)
  else
    (none, ⟨r.capacity, r.buffer ++ [val], r.positive, by
      have := r.bounded
      simp only [List.length_append, List.length_singleton]
      omega⟩)

def clear (r : RingBuffer α) : RingBuffer α := ⟨r.capacity, [], r.positive, Nat.zero_le _⟩

def eraseIf (r : RingBuffer α) (p : α → Bool) : RingBuffer α :=
  ⟨r.capacity, r.buffer.filter fun a => !p a, r.positive,
    Nat.le_trans (List.length_filter_le _ _) r.bounded⟩

theorem enqueue_cases (r : RingBuffer α) (val : α) :
    ((r.enqueue val).1 = none ∧ (r.enqueue val).2.buffer = r.buffer ++ [val]) ∨
    ∃ front rest, r.buffer = front :: rest ∧ (r.enqueue val).1 = some front ∧
      (r.enqueue val).2.buffer = rest ++ [val] := by
  by_cases full : r.buffer.length = r.capacity
  · right
    have positive := r.positive
    cases h : r.buffer with
    | nil =>
      simp only [h, List.length_nil] at full
      omega
    | cons front rest =>
      have size : rest.length + 1 = r.capacity := by simpa [h] using full
      refine ⟨front, rest, rfl, ?_, ?_⟩
      · simp [enqueue, h, size]
      · simp [enqueue, h, size]
  · left
    simp [enqueue, full]

end RingBuffer
