import Mathlib.Data.List.Nodup

/-!
Archives with keys. An object is a value, an array, or an object of a class with its
fields under keys; a dictionary is such an object too. Encoding leaves out a key whose
value is nil. Decoding names the classes it allows for a key: a collection passes them
on to what it holds, every other object chooses those of its own keys. A class that is
not allowed fails the decoding as a whole; a key that is not there reads as nil.
-/
inductive Archived (Class Value : Type) where
  | value (v : Value)
  | array (items : List (Archived Class Value))
  | object (kind : Class) (fields : List (String × Archived Class Value))

namespace Archived
variable {Class Value α : Type}

section Equality
variable [DecidableEq Class] [DecidableEq Value]

mutual

def decEq : (a b : Archived Class Value) → Decidable (a = b)
  | .value v, .value w => decidable_of_iff (v = w) (by simp)
  | .array xs, .array ys =>
      letI := decEqItems xs ys
      decidable_of_iff (xs = ys) (by simp)
  | .object c fs, .object d gs =>
      letI := decEqFields fs gs
      decidable_of_iff (c = d ∧ fs = gs) (by simp)
  | .value _, .array _ => isFalse (by intro e; cases e)
  | .value _, .object _ _ => isFalse (by intro e; cases e)
  | .array _, .value _ => isFalse (by intro e; cases e)
  | .array _, .object _ _ => isFalse (by intro e; cases e)
  | .object _ _, .value _ => isFalse (by intro e; cases e)
  | .object _ _, .array _ => isFalse (by intro e; cases e)

def decEqItems : (xs ys : List (Archived Class Value)) → Decidable (xs = ys)
  | [], [] => isTrue rfl
  | [], _ :: _ => isFalse (by intro e; cases e)
  | _ :: _, [] => isFalse (by intro e; cases e)
  | x :: xs, y :: ys =>
      letI := decEq x y
      letI := decEqItems xs ys
      decidable_of_iff (x = y ∧ xs = ys) (by simp)

def decEqFields : (fs gs : List (String × Archived Class Value)) → Decidable (fs = gs)
  | [], [] => isTrue rfl
  | [], _ :: _ => isFalse (by intro e; cases e)
  | _ :: _, [] => isFalse (by intro e; cases e)
  | (k, x) :: fs, (l, y) :: gs =>
      letI := decEq x y
      letI := decEqFields fs gs
      decidable_of_iff (k = l ∧ x = y ∧ fs = gs) (by simp [and_assoc])

end

instance : DecidableEq (Archived Class Value) := decEq

end Equality

section Permission
variable [DecidableEq Class] (kindOf : Value → Class) (array dictionary : Class)
  (allowed : Class → Bool)

mutual

def permitted : Archived Class Value → Bool
  | .value v => allowed (kindOf v)
  | .array items => allowed array && permittedItems items
  | .object kind fields => allowed kind && (decide (kind ≠ dictionary) || permittedFields fields)

def permittedItems : List (Archived Class Value) → Bool
  | [] => true
  | item :: items => permitted item && permittedItems items

def permittedFields : List (String × Archived Class Value) → Bool
  | [] => true
  | (_, item) :: fields => permitted item && permittedFields fields

end

end Permission

/-! ### Keys -/

def encoded (fields : List (String × Option (Archived Class Value))) :
    List (String × Archived Class Value) :=
  fields.filterMap fun f => f.2.map (f.1, ·)

@[simp] theorem encoded_none (key : String)
    (fields : List (String × Option (Archived Class Value))) :
    encoded ((key, none) :: fields) = encoded fields := rfl

@[simp] theorem encoded_some (key : String) (o : Archived Class Value)
    (fields : List (String × Option (Archived Class Value))) :
    encoded ((key, some o) :: fields) = (key, o) :: encoded fields := rfl

theorem lookup_encoded {fields : List (String × Option (Archived Class Value))}
    (distinct : (fields.map Prod.fst).Nodup) (key : String) :
    (encoded fields).lookup key = (fields.lookup key).join := by
  induction fields with
  | nil => rfl
  | cons f fields ih =>
    obtain ⟨k, o⟩ := f
    rw [List.map_cons, List.nodup_cons] at distinct
    obtain ⟨new, distinct⟩ := distinct
    by_cases same : key = k
    · subst k
      cases o with
      | some o => simp
      | none =>
        have absent : fields.lookup key = none := by
          rw [List.lookup_eq_none_iff]
          intro f member
          have other : key ≠ f.1 := fun same => new (List.mem_map.mpr ⟨f, member, same.symm⟩)
          simpa using other
        rw [encoded_none, ih distinct, absent, List.lookup_cons_self]
        rfl
    · have other : (key == k) = false := by simpa using same
      cases o with
      | some o =>
        rw [encoded_some, List.lookup_cons, List.lookup_cons, other]
        exact ih distinct
      | none =>
        rw [encoded_none, List.lookup_cons, other]
        exact ih distinct

def decoded (read : Archived Class Value → Option α) :
    Option (Archived Class Value) → Option (Option α)
  | none => some none
  | some o => (read o).map some

theorem decoded_map {read : Archived Class Value → Option α}
    {write : α → Archived Class Value} {x : Option α}
    (reads : ∀ v ∈ x, read (write v) = some v) : decoded read (x.map write) = some x := by
  cases x with
  | none => rfl
  | some v =>
    rw [Option.map_some, decoded, reads v rfl]
    rfl

end Archived
