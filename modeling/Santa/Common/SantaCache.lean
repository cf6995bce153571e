import Mathlib.Data.List.Perm.Subperm
import Santa.Library.KeyedRows

/-!
The hash table shared by several parts of the daemon. The value type has a zero,
and a key that is absent reads as zero; storing zero removes the key. A store
can be conditional on the value before it. A new key that would exceed the
maximum size empties the table first. The buckets are not modelled: an operation
holds the lock of its bucket, so it is one step here.
-/
structure SantaCache (K V : Type) [Inhabited V] where
  maxSize : Nat
  entries : KeyedRows K (K × V) Prod.fst
  nonzero : ∀ e ∈ entries.rows, e.2 ≠ default

namespace SantaCache
variable {K V : Type} [DecidableEq K] [Inhabited V]

def new (maxSize : Nat) : SantaCache K V := ⟨maxSize, .empty, by simp [KeyedRows.empty]⟩

def get (c : SantaCache K V) (key : K) : V := ((c.entries.get key).map Prod.snd).getD default

def count (c : SantaCache K V) : Nat := c.entries.rows.length

def clear (c : SantaCache K V) : SantaCache K V := new c.maxSize

def erase (c : SantaCache K V) (key : K) : SantaCache K V :=
  ⟨c.maxSize, c.entries.remove key, fun e member => c.nonzero e (KeyedRows.mem_remove member)⟩

def insert (c : SantaCache K V) (key : K) (value : V) (nonzero : value ≠ default) :
    SantaCache K V :=
  ⟨c.maxSize, c.entries.put (key, value), by
    intro e member
    rcases KeyedRows.mem_put member with new | old
    · rw [new]
      exact nonzero
    · exact c.nonzero e old⟩

def contains (c : SantaCache K V) (key : K) (containsBlock : V → Bool) : Bool :=
  (c.entries.get key).any fun e => containsBlock e.2

/-- An absent key is created first, and the block gets the zero. -/
def update (c : SantaCache K V) (key : K) (updateBlock : V → V)
    (nonzero : ∀ value, updateBlock value ≠ default) : SantaCache K V :=
  match c.entries.get key with
  | some (_, existingValue) =>
      c.insert key (updateBlock existingValue) (nonzero existingValue)
  | none =>
      if c.maxSize < c.count + 1 then c.clear.insert key (updateBlock default) (nonzero default)
      else c.insert key (updateBlock default) (nonzero default)

variable [DecidableEq V]

def set (c : SantaCache K V) (key : K) (value : V) (previousValue : Option V) :
    Bool × SantaCache K V :=
  match c.entries.get key with
  | some (_, existingValue) =>
      if previousValue.any (· ≠ existingValue) then (false, c)
      else if nonzero : value ≠ default then (true, c.insert key value nonzero)
      else (true, c.erase key)
  | none =>
      if nonzero : value ≠ default then
        if previousValue.any (· ≠ default) then (false, c)
        else if c.maxSize < c.count + 1 then (true, c.clear.insert key value nonzero)
        else (true, c.insert key value nonzero)
      else (false, c)

def remove (c : SantaCache K V) (key : K) : SantaCache K V := (c.set key default none).2

omit [DecidableEq V] in
@[simp] theorem get_clear (c : SantaCache K V) (key : K) : c.clear.get key = default := rfl

omit [DecidableEq V] in
theorem get_insert (c : SantaCache K V) (key key' : K) (value : V) (nonzero : value ≠ default) :
    (c.insert key value nonzero).get key' = if key' = key then value else c.get key' := by
  simp only [get, insert, KeyedRows.get_put]
  by_cases same : key' = key
  · simp [same]
  · simp [same]

omit [DecidableEq V] in
theorem get_erase (c : SantaCache K V) (key key' : K) :
    (c.erase key).get key' = if key' = key then default else c.get key' := by
  simp only [get, erase, KeyedRows.get_remove]
  by_cases same : key' = key
  · simp [same]
  · simp [same]

omit [DecidableEq V] in
theorem contains_eq {containsBlock : V → Bool} (absent : containsBlock default = false)
    (c : SantaCache K V) (key : K) :
    c.contains key containsBlock = containsBlock (c.get key) := by
  unfold contains get
  cases c.entries.get key with
  | some e => rfl
  | none => exact absent.symm

omit [DecidableEq V] in
theorem get_update_self (c : SantaCache K V) (key : K) {updateBlock : V → V}
    (nonzero : ∀ value, updateBlock value ≠ default) :
    (c.update key updateBlock nonzero).get key = updateBlock (c.get key) := by
  unfold update
  cases found : c.entries.get key with
  | some e =>
    have existing : c.get key = e.2 := by simp [get, found]
    simp only
    rw [get_insert, if_pos rfl, existing]
  | none =>
    have absent : c.get key = default := by simp [get, found]
    rw [absent]
    simp only
    split_ifs
    · rw [get_insert, if_pos rfl]
    · rw [get_insert, if_pos rfl]

omit [DecidableEq V] in
theorem get_update_other (c : SantaCache K V) {key key' : K} {updateBlock : V → V}
    (nonzero : ∀ value, updateBlock value ≠ default) (other : key' ≠ key) :
    (c.update key updateBlock nonzero).get key' = c.get key' ∨
      (c.maxSize < c.count + 1 ∧ (c.update key updateBlock nonzero).get key' = default) := by
  unfold update
  cases c.entries.get key with
  | some e => exact .inl (by rw [get_insert, if_neg other])
  | none =>
    simp only
    split_ifs with full
    · exact .inr ⟨full, by rw [get_insert, if_neg other, get_clear]⟩
    · exact .inl (by rw [get_insert, if_neg other])

theorem set_refused {c : SantaCache K V} {key : K} {value previous : V}
    (other : c.get key ≠ previous) : c.set key value (some previous) = (false, c) := by
  unfold set
  cases found : c.entries.get key with
  | some e =>
    have existing : c.get key = e.2 := by simp [get, found]
    rw [existing] at other
    simp [Ne.symm other]
  | none =>
    have absent : c.get key = default := by simp [get, found]
    rw [absent] at other
    simp [Ne.symm other]

theorem set_accepted {c : SantaCache K V} {key : K} {value previous : V} (nonzero : value ≠ default)
    (same : c.get key = previous) : (c.set key value (some previous)).1 = true := by
  unfold set
  cases found : c.entries.get key with
  | some e =>
    have existing : e.2 = previous := by simpa [get, found] using same
    simp [existing, nonzero]
  | none =>
    have absent : c.get key = default := by simp [get, found]
    rw [absent] at same
    subst same
    simp only [dif_pos nonzero, Option.any_some, ne_eq, not_true_eq_false, decide_false,
      Bool.false_eq_true, if_false]
    split_ifs <;> rfl

theorem get_set_self {c : SantaCache K V} {key : K} {value : V} {previous : Option V}
    (accepted : previous.all (· = c.get key)) : (c.set key value previous).2.get key = value := by
  unfold set
  cases found : c.entries.get key with
  | some e =>
    have existing : c.get key = e.2 := by simp [get, found]
    have pass : previous.any (· ≠ e.2) = false := by
      rw [existing] at accepted
      cases previous <;> simp_all
    simp only [pass, Bool.false_eq_true, if_false]
    split_ifs with nonzero
    · rw [get_insert, if_pos rfl]
    · rw [get_erase, if_pos rfl]
      exact (not_not.mp nonzero).symm
  | none =>
    have absent : c.get key = default := by simp [get, found]
    have pass : previous.any (· ≠ default) = false := by
      rw [absent] at accepted
      cases previous <;> simp_all
    simp only [pass, Bool.false_eq_true, if_false]
    split_ifs with nonzero full
    · rw [get_insert, if_pos rfl]
    · rw [get_insert, if_pos rfl]
    · rw [absent]
      exact (not_not.mp nonzero).symm

theorem get_set_other {c : SantaCache K V} {key key' : K} (value : V) (previous : Option V)
    (other : key' ≠ key) :
    (c.set key value previous).2.get key' = c.get key' ∨
      (c.maxSize < c.count + 1 ∧ (c.set key value previous).2.get key' = default) := by
  unfold set
  cases c.entries.get key with
  | some e =>
    simp only
    split_ifs
    · exact .inl rfl
    · exact .inl (by rw [get_insert, if_neg other])
    · exact .inl (by rw [get_erase, if_neg other])
  | none =>
    simp only
    split_ifs with nonzero refused full
    · exact .inl rfl
    · exact .inr ⟨full, by rw [get_insert, if_neg other, get_clear]⟩
    · exact .inl (by rw [get_insert, if_neg other])
    · exact .inl rfl

theorem get_remove (c : SantaCache K V) (key key' : K) :
    (c.remove key).get key' = if key' = key then default else c.get key' := by
  by_cases same : key' = key
  · rw [same, if_pos rfl]
    exact get_set_self rfl
  · rw [if_neg same, remove, set]
    cases c.entries.get key with
    | some e => simp [get_erase, same]
    | none => simp

omit [DecidableEq V] in
theorem mem_keys {c : SantaCache K V} {key : K} (present : c.get key ≠ default) :
    key ∈ c.entries.rows.map Prod.fst := by
  cases found : c.entries.get key with
  | some e => exact List.mem_map.mpr ⟨e, KeyedRows.get_mem found, KeyedRows.get_key found⟩
  | none =>
    rw [get, found] at present
    exact absurd rfl present

omit [DecidableEq V] in
theorem count_le {c : SantaCache K V} (keys : List K)
    (covers : ∀ key, c.get key ≠ default → key ∈ keys) : c.count ≤ keys.length := by
  have subset : c.entries.rows.map Prod.fst ⊆ keys := by
    intro key member
    obtain ⟨e, row, same⟩ := List.mem_map.mp member
    refine covers key ?_
    rw [get, ← same, KeyedRows.mem_get row]
    exact c.nonzero e row
  have bound := (List.Nodup.subperm c.entries.unique subset).length_le
  simpa [count] using bound

theorem maxSize_set (c : SantaCache K V) (key : K) (value : V) (previous : Option V) :
    (c.set key value previous).2.maxSize = c.maxSize := by
  unfold set
  cases c.entries.get key with
  | some e =>
    simp only
    split_ifs <;> rfl
  | none =>
    simp only
    split_ifs <;> rfl

end SantaCache
