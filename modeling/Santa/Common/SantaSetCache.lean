import Santa.Common.SantaCache

/-!
A cache from keys to sets of values, both of bounded size. A new key that would
exceed the capacity clears the whole cache, and a new value that would exceed
the capacity of its set clears the set first; so a set holds one value even
where its capacity is zero.
-/
structure ValueSet (V : Type) (perEntryCapacity : Nat) where
  values : List V
  unique : values.Nodup
  bounded : values.length ≤ max 1 perEntryCapacity
  deriving DecidableEq

structure SantaSetCache (K V : Type) (perEntryCapacity : Nat) where
  cache : SantaCache K (Option (ValueSet V perEntryCapacity))

namespace ValueSet
variable {V : Type} {perEntryCapacity : Nat} [DecidableEq V]

def empty : ValueSet V perEntryCapacity := ⟨[], List.nodup_nil, by simp⟩

def insert (set : ValueSet V perEntryCapacity) (val : V) : Bool × ValueSet V perEntryCapacity :=
  if present : val ∈ set.values then (false, set)
  else if full : perEntryCapacity ≤ set.values.length then
    (true, ⟨[val], List.nodup_singleton val, Nat.le_max_left 1 perEntryCapacity⟩)
  else
    (true, ⟨val :: set.values, List.nodup_cons.mpr ⟨present, set.unique⟩, by
      rw [List.length_cons]
      omega⟩)

theorem insert_values (set : ValueSet V perEntryCapacity) (val : V) :
    (set.insert val).2.values =
      if val ∈ set.values then set.values
      else if perEntryCapacity ≤ set.values.length then [val]
      else val :: set.values := by
  unfold insert
  split_ifs <;> rfl

theorem insert_fresh (set : ValueSet V perEntryCapacity) (val : V) :
    (set.insert val).1 = true ↔ val ∉ set.values := by
  unfold insert
  split_ifs with present <;> simp [present]

theorem mem_insert_self (set : ValueSet V perEntryCapacity) (val : V) :
    val ∈ (set.insert val).2.values := by
  rw [insert_values]
  split_ifs with present
  · exact present
  · exact List.mem_singleton_self val
  · exact List.mem_cons_self

end ValueSet

namespace SantaSetCache
variable {K V : Type} {perEntryCapacity : Nat} [DecidableEq K] [DecidableEq V]

def new (capacity : Nat) : SantaSetCache K V perEntryCapacity := ⟨.new capacity⟩

omit [DecidableEq V] in
/-- The values at a key; the null set has none. -/
def values (c : SantaSetCache K V perEntryCapacity) (key : K) : List V :=
  ((c.cache.get key).getD .empty).values

def contains (c : SantaSetCache K V perEntryCapacity) (key : K) (val : V) : Bool :=
  c.cache.contains key fun set => set.any fun set => decide (val ∈ set.values)

def setValue (val : V) (set : Option (ValueSet V perEntryCapacity)) :
    Option (ValueSet V perEntryCapacity) :=
  some ((set.getD .empty).insert val).2

theorem setValue_nonzero (val : V) (set : Option (ValueSet V perEntryCapacity)) :
    setValue val set ≠ default := Option.some_ne_none _

def set (c : SantaSetCache K V perEntryCapacity) (key : K) (val : V) :
    Bool × SantaSetCache K V perEntryCapacity :=
  ((((c.cache.get key).getD .empty).insert val).1,
    ⟨c.cache.update key (setValue val) (setValue_nonzero val)⟩)

def remove (c : SantaSetCache K V perEntryCapacity) (key : K) :
    SantaSetCache K V perEntryCapacity := ⟨c.cache.remove key⟩

def clear (c : SantaSetCache K V perEntryCapacity) : SantaSetCache K V perEntryCapacity :=
  ⟨c.cache.clear⟩

theorem contains_iff {c : SantaSetCache K V perEntryCapacity} {key : K} {val : V} :
    c.contains key val = true ↔ val ∈ c.values key := by
  rw [contains, SantaCache.contains_eq rfl, values]
  cases c.cache.get key with
  | none => simp [ValueSet.empty]
  | some set => simp

omit [DecidableEq V] in
@[simp] theorem values_new (capacity : Nat) (key : K) :
    (new capacity : SantaSetCache K V perEntryCapacity).values key = [] := rfl

theorem values_set_stored (c : SantaSetCache K V perEntryCapacity) (key : K) (val : V) :
    (c.set key val).2.values key =
      (((c.cache.get key).getD .empty).insert val).2.values := by
  rw [values, set, SantaCache.get_update_self]
  rfl

theorem values_set_self (c : SantaSetCache K V perEntryCapacity) (key : K) (val : V) :
    (c.set key val).2.values key =
      if val ∈ c.values key then c.values key
      else if perEntryCapacity ≤ (c.values key).length then [val]
      else val :: c.values key := by
  rw [values_set_stored]
  exact ValueSet.insert_values _ val

theorem values_set_other {c : SantaSetCache K V perEntryCapacity} {key key' : K} (val : V)
    (other : key' ≠ key) :
    (c.set key val).2.values key' = c.values key' ∨ (c.set key val).2.values key' = [] := by
  rcases SantaCache.get_update_other c.cache (setValue_nonzero val) other with
    same | ⟨_, gone⟩
  · exact .inl (by simp only [values, set, same])
  · exact .inr (by simp only [values, set, gone]; rfl)

theorem values_remove (c : SantaSetCache K V perEntryCapacity) (key key' : K) :
    (c.remove key).values key' = if key' = key then [] else c.values key' := by
  simp only [values, remove, SantaCache.get_remove]
  by_cases same : key' = key
  · simp only [if_pos same]
    rfl
  · simp only [if_neg same]

theorem contains_set {c : SantaSetCache K V perEntryCapacity} {key key' : K} {val val' : V}
    (h : (c.set key val).2.contains key' val' = true) :
    (key' = key ∧ val' = val) ∨ c.contains key' val' = true := by
  rw [contains_iff] at h
  rw [contains_iff]
  by_cases same : key' = key
  · subst same
    rw [values_set_self] at h
    split_ifs at h
    · exact .inr h
    · exact .inl ⟨rfl, List.mem_singleton.mp h⟩
    · rcases List.mem_cons.mp h with new | old
      · exact .inl ⟨rfl, new⟩
      · exact .inr old
  · rcases values_set_other val same with kept | gone
    · rw [kept] at h
      exact .inr h
    · rw [gone] at h
      exact nomatch h

/-- The answer to a store says whether the value was not there. -/
theorem set_fresh (c : SantaSetCache K V perEntryCapacity) (key : K) (val : V) :
    (c.set key val).1 = true ↔ c.contains key val = false := by
  rw [← Bool.not_eq_true, contains_iff]
  exact ValueSet.insert_fresh _ val

theorem contains_remove {c : SantaSetCache K V perEntryCapacity} {key key' : K} {val : V} :
    (c.remove key).contains key' val = true ↔ key' ≠ key ∧ c.contains key' val = true := by
  rw [contains_iff, contains_iff, values_remove]
  by_cases same : key' = key
  · simp [same]
  · simp [same]

end SantaSetCache
