import Santa.Common.SantaCacheBuckets
import Santa.Common.SantaSetCache

/-!
The sets of `SantaSetCache` where they are in memory: behind shared pointers. The outer cache holds
the pointers; its update allocates a set for a key that has none, and otherwise writes into the
set that the key's pointer leads to. No two keys share a set, so the cache acts as a map of sets:
a new key that would exceed the capacity finds the map emptied, and a new value that would exceed
the capacity of its set finds the set emptied.
-/
namespace SantaSharedSets
open SantaCacheBuckets (put put_apply Lists lists_count lists_update lists_set lists_clear)
open Simulations

variable {K V : Type} {perEntryCapacity : Nat}

/-- A shared pointer that is not null. -/
structure SharedValueSet where
  address : Nat
  deriving DecidableEq

instance : Zero (Option SharedValueSet) := ⟨none⟩

instance : Zero (Option (ValueSet V perEntryCapacity)) := ⟨none⟩

structure SetCache (K V : Type) (perEntryCapacity : Nat) where
  cache : SantaCache K (Option SharedValueSet)
  sets : SharedValueSet → ValueSet V perEntryCapacity
  allocated : Nat

inductive Op (K V : Type) where
  | set (key : K) (val : V)
  | contains (key : K) (val : V)
  | remove (key : K)
  | clear

section
variable [DecidableEq K] [DecidableEq V]

namespace SetCache

def new (capacity : Nat) : SetCache K V perEntryCapacity :=
  ⟨.new capacity, fun _ => .empty, 0⟩

def contains (c : SetCache K V perEntryCapacity) (key : K) (val : V) : Bool :=
  c.cache.contains key fun set => set.any fun set => decide (val ∈ (c.sets set).values)

/-- The block of the update leaves a pointer that is there as it is. -/
def set (c : SetCache K V perEntryCapacity) (key : K) (val : V) :
    Bool × SetCache K V perEntryCapacity :=
  let stored := c.cache.get key
  let pointer := stored.getD ⟨c.allocated⟩
  let (didSet, set) := ((stored.map c.sets).getD .empty).insert val
  (didSet,
    { cache := c.cache.update key (fun stored => some (stored.getD ⟨c.allocated⟩))
        fun _ => Option.some_ne_none _
      sets := fun other => if other = pointer then set else c.sets other
      allocated := if stored.isNone then c.allocated + 1 else c.allocated })

def remove (c : SetCache K V perEntryCapacity) (key : K) : SetCache K V perEntryCapacity :=
  { c with cache := c.cache.remove key }

def clear (c : SetCache K V perEntryCapacity) : SetCache K V perEntryCapacity :=
  { c with cache := c.cache.clear }

def step (c : SetCache K V perEntryCapacity) :
    Op K V → Option Bool × SetCache K V perEntryCapacity
  | .set key val =>
      let (didSet, c) := c.set key val
      (some didSet, c)
  | .contains key val => (some (c.contains key val), c)
  | .remove key => (none, c.remove key)
  | .clear => (none, c.clear)

omit [DecidableEq V] in
def values (c : SetCache K V perEntryCapacity) (key : K) : List V :=
  (((c.cache.get key).map c.sets).getD .empty).values

end SetCache

/-! ### A finite map of sets -/

omit [DecidableEq K] [DecidableEq V] in
def valuesAt (m : K →₀ Option (ValueSet V perEntryCapacity)) (key : K) : List V :=
  ((m key).getD .empty).values

noncomputable def mapStep (capacity : Nat) (m : K →₀ Option (ValueSet V perEntryCapacity)) :
    Op K V → Option Bool × (K →₀ Option (ValueSet V perEntryCapacity))
  | .set key val =>
      (some (decide (val ∉ valuesAt m key)),
        put capacity m key (SantaSetCache.setValue val (m key)))
  | .contains key val => (some (decide (val ∈ valuesAt m key)), m)
  | .remove key => (none, put capacity m key 0)
  | .clear => (none, 0)

/-! ### What the pointers lead to -/

/-- The cache holds these pointers, each key has its own, and they lead to the sets of the map. -/
structure LeadsTo (capacity : Nat) (c : SetCache K V perEntryCapacity)
    (pointers : K →₀ Option SharedValueSet) (m : K →₀ Option (ValueSet V perEntryCapacity)) :
    Prop where
  lists : Lists capacity c.cache pointers
  sets : ∀ key, m key = (pointers key).map c.sets
  known : ∀ key pointer, pointers key = some pointer → pointer.address < c.allocated
  alone : ∀ key key' pointer, pointers key = some pointer → pointers key' = some pointer →
    key = key'

variable {capacity : Nat} {c : SetCache K V perEntryCapacity}
  {pointers : K →₀ Option SharedValueSet} {m : K →₀ Option (ValueSet V perEntryCapacity)}

omit [DecidableEq V] in
theorem leadsTo_new (capacity : Nat) :
    LeadsTo capacity (.new capacity : SetCache K V perEntryCapacity) 0 0 where
  lists := ⟨rfl, fun _ => rfl, rfl⟩
  sets := fun _ => rfl
  known := fun _ _ here => by cases here
  alone := fun _ _ _ here => by cases here

omit [DecidableEq V] in
theorem zero_iff (leads : LeadsTo capacity c pointers m) (key : K) :
    pointers key = 0 ↔ m key = 0 := by
  rw [leads.sets]
  exact Option.map_eq_none_iff.symm

omit [DecidableEq V] in
theorem card_eq (leads : LeadsTo capacity c pointers m) :
    pointers.support.card = m.support.card := by
  congr 1
  ext key
  rw [Finsupp.mem_support_iff, Finsupp.mem_support_iff, ne_eq, zero_iff leads]

omit [DecidableEq V] in
theorem values_eq (leads : LeadsTo capacity c pointers m) (key : K) :
    c.values key = valuesAt m key := by
  rw [SetCache.values, leads.lists.get, ← leads.sets]
  rfl

theorem contains_eq (leads : LeadsTo capacity c pointers m) (key : K) (val : V) :
    c.contains key val = decide (val ∈ valuesAt m key) := by
  rw [SetCache.contains, SantaCache.contains_eq rfl, leads.lists.get, valuesAt, leads.sets]
  cases pointers key with
  | none => rfl
  | some pointer => rfl

omit [DecidableEq V] in
theorem pointer_apart (leads : LeadsTo capacity c pointers m) {key key' : K}
    {pointer : SharedValueSet}
    (different : key' ≠ key) (here : pointers key' = some pointer) :
    pointer ≠ (pointers key).getD ⟨c.allocated⟩ := by
  intro same
  cases there : pointers key with
  | none =>
    rw [there] at same
    have below := leads.known key' pointer here
    rw [same] at below
    exact Nat.lt_irrefl _ below
  | some held =>
    rw [there] at same
    exact different (leads.alone key' key held (by rw [here, same]; rfl) there)

theorem set_allocated (c : SetCache K V perEntryCapacity) (key : K) (val : V) :
    c.allocated ≤ (c.set key val).2.allocated := by
  simp only [SetCache.set]
  split
  · exact Nat.le_succ _
  · exact Nat.le_refl _

theorem set_known (leads : LeadsTo capacity c pointers m) (key : K) (val : V) :
    ((pointers key).getD ⟨c.allocated⟩).address < (c.set key val).2.allocated := by
  cases there : pointers key with
  | none =>
    simp only [SetCache.set, leads.lists.get, there]
    exact Nat.lt_succ_self _
  | some held => exact Nat.lt_of_lt_of_le (leads.known key held there) (set_allocated c key val)

theorem leadsTo_set (leads : LeadsTo capacity c pointers m) (key : K) (val : V) :
    (c.set key val).1 = decide (val ∉ valuesAt m key) ∧
      LeadsTo capacity (c.set key val).2
        (put capacity pointers key (some ((pointers key).getD ⟨c.allocated⟩)))
        (put capacity m key (SantaSetCache.setValue val (m key))) := by
  have stored : (c.cache.get key).map c.sets = m key := by rw [leads.lists.get, leads.sets]
  have written : (some ((pointers key).getD ⟨c.allocated⟩) : Option SharedValueSet) ≠ 0 :=
    Option.some_ne_none _
  have written' : SantaSetCache.setValue val (m key) ≠ 0 := Option.some_ne_none _
  refine ⟨?_, ?_, ?_, ?_, ?_⟩
  · rw [Bool.eq_iff_iff, decide_eq_true_iff]
    simp only [SetCache.set, stored]
    exact ValueSet.insert_fresh _ val
  · exact lists_update leads.lists fun _ => Option.some_ne_none _
  · intro key'
    rw [put_apply, put_apply]
    by_cases same : key' = key
    · rw [if_pos same, if_pos same]
      simp only [SetCache.set, leads.lists.get, Option.map_some, if_true]
      rw [leads.sets]
      rfl
    · rw [if_neg same, if_neg same, zero_iff leads, card_eq leads]
      simp only [ne_eq, written, written', not_false_eq_true, true_and]
      split
      · rfl
      · rw [leads.sets]
        refine Option.map_congr fun pointer here => ?_
        simp only [SetCache.set, leads.lists.get, if_neg (pointer_apart leads same here)]
  · intro key' pointer here
    rw [put_apply] at here
    split at here
    · rw [← Option.some.inj here]
      exact set_known leads key val
    · split at here
      · cases here
      · exact Nat.lt_of_lt_of_le (leads.known key' pointer here) (set_allocated c key val)
  · intro key' key'' pointer here there
    rw [put_apply] at here there
    by_cases first : key' = key
    · by_cases second : key'' = key
      · exact first.trans second.symm
      · rw [if_pos first] at here
        rw [if_neg second] at there
        split at there
        · cases there
        · exact absurd (Option.some.inj here).symm (pointer_apart leads second there)
    · rw [if_neg first] at here
      split at here
      · cases here
      · rename_i room
        by_cases second : key'' = key
        · rw [if_pos second] at there
          exact absurd (Option.some.inj there).symm (pointer_apart leads first here)
        · rw [if_neg second, if_neg room] at there
          exact leads.alone key' key'' pointer here there

omit [DecidableEq V] in
theorem leadsTo_remove (leads : LeadsTo capacity c pointers m) (key : K) :
    LeadsTo capacity (c.remove key) (put capacity pointers key 0) (put capacity m key 0) := by
  have here (key' : K) (pointer : SharedValueSet)
      (kept : put capacity pointers key 0 key' = some pointer) : pointers key' = some pointer := by
    rw [put_apply] at kept
    split at kept
    · cases kept
    · rwa [if_neg fun overflow => overflow.1 rfl] at kept
  refine ⟨(lists_set leads.lists 0 (by simp)).2, ?_, ?_, ?_⟩
  · intro key'
    rw [put_apply, put_apply]
    split
    · rfl
    · rw [if_neg fun overflow => overflow.1 rfl, if_neg fun overflow => overflow.1 rfl]
      exact leads.sets key'
  · exact fun key' pointer kept => leads.known key' pointer (here key' pointer kept)
  · exact fun key' key'' pointer kept kept' =>
      leads.alone key' key'' pointer (here key' pointer kept) (here key'' pointer kept')

omit [DecidableEq V] in
theorem leadsTo_clear (leads : LeadsTo capacity c pointers m) :
    LeadsTo capacity c.clear 0 0 where
  lists := lists_clear leads.lists
  sets := fun _ => rfl
  known := fun _ _ here => by cases here
  alone := fun _ _ _ here => by cases here

def ActsAs (capacity : Nat) (c : SetCache K V perEntryCapacity)
    (m : K →₀ Option (ValueSet V perEntryCapacity)) : Prop :=
  ∃ pointers, LeadsTo capacity c pointers m

theorem step_acts (c : SetCache K V perEntryCapacity)
    (m : K →₀ Option (ValueSet V perEntryCapacity)) (op : Op K V) (acts : ActsAs capacity c m) :
    (c.step op).1 = (mapStep capacity m op).1 ∧
      ActsAs capacity (c.step op).2 (mapStep capacity m op).2 := by
  obtain ⟨pointers, leads⟩ := acts
  cases op with
  | set key val =>
    obtain ⟨didSet, leads'⟩ := leadsTo_set leads key val
    exact ⟨congrArg some didSet, _, leads'⟩
  | contains key val => exact ⟨congrArg some (contains_eq leads key val), pointers, leads⟩
  | remove key => exact ⟨rfl, _, leadsTo_remove leads key⟩
  | clear => exact ⟨rfl, _, leadsTo_clear leads⟩

/-! ### Each key's set -/

structure HoldsSets (capacity : Nat) (c : SetCache K V perEntryCapacity) : Prop where
  contains : ∀ key val, c.contains key val = true ↔ val ∈ c.values key
  fresh : ∀ key val, (c.set key val).1 = true ↔ val ∉ c.values key
  held : ∀ key val, (c.set key val).2.contains key val = true
  unique : ∀ key, (c.values key).Nodup
  bounded : ∀ key, (c.values key).length ≤ max 1 perEntryCapacity
  others : ∀ key val, (∀ other, other ≠ key → (c.set key val).2.values other = c.values other) ∨
    (c.cache.get key = none ∧ capacity < c.cache.count + 1 ∧
      ∀ other, other ≠ key → (c.set key val).2.values other = [])
  removed : ∀ key, (c.remove key).values key = []
  keeps : ∀ key other, other ≠ key → (c.remove key).values other = c.values other
  cleared : ∀ key, c.clear.values key = []

theorem holdsSets_of_acts (acts : ActsAs capacity c m) : HoldsSets capacity c := by
  obtain ⟨pointers, leads⟩ := acts
  refine ⟨?_, ?_, ?_, ?_, ?_, ?_, ?_, ?_, fun _ => rfl⟩
  · intro key val
    rw [contains_eq leads, values_eq leads, decide_eq_true_iff]
  · intro key val
    rw [(leadsTo_set leads key val).1, values_eq leads, decide_eq_true_iff]
  · intro key val
    rw [contains_eq (leadsTo_set leads key val).2, decide_eq_true_iff, valuesAt, put_apply,
      if_pos rfl]
    exact ValueSet.mem_insert_self _ val
  · exact fun key => ValueSet.unique _
  · exact fun key => ValueSet.bounded _
  · intro key val
    have after := values_eq (leadsTo_set leads key val).2
    by_cases overflow : m key = 0 ∧ capacity < m.support.card + 1
    · refine Or.inr ⟨?_, ?_, fun other different => ?_⟩
      · rw [leads.lists.get]
        exact (zero_iff leads key).mpr overflow.1
      · rw [lists_count leads.lists, card_eq leads]
        exact overflow.2
      · rw [after, valuesAt, put_apply, if_neg different,
          if_pos ⟨Option.some_ne_none _, overflow⟩]
        rfl
    · refine Or.inl fun other different => ?_
      rw [after, values_eq leads, valuesAt, put_apply, if_neg different,
        if_neg fun full => overflow full.2, valuesAt]
  · intro key
    rw [values_eq (leadsTo_remove leads key), valuesAt, put_apply, if_pos rfl]
    rfl
  · intro key other different
    rw [values_eq (leadsTo_remove leads key), values_eq leads, valuesAt, put_apply,
      if_neg different, if_neg fun full => full.1 rfl, valuesAt]

/-! ### The sets by value -/

section
variable {byValue : SantaSetCache K V perEntryCapacity}

/-- The cache that holds its sets themselves, without pointers, acts as the same map. -/
theorem byValue_set (lists : Lists capacity byValue.cache m) (key : K) (val : V) :
    (byValue.set key val).1 = decide (val ∉ valuesAt m key) ∧
      Lists capacity (byValue.set key val).2.cache
        (put capacity m key (SantaSetCache.setValue val (m key))) := by
  refine ⟨?_, lists_update lists (SantaSetCache.setValue_nonzero val)⟩
  rw [Bool.eq_iff_iff, decide_eq_true_iff, valuesAt, ← lists.get]
  exact ValueSet.insert_fresh _ val

theorem byValue_contains (lists : Lists capacity byValue.cache m) (key : K) (val : V) :
    byValue.contains key val = decide (val ∈ valuesAt m key) := by
  rw [Bool.eq_iff_iff, decide_eq_true_iff, SantaSetCache.contains_iff, valuesAt, ← lists.get]
  rfl

theorem byValue_remove (lists : Lists capacity byValue.cache m) (key : K) :
    Lists capacity (byValue.remove key).cache (put capacity m key 0) :=
  (lists_set lists 0 (by simp)).2

end

/-! ### Whole runs -/

structure ActsAsMapOfSets (capacity perEntryCapacity : Nat) (ops : List (Op K V)) : Prop where
  answers : outputs SetCache.step (.new capacity : SetCache K V perEntryCapacity) ops =
    outputs (mapStep capacity) (0 : K →₀ Option (ValueSet V perEntryCapacity)) ops
  sets : Runs.Always (next SetCache.step) (HoldsSets capacity)
    (.new capacity : SetCache K V perEntryCapacity) ops

/-- Whatever its capacities are and whatever is asked of it. -/
theorem acts_as_map_of_sets (capacity perEntryCapacity : Nat) (ops : List (Op K V)) :
    ActsAsMapOfSets capacity perEntryCapacity ops := by
  have start : ActsAs capacity (.new capacity : SetCache K V perEntryCapacity) 0 :=
    ⟨0, leadsTo_new capacity⟩
  constructor
  · exact outputs_eq (fun c m op acts _ => step_acts c m op acts) start
      (Runs.meets_true _ _ ops)
  · have keep : ∀ (c : SetCache K V perEntryCapacity) op c', (∃ m, ActsAs capacity c m) →
        next SetCache.step c op = some c' → ∃ m, ActsAs capacity c' m := by
      rintro c op c' ⟨m, acts⟩ first
      rw [← Option.some.inj first]
      exact ⟨_, (step_acts c m op acts).2⟩
    refine Runs.always_mono ?_ (Runs.always_of_keep _ keep ⟨0, start⟩ ops)
    rintro c ⟨m, acts⟩
    exact holdsSets_of_acts acts

end

end SantaSharedSets
