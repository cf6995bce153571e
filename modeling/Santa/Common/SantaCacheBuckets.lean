import Mathlib
import Santa.Common.SantaCache
import Santa.Common.SantaCacheThreads
import Santa.Library.Simulations

/-!
The buckets of `SantaCache` under one thread. A key is looked for in the list of its bucket; a new
entry becomes the first, and one whose value becomes zero is unlinked. The table acts as a finite
map, where zero stands for an absent key, that is emptied before a new key would exceed the
maximum size; and so does the list of entries that stands for the cache elsewhere.
-/
namespace SantaCacheBuckets
open SantaCacheThreads (setFirst keys_setFirst)
open Simulations

structure Sizes where
  maximumSize : Nat
  perBucket : UInt8
  positive : 1 ≤ maximumSize
  bounded : maximumSize ≤ 1073741824

def Sizes.perBucketUsed (sizes : Sizes) : Nat :=
  let perBucket := if sizes.perBucket.toNat > sizes.maximumSize then sizes.maximumSize
    else sizes.perBucket.toNat
  let perBucket := if perBucket < 1 then 1 else perBucket
  if perBucket > 64 then 64 else perBucket

/-- A power of two, from the number of bits of the quotient less one. -/
def Sizes.bucketCount (sizes : Sizes) : Nat :=
  let quotient := sizes.maximumSize / sizes.perBucketUsed - 1
  let bits := (if quotient = 0 then 1 else quotient).log2 + 1
  let bucketCount := 1 <<< bits
  if bucketCount > 4294967295 then 4294967295 else bucketCount

theorem Sizes.bucketCount_pos (sizes : Sizes) : 0 < sizes.bucketCount := by
  have positive (bits : Nat) :
      0 < if 1 <<< bits > 4294967295 then 4294967295 else 1 <<< bits := by
    rw [Nat.one_shiftLeft]
    split
    · decide
    · exact Nat.two_pow_pos bits
  exact positive _

variable {K V : Type} {n : Nat}

structure Table (K V : Type) (n : Nat) where
  maxSize : Nat
  buckets : Fin n → List (K × V)
  count : Nat

inductive Op (K V : Type) where
  | get (key : K)
  | set (key : K) (value : V) (previousValue : Option V)
  | update (key : K) (updateBlock : V → V)
  | remove (key : K)
  | clear

inductive Answer (V : Type) where
  | value (v : V)
  | stored (done : Bool)
  | done
  deriving DecidableEq

structure Seen (V : Type) where
  answer : Answer V
  count : Nat
  deriving DecidableEq

def Sizes.hash (sizes : Sizes) (hasher : K → UInt64) (key : K) : Fin sizes.bucketCount :=
  ⟨(hasher key).toNat % sizes.bucketCount, Nat.mod_lt _ sizes.bucketCount_pos⟩

namespace Table

def new (maxSize : Nat) : Table K V n := ⟨maxSize, fun _ => [], 0⟩

def clear (t : Table K V n) : Table K V n := { t with buckets := fun _ => [], count := 0 }

def full (t : Table K V n) : Bool := decide (t.maxSize < t.count + 1)

def setBucket (t : Table K V n) (i : Fin n) (bucket : List (K × V)) : Table K V n :=
  { t with buckets := fun j => if j = i then bucket else t.buckets j }

variable [DecidableEq K] [DecidableEq V] [Zero V] (hash : K → Fin n)

def find (t : Table K V n) (key : K) : Option (K × V) :=
  (t.buckets (hash key)).find? fun e => e.1 = key

def get (t : Table K V n) (key : K) : V := ((t.find hash key).map Prod.snd).getD 0

def assign (t : Table K V n) (key : K) (block : V → V) : Table K V n :=
  t.setBucket (hash key) (setFirst key block (t.buckets (hash key)))

def unlink (t : Table K V n) (key : K) : Table K V n :=
  { t.setBucket (hash key) ((t.buckets (hash key)).eraseP fun e => e.1 = key) with
    count := t.count - 1 }

def create (t : Table K V n) (key : K) (value : V) : Table K V n :=
  { t.setBucket (hash key) ((key, value) :: t.buckets (hash key)) with count := t.count + 1 }

def store (t : Table K V n) (key : K) (value : V) (updateBlock : Option (V → V))
    (previousValue : Option V) : Bool × Table K V n :=
  match t.find hash key with
  | some (_, existingValue) =>
      match updateBlock with
      | some block => (true, t.assign hash key block)
      | none =>
          if previousValue.any (· ≠ existingValue) then (false, t)
          else if value = 0 then (true, (t.assign hash key fun _ => value).unlink hash key)
          else (true, t.assign hash key fun _ => value)
  | none =>
      if updateBlock.isNone && (decide (value = 0) || previousValue.any (· ≠ 0)) then (false, t)
      else
        let t := if t.full then t.clear else t
        (true, t.create hash key ((updateBlock.map fun block => block 0).getD value))

def answerOf (t : Table K V n) : Op K V → Answer V × Table K V n
  | .get key => (.value (t.get hash key), t)
  | .set key value previousValue =>
      let (done, t) := t.store hash key value none previousValue
      (.stored done, t)
  | .update key updateBlock =>
      let (done, t) := t.store hash key 0 (some updateBlock) none
      (.stored done, t)
  | .remove key => (.done, (t.store hash key 0 none none).2)
  | .clear => (.done, t.clear)

def step (t : Table K V n) (op : Op K V) : Seen V × Table K V n :=
  let (answer, t) := t.answerOf hash op
  (⟨answer, t.count⟩, t)

end Table

/-! ### The previous value -/

theorem other_of_not_matched {previousValue : Option V} {current : V}
    (unmatched : ¬ ∀ previous ∈ previousValue, previous = current) :
    ∃ previous, previousValue = some previous ∧ previous ≠ current := by
  push Not at unmatched
  exact unmatched

theorem any_ne_of_matched [DecidableEq V] {previousValue : Option V} {current : V}
    (matched : ∀ previous ∈ previousValue, previous = current) :
    previousValue.any (· ≠ current) = false := by
  cases previousValue with
  | none => rfl
  | some previous => simpa using matched previous rfl

/-! ### A finite map -/

section
variable [Zero V]

open Classical in
/-- A new key that would exceed the maximum size finds the map emptied. -/
noncomputable def put (maxSize : Nat) (m : K →₀ V) (key : K) (value : V) : K →₀ V :=
  if value ≠ 0 ∧ m key = 0 ∧ maxSize < m.support.card + 1 then Finsupp.single key value
  else m.update key value

open Classical in
theorem put_apply [DecidableEq K] (maxSize : Nat) (m : K →₀ V) (key : K) (value : V) (key' : K) :
    put maxSize m key value key' =
      if key' = key then value
      else if value ≠ 0 ∧ m key = 0 ∧ maxSize < m.support.card + 1 then 0
      else m key' := by
  unfold put
  by_cases overflow : value ≠ 0 ∧ m key = 0 ∧ maxSize < m.support.card + 1
  · rw [if_pos overflow, if_pos overflow, Finsupp.single_apply]
    by_cases same : key' = key
    · rw [if_pos same.symm, if_pos same]
    · rw [if_neg (Ne.symm same), if_neg same]
  · rw [if_neg overflow, if_neg overflow, Finsupp.update_apply]

open Classical in
noncomputable def answerOf (maxSize : Nat) (m : K →₀ V) : Op K V → Answer V × (K →₀ V)
  | .get key => (.value (m key), m)
  | .set key value previousValue =>
      if ∀ previous ∈ previousValue, previous = m key then
        (.stored (value ≠ 0 ∨ m key ≠ 0), put maxSize m key value)
      else (.stored false, m)
  | .update key updateBlock => (.stored true, put maxSize m key (updateBlock (m key)))
  | .remove key => (.done, put maxSize m key 0)
  | .clear => (.done, 0)

noncomputable def mapStep (maxSize : Nat) (m : K →₀ V) (op : Op K V) : Seen V × (K →₀ V) :=
  let (answer, m) := answerOf maxSize m op
  (⟨answer, m.support.card⟩, m)

end

/-- The block of an update leaves a value that is not zero. -/
def LeavesNonzero [DecidableEq K] [DecidableEq V] [Zero V] (hash : K → Fin n) (t : Table K V n) :
    Op K V → Prop
  | .update key updateBlock => updateBlock (t.get hash key) ≠ 0
  | _ => True

instance [DecidableEq K] [DecidableEq V] [Zero V] (hash : K → Fin n) (t : Table K V n)
    (op : Op K V) : Decidable (LeavesNonzero hash t op) := by
  cases op with
  | update key updateBlock => exact inferInstanceAs (Decidable (_ ≠ _))
  | get key => exact inferInstanceAs (Decidable True)
  | set key value previousValue => exact inferInstanceAs (Decidable True)
  | remove key => exact inferInstanceAs (Decidable True)
  | clear => exact inferInstanceAs (Decidable True)

/-! ### One bucket -/

section
variable [DecidableEq K]

theorem find?_setFirst (key key' : K) (block : V → V) (bucket : List (K × V)) :
    (setFirst key block bucket).find? (fun e => e.1 = key') =
      (bucket.find? fun e => e.1 = key').map fun e =>
        if key' = key then (e.1, block e.2) else e := by
  induction bucket with
  | nil => rfl
  | cons e rest ih =>
    unfold setFirst
    by_cases first : e.1 = key
    · by_cases same : e.1 = key'
      · simp [← same, first]
      · have other : key' ≠ key := fun h => same (first.trans h.symm)
        simp [first, other, Ne.symm other]
    · by_cases same : e.1 = key'
      · have other : key' ≠ key := fun h => first (same.trans h)
        simp [same, other]
      · simp only [if_neg first, List.find?_cons, same, decide_false]
        exact ih

theorem find?_eraseP {key : K} {bucket : List (K × V)} (unique : (bucket.map Prod.fst).Nodup)
    (key' : K) :
    (bucket.eraseP fun e => e.1 = key).find? (fun e => e.1 = key') =
      if key' = key then none else bucket.find? fun e => e.1 = key' := by
  induction bucket with
  | nil => simp
  | cons e rest ih =>
    obtain ⟨fresh, unique⟩ := List.nodup_cons.mp unique
    by_cases first : e.1 = key
    · rw [List.eraseP_cons_of_pos (by simpa using first)]
      by_cases same : key' = key
      · rw [if_pos same, List.find?_eq_none]
        intro e' member named
        rw [first, ← same, ← of_decide_eq_true named] at fresh
        exact fresh (List.mem_map_of_mem member)
      · rw [if_neg same, List.find?_cons_of_neg (by simpa [first] using Ne.symm same)]
    · rw [List.eraseP_cons_of_neg (by simpa using first), List.find?_cons, ih unique]
      by_cases same : e.1 = key'
      · have other : key' ≠ key := fun h => first (same.trans h)
        simp [same, other]
      · simp [same]

theorem eraseP_setFirst (key : K) (block : V → V) (bucket : List (K × V)) :
    (setFirst key block bucket).eraseP (fun e => e.1 = key) =
      bucket.eraseP fun e => e.1 = key := by
  induction bucket with
  | nil => rfl
  | cons e rest ih =>
    unfold setFirst
    by_cases first : e.1 = key
    · rw [if_pos first, List.eraseP_cons_of_pos (by simpa using first),
        List.eraseP_cons_of_pos (by simpa using first)]
    · rw [if_neg first, List.eraseP_cons_of_neg (by simpa using first),
        List.eraseP_cons_of_neg (by simpa using first), ih]

theorem setFirst_nonzero [Zero V] {key : K} {block : V → V} {bucket : List (K × V)}
    (nonzero : ∀ e ∈ bucket, e.2 ≠ 0)
    (kept : ∀ e, bucket.find? (fun e => e.1 = key) = some e → block e.2 ≠ 0) :
    ∀ e ∈ setFirst key block bucket, e.2 ≠ 0 := by
  induction bucket with
  | nil => exact nonzero
  | cons e rest ih =>
    have later : ∀ e ∈ rest, e.2 ≠ 0 := fun e' member => nonzero e' (List.mem_cons_of_mem e member)
    unfold setFirst
    by_cases first : e.1 = key
    · rw [if_pos first]
      intro e' member
      rcases List.mem_cons.mp member with rfl | old
      · exact kept e (List.find?_cons_of_pos (by simpa using first))
      · exact later e' old
    · rw [if_neg first]
      rw [List.find?_cons_of_neg (by simpa using first)] at kept
      intro e' member
      rcases List.mem_cons.mp member with rfl | old
      · exact nonzero e' List.mem_cons_self
      · exact ih later kept e' old

end

/-! ### The table -/

structure Inv [Zero V] (t : Table K V n) : Prop where
  unique : ∀ i, ((t.buckets i).map Prod.fst).Nodup
  nonzero : ∀ i, ∀ e ∈ t.buckets i, e.2 ≠ 0

theorem inv_setBucket [Zero V] {t : Table K V n} (inv : Inv t) (i : Fin n)
    {bucket : List (K × V)} (unique : (bucket.map Prod.fst).Nodup)
    (nonzero : ∀ e ∈ bucket, e.2 ≠ 0) : Inv (t.setBucket i bucket) := by
  constructor
  · intro j
    simp only [Table.setBucket]
    split
    · exact unique
    · exact inv.unique j
  · intro j
    simp only [Table.setBucket]
    split
    · exact nonzero
    · exact inv.nonzero j

theorem inv_count [Zero V] {t : Table K V n} (inv : Inv t) (count : Nat) :
    Inv { t with count := count } := ⟨inv.unique, inv.nonzero⟩

section
variable [DecidableEq K] (hash : K → Fin n) (t : Table K V n)

theorem find_setBucket_self (key : K) (bucket : List (K × V)) :
    (t.setBucket (hash key) bucket).find hash key = bucket.find? fun e => e.1 = key := by
  simp only [Table.find, Table.setBucket, if_true]

theorem find_setBucket_kept {i : Fin n} {bucket : List (K × V)} {key : K}
    (same : (bucket.find? fun e => e.1 = key) = (t.buckets i).find? fun e => e.1 = key) :
    (t.setBucket i bucket).find hash key = t.find hash key := by
  simp only [Table.find, Table.setBucket]
  split
  · rename_i here
    rw [same, here]
  · rfl

end

section
variable [DecidableEq K] [Zero V] {hash : K → Fin n} {t : Table K V n} {key : K}

theorem get_of_find {e : K × V} (found : t.find hash key = some e) : t.get hash key = e.2 := by
  unfold Table.get
  rw [found]
  rfl

theorem get_congr {u : Table K V n} (same : u.find hash key = t.find hash key) :
    u.get hash key = t.get hash key := by
  unfold Table.get
  rw [same]

theorem find_none_iff (inv : Inv t) : t.find hash key = none ↔ t.get hash key = 0 := by
  unfold Table.get
  cases found : t.find hash key with
  | none => simp
  | some e => simp [inv.nonzero _ e (List.mem_of_find?_eq_some found)]

theorem get_assign {e : K × V} (found : t.find hash key = some e) (block : V → V) (key' : K) :
    (t.assign hash key block).get hash key' =
      if key' = key then block e.2 else t.get hash key' := by
  unfold Table.assign
  split
  · rename_i same
    subst same
    have here : (t.assign hash key' block).find hash key' = some (e.1, block e.2) := by
      unfold Table.find at found
      unfold Table.assign
      rw [find_setBucket_self, find?_setFirst, found]
      simp
    exact get_of_find here
  · rename_i other
    refine get_congr (find_setBucket_kept hash t ?_)
    simp [find?_setFirst, other]

theorem inv_assign (inv : Inv t) {block : V → V}
    (nonzero : ∀ e, t.find hash key = some e → block e.2 ≠ 0) :
    Inv (t.assign hash key block) := by
  refine inv_setBucket inv _ ?_ (setFirst_nonzero (inv.nonzero _) nonzero)
  rw [keys_setFirst]
  exact inv.unique _

omit [Zero V] in
/-- The value that is written before an entry is unlinked is of no account. -/
theorem unlink_assign (block : V → V) :
    (t.assign hash key block).unlink hash key = t.unlink hash key := by
  unfold Table.unlink Table.assign Table.setBucket
  simp only [if_true, eraseP_setFirst, Table.mk.injEq, true_and, and_true]
  funext j
  split <;> rfl

theorem get_unlink (inv : Inv t) (key' : K) :
    (t.unlink hash key).get hash key' = if key' = key then 0 else t.get hash key' := by
  split
  · rename_i same
    subst same
    have here : (t.unlink hash key').find hash key' = none := by
      refine (find_setBucket_self hash t key' _).trans ?_
      rw [find?_eraseP (inv.unique _), if_pos rfl]
    unfold Table.get
    rw [here]
    rfl
  · rename_i other
    refine get_congr (find_setBucket_kept hash t ?_)
    rw [find?_eraseP (inv.unique _), if_neg other]

theorem inv_unlink (inv : Inv t) : Inv (t.unlink hash key) := by
  refine inv_count (inv_setBucket inv (hash key) ?_ ?_) _
  · exact (inv.unique _).sublist (List.Sublist.map Prod.fst List.eraseP_sublist)
  · exact fun e member => inv.nonzero _ e (List.eraseP_subset member)

theorem get_create (value : V) (key' : K) :
    (t.create hash key value).get hash key' = if key' = key then value else t.get hash key' := by
  split
  · rename_i same
    subst same
    have here : (t.create hash key' value).find hash key' = some (key', value) := by
      refine (find_setBucket_self hash t key' _).trans ?_
      rw [List.find?_cons_of_pos (by simp)]
    exact get_of_find here
  · rename_i other
    refine get_congr (find_setBucket_kept hash t ?_)
    rw [List.find?_cons_of_neg (by simpa using Ne.symm other)]

theorem inv_create (inv : Inv t) {value : V} (absent : t.find hash key = none)
    (nonzero : value ≠ 0) : Inv (t.create hash key value) := by
  refine inv_count (inv_setBucket inv (hash key) ?_ ?_) _
  · refine List.nodup_cons.mpr ⟨fun member => ?_, inv.unique _⟩
    obtain ⟨e, here, named⟩ := List.mem_map.mp member
    exact List.find?_eq_none.mp absent e here (decide_eq_true named)
  · intro e member
    rcases List.mem_cons.mp member with rfl | old
    · exact nonzero
    · exact inv.nonzero _ e old

omit [DecidableEq K] in
theorem inv_clear (t : Table K V n) : Inv t.clear :=
  ⟨fun _ => List.nodup_nil, fun _ _ member => absurd member List.not_mem_nil⟩

theorem get_clear (t : Table K V n) (key : K) : t.clear.get hash key = 0 := rfl

/-! ### The table as a map -/

structure ActsAs (hash : K → Fin n) (maxSize : Nat) (t : Table K V n) (m : K →₀ V) : Prop where
  inv : Inv t
  get : ∀ key, t.get hash key = m key
  count : t.count = m.support.card
  room : t.count ≤ maxSize
  size : t.maxSize = maxSize
  positive : 1 ≤ maxSize

variable {maxSize : Nat} {m : K →₀ V}

theorem actsAs_assign (acts : ActsAs hash maxSize t m) {e : K × V}
    (found : t.find hash key = some e) (block : V → V) (nonzero : block (m key) ≠ 0) :
    ActsAs hash maxSize (t.assign hash key block) (put maxSize m key (block (m key))) := by
  have value : m key = e.2 := (acts.get key).symm.trans (get_of_find found)
  have present : m key ≠ 0 := value ▸ acts.inv.nonzero _ e (List.mem_of_find?_eq_some found)
  unfold put
  rw [if_neg fun overflow => present overflow.2.1]
  refine ⟨inv_assign acts.inv ?_, fun key' => ?_, ?_, acts.room, acts.size, acts.positive⟩
  · intro e' found'
    rw [found, Option.some.injEq] at found'
    rwa [← found', ← value]
  · rw [get_assign found, Finsupp.update_apply, acts.get, value]
  · rw [Finsupp.support_update_ne_zero _ _ nonzero,
      Finset.insert_eq_of_mem (Finsupp.mem_support_iff.mpr present)]
    exact acts.count

theorem actsAs_unlink (acts : ActsAs hash maxSize t m) (present : m key ≠ 0) :
    ActsAs hash maxSize (t.unlink hash key) (put maxSize m key 0) := by
  unfold put
  rw [if_neg fun overflow => overflow.1 rfl]
  have count : (t.unlink hash key).count = (m.update key 0).support.card := by
    rw [Finsupp.support_update_zero,
      Finset.card_erase_of_mem (Finsupp.mem_support_iff.mpr present), ← acts.count]
    rfl
  refine ⟨inv_unlink acts.inv, fun key' => ?_, count, ?_, acts.size, acts.positive⟩
  · rw [get_unlink acts.inv, Finsupp.update_apply, acts.get]
  · exact Nat.le_trans (Nat.sub_le t.count 1) acts.room

theorem actsAs_create (acts : ActsAs hash maxSize t m) (absent : m key = 0) {value : V}
    (nonzero : value ≠ 0) (room : t.count + 1 ≤ maxSize) :
    ActsAs hash maxSize (t.create hash key value) (m.update key value) := by
  have count : (t.create hash key value).count = (m.update key value).support.card := by
    rw [Finsupp.support_update_ne_zero _ _ nonzero,
      Finset.card_insert_of_notMem fun member => Finsupp.mem_support_iff.mp member absent,
      ← acts.count]
    rfl
  refine ⟨inv_create acts.inv ?_ nonzero, fun key' => ?_, count, room, acts.size, acts.positive⟩
  · rw [find_none_iff acts.inv, acts.get, absent]
  · rw [get_create, Finsupp.update_apply, acts.get]

theorem actsAs_clear (acts : ActsAs hash maxSize t m) : ActsAs hash maxSize t.clear 0 :=
  ⟨inv_clear t, get_clear t, rfl, Nat.zero_le _, acts.size, acts.positive⟩

theorem actsAs_insert (acts : ActsAs hash maxSize t m) (absent : m key = 0) {value : V}
    (nonzero : value ≠ 0) :
    ActsAs hash maxSize ((if t.full then t.clear else t).create hash key value)
      (put maxSize m key value) := by
  have full : t.full = true ↔ maxSize < m.support.card + 1 := by
    rw [← acts.count, ← acts.size]
    exact decide_eq_true_iff
  unfold put
  split
  · rename_i overflow
    rw [if_pos ⟨nonzero, absent, full.mp overflow⟩, ← Finsupp.zero_update]
    exact actsAs_create (actsAs_clear acts) rfl nonzero acts.positive
  · rename_i room
    rw [if_neg fun overflow => room (full.mpr overflow.2.2)]
    have count := acts.count
    exact actsAs_create acts absent nonzero (by rw [full] at room; omega)

theorem new_acts (positive : 1 ≤ maxSize) :
    ActsAs hash maxSize (Table.new maxSize) (0 : K →₀ V) :=
  ⟨⟨fun _ => List.nodup_nil, fun _ _ member => absurd member List.not_mem_nil⟩, fun _ => rfl, rfl,
    Nat.zero_le _, rfl, positive⟩

omit [DecidableEq K] in
theorem put_present (present : m key ≠ 0) (value : V) :
    put maxSize m key value = m.update key value :=
  if_neg fun overflow => present overflow.2.1

omit [DecidableEq K] in
theorem put_absent (absent : m key = 0) : put maxSize m key 0 = m := by
  unfold put
  rw [if_neg fun overflow => overflow.1 rfl]
  exact (congrArg _ absent.symm).trans (Finsupp.update_self m key)

variable [DecidableEq V]

theorem set_refused (acts : ActsAs hash maxSize t m) {value previous : V}
    (other : previous ≠ m key) :
    t.store hash key value none (some previous) = (false, t) := by
  unfold Table.store
  cases found : t.find hash key with
  | some e =>
    have existing : m key = e.2 := (acts.get key).symm.trans (get_of_find found)
    rw [existing] at other
    simp [other]
  | none =>
    have absent : m key = 0 := (acts.get key).symm.trans ((find_none_iff acts.inv).mp found)
    rw [absent] at other
    simp [other]

theorem actsAs_set (acts : ActsAs hash maxSize t m) (value : V) {previousValue : Option V}
    (matched : ∀ previous ∈ previousValue, previous = m key) :
    ((t.store hash key value none previousValue).1 = true ↔ value ≠ 0 ∨ m key ≠ 0) ∧
      ActsAs hash maxSize (t.store hash key value none previousValue).2
        (put maxSize m key value) := by
  have same := any_ne_of_matched matched
  unfold Table.store
  cases found : t.find hash key with
  | some e =>
    have existing : m key = e.2 := (acts.get key).symm.trans (get_of_find found)
    have present : e.2 ≠ 0 := acts.inv.nonzero _ e (List.mem_of_find?_eq_some found)
    rw [existing] at same
    simp only [same, Bool.false_eq_true, if_false]
    split
    · rename_i zero
      rw [unlink_assign, zero]
      exact ⟨by simp [existing, present], actsAs_unlink acts (existing ▸ present)⟩
    · rename_i nonzero
      exact ⟨by simp [nonzero], actsAs_assign acts found (fun _ => value) nonzero⟩
  | none =>
    have absent : m key = 0 := (acts.get key).symm.trans ((find_none_iff acts.inv).mp found)
    rw [absent] at same
    simp only [Option.isNone_none, same, Bool.or_false, Bool.true_and, decide_eq_true_eq]
    split
    · rename_i zero
      rw [zero, put_absent absent]
      exact ⟨by simp [absent], acts⟩
    · rename_i nonzero
      exact ⟨by simp [nonzero], actsAs_insert acts absent nonzero⟩

theorem actsAs_update (acts : ActsAs hash maxSize t m) {updateBlock : V → V}
    (nonzero : updateBlock (m key) ≠ 0) :
    (t.store hash key 0 (some updateBlock) none).1 = true ∧
      ActsAs hash maxSize (t.store hash key 0 (some updateBlock) none).2
        (put maxSize m key (updateBlock (m key))) := by
  unfold Table.store
  cases found : t.find hash key with
  | some e => exact ⟨rfl, actsAs_assign acts found updateBlock nonzero⟩
  | none =>
    have absent : m key = 0 := (acts.get key).symm.trans ((find_none_iff acts.inv).mp found)
    rw [absent] at nonzero ⊢
    exact ⟨rfl, actsAs_insert acts absent nonzero⟩

theorem step_acts (t : Table K V n) (m : K →₀ V) (op : Op K V) (acts : ActsAs hash maxSize t m)
    (leaves : LeavesNonzero hash t op) :
    (t.step hash op).1 = (mapStep maxSize m op).1 ∧
      ActsAs hash maxSize (t.step hash op).2 (mapStep maxSize m op).2 := by
  have answers : (t.answerOf hash op).1 = (answerOf maxSize m op).1 ∧
      ActsAs hash maxSize (t.answerOf hash op).2 (answerOf maxSize m op).2 := by
    cases op with
    | get key => exact ⟨congrArg Answer.value (acts.get key), acts⟩
    | set key value previousValue =>
      by_cases matched : ∀ previous ∈ previousValue, previous = m key
      · obtain ⟨stored, acts'⟩ := actsAs_set acts value matched
        simp only [Table.answerOf, answerOf, if_pos matched]
        exact ⟨congrArg Answer.stored (Bool.eq_iff_iff.mpr (stored.trans (by simp))), acts'⟩
      · obtain ⟨previous, rfl, other⟩ := other_of_not_matched matched
        simp only [Table.answerOf, answerOf, if_neg matched, set_refused acts other]
        exact ⟨trivial, acts⟩
    | update key updateBlock =>
      rw [LeavesNonzero, acts.get] at leaves
      obtain ⟨done, acts'⟩ := actsAs_update acts leaves
      refine ⟨congrArg Answer.stored done, ?_⟩
      exact acts'
    | remove key => exact ⟨rfl, (actsAs_set acts 0 (by simp)).2⟩
    | clear => exact ⟨rfl, actsAs_clear acts⟩
  obtain ⟨same, acts⟩ := answers
  exact ⟨congrArg₂ Seen.mk same acts.count, acts⟩

end

/-! ### The list of entries -/

section
variable [DecidableEq K] [Zero V] [Inhabited V] {maxSize : Nat} {m : K →₀ V} {key : K}

structure Lists (maxSize : Nat) (c : SantaCache K V) (m : K →₀ V) : Prop where
  zero : (default : V) = 0
  get : ∀ key, c.get key = m key
  size : c.maxSize = maxSize

variable {c : SantaCache K V}

theorem lists_count (lists : Lists maxSize c m) : c.count = m.support.card := by
  have keys : (c.entries.rows.map Prod.fst).toFinset = m.support := by
    ext key
    rw [List.mem_toFinset, Finsupp.mem_support_iff, ← lists.get, ← lists.zero]
    constructor
    · intro member
      obtain ⟨e, row, same⟩ := List.mem_map.mp member
      rw [SantaCache.get, ← same, KeyedRows.mem_get row]
      exact c.nonzero e row
    · exact SantaCache.mem_keys
  rw [← keys, List.toFinset_card_of_nodup c.entries.unique, List.length_map]
  rfl

theorem lists_found (lists : Lists maxSize c m) {e : K × V} (found : c.entries.get key = some e) :
    m key = e.2 ∧ m key ≠ 0 := by
  have existing : m key = e.2 := by
    rw [← lists.get, SantaCache.get, found]
    rfl
  refine ⟨existing, ?_⟩
  rw [existing, ← lists.zero]
  exact c.nonzero e (KeyedRows.get_mem found)

theorem lists_absent (lists : Lists maxSize c m) (found : c.entries.get key = none) :
    m key = 0 := by
  rw [← lists.get, SantaCache.get, found]
  exact lists.zero

theorem lists_insert (lists : Lists maxSize c m) {value : V} (nonzero : value ≠ default) :
    Lists maxSize (c.insert key value nonzero) (m.update key value) where
  zero := lists.zero
  get := fun key' => by
    rw [SantaCache.get_insert, Finsupp.update_apply, lists.get]
  size := lists.size

theorem lists_erase (lists : Lists maxSize c m) :
    Lists maxSize (c.erase key) (m.update key 0) where
  zero := lists.zero
  get := fun key' => by
    rw [SantaCache.get_erase, Finsupp.update_apply, lists.get, lists.zero]
  size := lists.size

theorem lists_clear (lists : Lists maxSize c m) : Lists maxSize c.clear 0 where
  zero := lists.zero
  get := fun key => by
    rw [SantaCache.get_clear, lists.zero]
    rfl
  size := lists.size

theorem lists_create (lists : Lists maxSize c m) (absent : m key = 0) {value : V}
    (nonzero : value ≠ default) :
    Lists maxSize (if c.maxSize < c.count + 1 then c.clear.insert key value nonzero
      else c.insert key value nonzero) (put maxSize m key value) := by
  rw [lists.size, lists_count lists]
  have written : value ≠ 0 := lists.zero ▸ nonzero
  unfold put
  split
  · rename_i overflow
    rw [if_pos ⟨written, absent, overflow⟩, ← Finsupp.zero_update]
    exact lists_insert (lists_clear lists) nonzero
  · rename_i room
    rw [if_neg fun overflow => room overflow.2.2]
    exact lists_insert lists nonzero

theorem lists_update (lists : Lists maxSize c m) {updateBlock : V → V}
    (nonzero : ∀ value, updateBlock value ≠ default) :
    Lists maxSize (c.update key updateBlock nonzero)
      (put maxSize m key (updateBlock (m key))) := by
  unfold SantaCache.update
  cases found : c.entries.get key with
  | some e =>
    obtain ⟨existing, present⟩ := lists_found lists found
    rw [put_present present, existing]
    exact lists_insert lists (nonzero e.2)
  | none =>
    have absent : m key = 0 := lists_absent lists found
    rw [absent, ← lists.zero]
    exact lists_create lists absent (nonzero default)

variable [DecidableEq V]

theorem lists_set (lists : Lists maxSize c m) (value : V) {previousValue : Option V}
    (matched : ∀ previous ∈ previousValue, previous = m key) :
    ((c.set key value previousValue).1 = true ↔ value ≠ 0 ∨ m key ≠ 0) ∧
      Lists maxSize (c.set key value previousValue).2 (put maxSize m key value) := by
  have same := any_ne_of_matched matched
  unfold SantaCache.set
  cases found : c.entries.get key with
  | some e =>
    obtain ⟨existing, present⟩ := lists_found lists found
    rw [existing] at same
    rw [put_present present]
    simp only [same, Bool.false_eq_true, if_false]
    split
    · rename_i nonzero
      exact ⟨by simp [present], lists_insert lists nonzero⟩
    · rename_i zero
      rw [not_not.mp zero, lists.zero]
      exact ⟨by simp [present], lists_erase lists⟩
  | none =>
    have absent : m key = 0 := lists_absent lists found
    rw [absent, ← lists.zero] at same
    simp only [same, Bool.false_eq_true, if_false]
    split
    · rename_i nonzero
      have written : value ≠ 0 := lists.zero ▸ nonzero
      have created := lists_create lists absent nonzero
      refine ⟨?_, ?_⟩
      · split <;> simp [written]
      · split at created <;> rename_i room
        · rw [if_pos room]
          exact created
        · rw [if_neg room]
          exact created
    · rename_i zero
      rw [not_not.mp zero, lists.zero, put_absent absent]
      exact ⟨by simp [absent], lists⟩

end

section
variable [DecidableEq K] [Zero V] [Inhabited V] {hash : K → Fin n} {maxSize : Nat}
  {t : Table K V n} {c : SantaCache K V} {key : K}

def Alike (hash : K → Fin n) (maxSize : Nat) (t : Table K V n) (c : SantaCache K V) : Prop :=
  ∃ m, ActsAs hash maxSize t m ∧ Lists maxSize c m

theorem alike_new (positive : 1 ≤ maxSize) (zero : (default : V) = 0) :
    Alike hash maxSize (Table.new maxSize) (SantaCache.new maxSize : SantaCache K V) :=
  ⟨0, new_acts positive, zero, fun _ => zero, rfl⟩

theorem alike_seen (alike : Alike hash maxSize t c) (key : K) :
    t.get hash key = c.get key ∧ t.count = c.count := by
  obtain ⟨m, acts, lists⟩ := alike
  exact ⟨(acts.get key).trans (lists.get key).symm, acts.count.trans (lists_count lists).symm⟩

theorem alike_clear (alike : Alike hash maxSize t c) : Alike hash maxSize t.clear c.clear := by
  obtain ⟨m, acts, lists⟩ := alike
  exact ⟨0, actsAs_clear acts, lists_clear lists⟩

variable [DecidableEq V]

/-- A store answers alike and leaves the two alike, whatever its condition. -/
theorem alike_set (alike : Alike hash maxSize t c) (value : V) (previousValue : Option V) :
    (t.store hash key value none previousValue).1 = (c.set key value previousValue).1 ∧
      Alike hash maxSize (t.store hash key value none previousValue).2
        (c.set key value previousValue).2 := by
  obtain ⟨m, acts, lists⟩ := alike
  by_cases matched : ∀ previous ∈ previousValue, previous = m key
  · obtain ⟨stored, acts'⟩ := actsAs_set acts value matched
    obtain ⟨stored', lists'⟩ := lists_set lists value matched
    exact ⟨Bool.eq_iff_iff.mpr (stored.trans stored'.symm), _, acts', lists'⟩
  · obtain ⟨previous, rfl, other⟩ := other_of_not_matched matched
    rw [set_refused acts other, SantaCache.set_refused (lists.get key ▸ Ne.symm other)]
    exact ⟨rfl, m, acts, lists⟩

theorem alike_remove (alike : Alike hash maxSize t c) :
    Alike hash maxSize (t.store hash key 0 none none).2 (c.remove key) := by
  have zero : (default : V) = 0 := by
    obtain ⟨_, _, lists⟩ := alike
    exact lists.zero
  rw [SantaCache.remove, zero]
  exact (alike_set alike 0 none).2

theorem alike_update (alike : Alike hash maxSize t c) {updateBlock : V → V}
    (nonzero : ∀ value, updateBlock value ≠ default) :
    Alike hash maxSize (t.store hash key 0 (some updateBlock) none).2
      (c.update key updateBlock nonzero) := by
  obtain ⟨m, acts, lists⟩ := alike
  have left : updateBlock (m key) ≠ 0 := lists.zero ▸ nonzero (m key)
  exact ⟨_, (actsAs_update acts left).2, lists_update lists nonzero⟩

end

/-! ### Whole runs -/

section
variable [DecidableEq K] [DecidableEq V] [Zero V]

def Sizes.new (sizes : Sizes) : Table K V sizes.bucketCount := Table.new sizes.maximumSize

structure ActsAsMap (sizes : Sizes) (hasher : K → UInt64) (ops : List (Op K V)) : Prop where
  answers : outputs (Table.step (sizes.hash hasher)) sizes.new ops =
    outputs (mapStep sizes.maximumSize) 0 ops
  bounded : ∀ seen ∈ outputs (Table.step (sizes.hash hasher)) sizes.new ops,
    seen.count ≤ sizes.maximumSize

/-- A cache acts as a finite map as long as blocks leave values that are not zero. -/
theorem acts_as_map (sizes : Sizes) (hasher : K → UInt64) {ops : List (Op K V)}
    (leaves : Runs.Meets (next (Table.step (sizes.hash hasher))) (LeavesNonzero (sizes.hash hasher))
      sizes.new ops) : ActsAsMap sizes hasher ops := by
  have start : ActsAs (sizes.hash hasher) sizes.maximumSize sizes.new (0 : K →₀ V) :=
    new_acts sizes.positive
  constructor
  · exact outputs_eq step_acts start leaves
  · have keep : ∀ (t : Table K V sizes.bucketCount) op,
        (∃ m, ActsAs (sizes.hash hasher) sizes.maximumSize t m) →
        LeavesNonzero (sizes.hash hasher) t op →
        (∃ m, ActsAs (sizes.hash hasher) sizes.maximumSize (t.step (sizes.hash hasher) op).2 m) ∧
          (t.step (sizes.hash hasher) op).1.count ≤ sizes.maximumSize := by
      rintro t op ⟨m, acts⟩ leaves
      obtain ⟨-, acts'⟩ := step_acts t m op acts leaves
      exact ⟨⟨_, acts'⟩, acts'.room⟩
    exact outputs_all keep ⟨0, start⟩ leaves

def twoOfThree : List (Op Nat Nat) :=
  [.set 1 10 none, .set 2 20 (some 0), .set 1 11 (some 12), .update 3 (· + 30), .get 1, .remove 3]

def sizesOfTwo : Sizes := ⟨2, 1, by decide, by decide⟩

theorem two_of_three_act : ActsAsMap sizesOfTwo (fun key => UInt64.ofNat key) twoOfThree :=
  acts_as_map sizesOfTwo (fun key => UInt64.ofNat key) (by decide +kernel)

end

end SantaCacheBuckets
