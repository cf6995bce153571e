import Mathlib.Algebra.BigOperators.Group.Finset.Basic
import Mathlib.Algebra.Order.BigOperators.Group.Finset
import Mathlib.Data.Fintype.BigOperators
import Santa.Library.Runs

/-!
The hash table of `SantaCache` under several threads. What a thread does while it
holds a bucket's lock is one step. Emptying the table is one step as well: its
locks are all held when the buckets are reset. A store that finds the table full
gives its bucket's lock up, and takes the clear lock, looks at the count again,
empties the table if need be, takes its bucket's lock back and inserts, without
looking for the key again. Recorded for the statement only: which keys a
compare-and-swap has created since they were last removed.
-/
namespace SantaCacheThreads
variable {K V : Type} {n : Nat}

inductive Op (K V : Type) where
  | set (key : K) (value : V) (previousValue : Option V)
  | update (key : K) (updateBlock : V → V)

/-- Where a thread is in a store that found the table full. -/
inductive Thread (K V : Type) where
  | idle
  | overflowing (op : Op K V)
  | locked (op : Op K V)
  | clearing (op : Op K V)
  | relocking (op : Op K V)

structure Table (K V : Type) (n : Nat) where
  maxSize : Nat
  buckets : Fin n → List (K × V)
  count : Nat
  clearBucket : Option Nat
  threads : Nat → Thread K V
  created : K → Bool
  createdTwice : Bool

inductive Label (K V : Type) where
  | get (key : K)
  | call (thread : Nat) (op : Op K V)
  | clear
  | lockClear (thread : Nat)
  | recheck (thread : Nat)
  | clearFull (thread : Nat)
  | relock (thread : Nat)

def Op.key : Op K V → K
  | .set key _ _ => key
  | .update key _ => key

def Op.compares : Op K V → Bool
  | .set _ _ previousValue => previousValue.isSome
  | .update _ _ => false

section
variable [DecidableEq K]

def setFirst (key : K) (block : V → V) : List (K × V) → List (K × V)
  | [] => []
  | e :: rest => if e.1 = key then (e.1, block e.2) :: rest else e :: setFirst key block rest

namespace Table

def new (maxSize : Nat) : Table K V n :=
  ⟨maxSize, fun _ => [], 0, none, fun _ => .idle, fun _ => false, false⟩

def setThread (t : Table K V n) (id : Nat) (thread : Thread K V) : Table K V n :=
  { t with threads := Function.update t.threads id thread }

def setBucket (t : Table K V n) (i : Fin n) (bucket : List (K × V)) : Table K V n :=
  { t with buckets := Function.update t.buckets i bucket }

def clear (t : Table K V n) : Table K V n :=
  { t with buckets := fun _ => [], count := 0, created := fun _ => false }

def full (t : Table K V n) : Bool := decide (t.maxSize < t.count + 1)

end Table

variable [DecidableEq V] [Inhabited V]

/-- Storing zero has nothing to remove, and a previous value that is not zero is not there. -/
def Op.refusesAbsent : Op K V → Bool
  | .set _ value previousValue => decide (value = default) || previousValue.any (· ≠ default)
  | .update _ _ => false

def Op.newValue : Op K V → V
  | .set _ value _ => value
  | .update _ updateBlock => updateBlock default

variable (hash : K → Fin n)

namespace Table

def create (t : Table K V n) (op : Op K V) : Table K V n :=
  { t.setBucket (hash op.key) ((op.key, op.newValue) :: t.buckets (hash op.key)) with
    count := t.count + 1
    created := if op.compares then Function.update t.created op.key true else t.created
    createdTwice := t.createdTwice || (op.compares && t.created op.key) }

def delete (t : Table K V n) (key : K) : Table K V n :=
  { t.setBucket (hash key) ((t.buckets (hash key)).eraseP fun e => e.1 = key) with
    count := t.count - 1
    created := Function.update t.created key false }

def enter (t : Table K V n) (id : Nat) (op : Op K V) : Table K V n :=
  let bucket := t.buckets (hash op.key)
  match bucket.find? fun e => e.1 = op.key with
  | some (_, existingValue) =>
      match op with
      | .update key updateBlock => t.setBucket (hash key) (setFirst key updateBlock bucket)
      | .set key value previousValue =>
          if previousValue.any (· ≠ existingValue) then t
          else if value = default then t.delete hash key
          else t.setBucket (hash key) (setFirst key (fun _ => value) bucket)
  | none =>
      if op.refusesAbsent then t
      else if t.full then t.setThread id (.overflowing op)
      else t.create hash op

end Table

def step (t : Table K V n) : Label K V → Option (Table K V n)
  | .get _ => some t
  | .call id op =>
      match t.threads id with
      | .idle => some (t.enter hash id op)
      | _ => none
  | .clear => some t.clear
  | .lockClear id =>
      match t.threads id, t.clearBucket with
      | .overflowing op, none => some { t.setThread id (.locked op) with clearBucket := some id }
      | _, _ => none
  | .recheck id =>
      match t.threads id with
      | .locked op => some (t.setThread id (if t.full then .clearing op else .relocking op))
      | _ => none
  | .clearFull id =>
      match t.threads id with
      | .clearing op => some (t.clear.setThread id (.relocking op))
      | _ => none
  | .relock id =>
      match t.threads id with
      | .relocking op => some { (t.create hash op).setThread id .idle with clearBucket := none }
      | _ => none

end

/-! ### What is to hold -/

namespace Table

def total (t : Table K V n) : Nat := ∑ i, (t.buckets i).length

def keys (t : Table K V n) (i : Fin n) : List K := (t.buckets i).map Prod.fst

def copies [DecidableEq K] (t : Table K V n) (key : K) : Nat := ∑ i, (t.keys i).count key

end Table

/-- There is one entry for a key at most, the count is that of the entries, and no two
    compare-and-swaps have created one key with no removal between them. -/
structure Sound [DecidableEq K] (t : Table K V n) : Prop where
  oneEntry : ∀ key, t.copies key ≤ 1
  counted : t.count = t.total
  createdOnce : t.createdTwice = false

def RelocksAbsent (hash : K → Fin n) (t : Table K V n) (l : Label K V) : Prop :=
  ∀ id op, l = .relock id → t.threads id = .relocking op → op.key ∉ t.keys (hash op.key)

/-! ### Entries and keys -/

section
variable {t u : Table K V n} {i : Fin n} {bucket : List (K × V)}

theorem total_setBucket (t : Table K V n) (i : Fin n) (bucket : List (K × V)) :
    (t.setBucket i bucket).total + (t.buckets i).length = t.total + bucket.length := by
  unfold Table.total Table.setBucket
  have others : ∀ j ∈ Finset.univ.erase i,
      (Function.update t.buckets i bucket j).length = (t.buckets j).length := by
    intro j member
    rw [Function.update_of_ne (Finset.ne_of_mem_erase member)]
  rw [← Finset.add_sum_erase _ _ (Finset.mem_univ i), Finset.sum_congr rfl others,
    ← Finset.add_sum_erase Finset.univ (fun j => (t.buckets j).length) (Finset.mem_univ i)]
  simp only [Function.update_self]
  omega

theorem keys_setBucket (t : Table K V n) (i j : Fin n) (bucket : List (K × V)) :
    (t.setBucket i bucket).keys j = if j = i then bucket.map Prod.fst else t.keys j := by
  simp only [Table.keys, Table.setBucket]
  by_cases same : j = i
  · rw [if_pos same, same, Function.update_self]
  · rw [if_neg same, Function.update_of_ne same]

theorem keys_setFirst [DecidableEq K] (key : K) (block : V → V) (bucket : List (K × V)) :
    (setFirst key block bucket).map Prod.fst = bucket.map Prod.fst := by
  induction bucket with
  | nil => rfl
  | cons e rest ih =>
    unfold setFirst
    by_cases same : e.1 = key
    · rw [if_pos same]
      rfl
    · rw [if_neg same, List.map_cons, List.map_cons, ih]

theorem length_setFirst [DecidableEq K] (key : K) (block : V → V) (bucket : List (K × V)) :
    (setFirst key block bucket).length = bucket.length := by
  rw [← List.length_map Prod.fst, keys_setFirst, List.length_map]

end

/-! ### One step -/

structure Inv (hash : K → Fin n) (t : Table K V n) : Prop where
  unique : ∀ i, (t.keys i).Nodup
  placed : ∀ i, ∀ key ∈ t.keys i, hash key = i
  counted : t.count = t.total
  created : ∀ key, t.created key = true → key ∈ t.keys (hash key)
  createdOnce : t.createdTwice = false

section
variable {hash : K → Fin n} {t u : Table K V n} {l : Label K V}

theorem inv_new (maxSize : Nat) : Inv hash (Table.new maxSize : Table K V n) := by
  constructor
  · exact fun _ => List.nodup_nil
  · exact fun _ _ member => nomatch member
  · exact (Finset.sum_const_zero).symm
  · exact fun _ created => nomatch created
  · rfl

theorem inv_clear (inv : Inv hash t) : Inv hash t.clear := by
  constructor
  · exact fun _ => List.nodup_nil
  · exact fun _ _ member => nomatch member
  · exact (Finset.sum_const_zero).symm
  · exact fun _ created => nomatch created
  · exact inv.createdOnce

theorem inv_table (inv : Inv hash t) (buckets : u.buckets = t.buckets) (count : u.count = t.count)
    (created : u.created = t.created) (createdTwice : u.createdTwice = t.createdTwice) :
    Inv hash u := by
  have keys : ∀ i, u.keys i = t.keys i := fun i => by rw [Table.keys, buckets, Table.keys]
  constructor
  · exact fun i => keys i ▸ inv.unique i
  · exact fun i key member => inv.placed i key (keys i ▸ member)
  · rw [count, inv.counted, Table.total, Table.total, buckets]
  · intro key made
    rw [keys]
    exact inv.created key (created ▸ made)
  · exact createdTwice.trans inv.createdOnce

variable [DecidableEq K]

theorem copies_eq (placed : ∀ i, ∀ key ∈ t.keys i, hash key = i) (key : K) :
    t.copies key = (t.keys (hash key)).count key := by
  refine Finset.sum_eq_single (hash key) ?_ fun absent => absurd (Finset.mem_univ _) absent
  intro i _ other
  refine List.count_eq_zero.mpr ?_
  intro member
  exact other (placed i key member).symm

theorem sound_of_inv (inv : Inv hash t) : Sound t := by
  refine ⟨?_, inv.counted, inv.createdOnce⟩
  intro key
  rw [copies_eq inv.placed]
  exact List.nodup_iff_count_le_one.mp (inv.unique _) key

theorem inv_setFirst (inv : Inv hash t) (key : K) (block : V → V) :
    Inv hash (t.setBucket (hash key) (setFirst key block (t.buckets (hash key)))) := by
  have keys : ∀ i, (t.setBucket (hash key) (setFirst key block (t.buckets (hash key)))).keys i =
      t.keys i := by
    intro i
    rw [keys_setBucket, keys_setFirst]
    split
    · rename_i same
      rw [same, Table.keys]
    · rfl
  constructor
  · exact fun i => keys i ▸ inv.unique i
  · exact fun i key' member => inv.placed i key' (keys i ▸ member)
  · have total := total_setBucket t (hash key) (setFirst key block (t.buckets (hash key)))
    rw [length_setFirst] at total
    exact inv.counted.trans (Nat.add_right_cancel total).symm
  · intro key' made
    rw [keys]
    exact inv.created key' made
  · exact inv.createdOnce

theorem inv_delete (inv : Inv hash t) {key : K} (present : key ∈ t.keys (hash key)) :
    Inv hash (t.delete hash key) := by
  have keys : ∀ i, (t.delete hash key).keys i = if i = hash key then
      ((t.buckets (hash key)).eraseP fun e => e.1 = key).map Prod.fst else t.keys i :=
    fun i => keys_setBucket t (hash key) i _
  have fewer : ∀ i, (t.delete hash key).keys i |>.Sublist (t.keys i) := by
    intro i
    rw [keys]
    split
    · rename_i same
      rw [same]
      exact List.Sublist.map Prod.fst List.eraseP_sublist
    · exact List.Sublist.refl _
  obtain ⟨e, member, named⟩ := List.mem_map.mp present
  constructor
  · exact fun i => (inv.unique i).sublist (fewer i)
  · exact fun i key' member => inv.placed i key' ((fewer i).subset member)
  · have total := total_setBucket t (hash key) ((t.buckets (hash key)).eraseP fun e => e.1 = key)
    have erased := List.length_eraseP_of_mem member (p := fun e => e.1 = key) (by simp [named])
    have some := List.length_pos_of_mem member
    have counted := inv.counted
    show t.count - 1 = (t.setBucket (hash key) _).total
    omega
  · intro key' made
    by_cases same : key' = key
    · simp [Table.delete, same] at made
    · have kept : t.created key' = true := by
        simpa [Table.delete, Function.update_of_ne same] using made
      have before := inv.created key' kept
      rw [keys]
      split
      · rename_i bucket
        rw [bucket] at before
        obtain ⟨e', member', named'⟩ := List.mem_map.mp before
        refine List.mem_map.mpr ⟨e', ?_, named'⟩
        exact (List.mem_eraseP_of_neg (by simp [named', same])).mpr member'
      · exact before
  · exact inv.createdOnce

variable [Inhabited V]

theorem inv_create (inv : Inv hash t) {op : Op K V} (absent : op.key ∉ t.keys (hash op.key)) :
    Inv hash (t.create hash op) := by
  have keys : ∀ i, (t.create hash op).keys i = if i = hash op.key then
      op.key :: t.keys (hash op.key) else t.keys i :=
    fun i => keys_setBucket t (hash op.key) i _
  have uncreated : t.created op.key = false := by
    cases made : t.created op.key with
    | false => rfl
    | true => exact absurd (inv.created op.key made) absent
  constructor
  · intro i
    rw [keys]
    split
    · exact List.nodup_cons.mpr ⟨absent, inv.unique _⟩
    · exact inv.unique i
  · intro i key member
    rw [keys] at member
    split at member
    · rename_i bucket
      rcases List.mem_cons.mp member with new | old
      · rw [new, bucket]
      · rw [bucket]
        exact inv.placed _ key old
    · exact inv.placed i key member
  · have total := total_setBucket t (hash op.key)
      ((op.key, op.newValue) :: t.buckets (hash op.key))
    rw [List.length_cons] at total
    have counted := inv.counted
    show t.count + 1 = (t.setBucket (hash op.key) _).total
    omega
  · intro key made
    rw [keys]
    by_cases same : key = op.key
    · rw [same, if_pos rfl]
      exact List.mem_cons_self
    · have kept : t.created key = true := by
        simp only [Table.create] at made
        split at made
        · rwa [Function.update_of_ne same] at made
        · exact made
      have before := inv.created key kept
      split
      · rename_i bucket
        rw [bucket] at before
        exact List.mem_cons_of_mem _ before
      · exact before
  · show (t.createdTwice || (op.compares && t.created op.key)) = false
    rw [inv.createdOnce, uncreated, Bool.and_false]
    rfl

theorem create_copies {op : Op K V} (present : op.key ∈ t.keys (hash op.key)) :
    1 < (t.create hash op).copies op.key := by
  have keys : (t.create hash op).keys (hash op.key) = op.key :: t.keys (hash op.key) :=
    (keys_setBucket t (hash op.key) (hash op.key) _).trans (if_pos rfl)
  have bucket : 1 < ((t.create hash op).keys (hash op.key)).count op.key := by
    rw [keys, List.count_cons_self]
    exact Nat.succ_lt_succ (List.count_pos_iff.mpr present)
  exact Nat.lt_of_lt_of_le bucket (Finset.single_le_sum
    (f := fun i => ((t.create hash op).keys i).count op.key) (fun _ _ => Nat.zero_le _)
    (Finset.mem_univ (hash op.key)))

variable [DecidableEq V]

theorem inv_enter (inv : Inv hash t) (id : Nat) (op : Op K V) : Inv hash (t.enter hash id op) := by
  unfold Table.enter
  simp only
  cases found : (t.buckets (hash op.key)).find? fun e => e.1 = op.key with
  | some e =>
    cases op with
    | update key updateBlock => exact inv_setFirst inv key updateBlock
    | set key value previousValue =>
      have named := List.find?_some found
      have present : key ∈ t.keys (hash key) :=
        List.mem_map.mpr ⟨e, List.mem_of_find?_eq_some found, of_decide_eq_true named⟩
      simp only
      split
      · exact inv
      · split
        · exact inv_delete inv present
        · exact inv_setFirst inv key _
  | none =>
    have absent : op.key ∉ t.keys (hash op.key) := by
      intro member
      obtain ⟨e, member, named⟩ := List.mem_map.mp member
      exact absurd named (by simpa using List.find?_eq_none.mp found e member)
    simp only
    split
    · exact inv
    · split
      · exact inv_table inv rfl rfl rfl rfl
      · exact inv_create inv absent

theorem inv_step (inv : Inv hash t) (met : RelocksAbsent hash t l)
    (h : step hash t l = some u) : Inv hash u := by
  cases l with
  | get key =>
    rw [← Option.some.inj h]
    exact inv
  | call id op =>
    simp only [step] at h
    split at h
    · rw [← Option.some.inj h]
      exact inv_enter inv id op
    · exact nomatch h
  | clear =>
    rw [← Option.some.inj h]
    exact inv_clear inv
  | lockClear id =>
    simp only [step] at h
    split at h
    · rw [← Option.some.inj h]
      exact inv_table inv rfl rfl rfl rfl
    · exact nomatch h
  | recheck id =>
    simp only [step] at h
    split at h
    · rw [← Option.some.inj h]
      exact inv_table inv rfl rfl rfl rfl
    · exact nomatch h
  | clearFull id =>
    simp only [step] at h
    split at h
    · rw [← Option.some.inj h]
      exact inv_table (inv_clear inv) rfl rfl rfl rfl
    · exact nomatch h
  | relock id =>
    simp only [step] at h
    split at h
    · rename_i op waits
      rw [← Option.some.inj h]
      exact inv_table (inv_create inv (met id op rfl waits)) rfl rfl rfl rfl
    · exact nomatch h

/-- In every run of a new table: it stays sound, exactly when each store that has found it full
    finds no entry for its key once it has its bucket's lock back. -/
theorem sound_iff (hash : K → Fin n) (maxSize : Nat) (run : List (Label K V)) :
    Runs.Always (step hash) Sound (.new maxSize) run ↔
      Runs.Meets (step hash) (RelocksAbsent hash) (.new maxSize) run := by
  refine Runs.always_iff_meets (Inv hash) (fun _ => sound_of_inv) (fun _ _ _ => inv_step) ?_
    (inv_new maxSize) run
  intro t l u _ unmet h sound
  simp only [RelocksAbsent, not_forall, not_not] at unmet
  obtain ⟨id, op, label, waits, present⟩ := unmet
  subst label
  simp only [step, waits, Option.some.injEq] at h
  have twice := create_copies present
  have once := sound.oneEntry op.key
  rw [← h] at once
  exact absurd twice (Nat.not_lt.mpr once)

end

/-! ### Two threads that found the table full -/

/-- The second one finds room, since the first has emptied the table, and its key, which it does
    not look for. -/
def bothCreateRun : List (Label Nat Nat) :=
  [.call 0 (.set 1 5 none), .call 0 (.set 2 5 none),
    .call 1 (.set 3 7 (some 0)), .call 2 (.set 3 8 (some 0)),
    .lockClear 1, .recheck 1, .clearFull 1, .relock 1,
    .lockClear 2, .recheck 2, .relock 2]

theorem both_compare_and_swaps_create :
    ¬ Runs.Always (step fun _ => (0 : Fin 1)) Sound (.new 2) bothCreateRun := by
  intro always
  have facts : (Runs.run (step fun _ => (0 : Fin 1)) (.new 2) bothCreateRun).map (fun t =>
      (t.buckets 0, t.createdTwice)) = some ([(3, 8), (3, 7)], true) := by
    decide
  obtain ⟨t, ends, facts⟩ := Option.map_eq_some_iff.mp facts
  have once := (Runs.always_last always ends).createdOnce
  rw [(Prod.mk.inj facts).2] at once
  exact nomatch once

end SantaCacheThreads
