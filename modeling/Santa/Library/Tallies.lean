import Mathlib.Algebra.BigOperators.Group.List.Basic
import Mathlib.Data.List.Nodup

/-!
Tables of values under keys, and caches that are written out to them. A key of a cache
goes to the table under its label; a key without a label stops the writing. Sums under a
label count the cache and the table together, and writing out keeps them; so does the
latest value under a label, where no two keys share one.
-/
namespace Tallies
variable {K L V N : Type}

abbrev Table (K V : Type) := List (K × V)

section tables
variable [DecidableEq K]

def Table.alter (k : K) (f : Option V → V) : Table K V → Table K V
  | [] => [(k, f none)]
  | (k', v) :: rest => if k' = k then (k', f (some v)) :: rest else (k', v) :: alter k f rest

def Table.get : Table K V → K → Option V
  | [], _ => none
  | (k', v) :: rest, k => if k' = k then some v else Table.get rest k

def Table.put (t : Table K V) (k : K) (v : V) : Table K V := t.alter k fun _ => v

def Table.add [Zero N] [Add N] (t : Table K N) (k : K) (n : N) : Table K N :=
  t.alter k fun old => old.getD 0 + n

def Table.total [Zero N] (t : Table K N) (k : K) : N := (t.get k).getD 0

theorem get_alter (t : Table K V) (k : K) (f : Option V → V) (k' : K) :
    (t.alter k f).get k' = if k = k' then some (f (t.get k)) else t.get k' := by
  induction t with
  | nil => rfl
  | cons e rest ih =>
    obtain ⟨key, v⟩ := e
    by_cases same : key = k
    · by_cases here : k = k'
      · simp [Table.alter, Table.get, same, here]
      · simp [Table.alter, Table.get, same, here]
    · by_cases here : key = k'
      · subst key
        have other : k ≠ k' := fun there => same there.symm
        simp only [Table.alter, if_neg same, Table.get, if_true, if_neg other]
      · simp [Table.alter, Table.get, same, here, ih]

theorem alter_keys (t : Table K V) (k : K) (f : Option V → V) :
    (t.alter k f).map Prod.fst =
      if k ∈ t.map Prod.fst then t.map Prod.fst else t.map Prod.fst ++ [k] := by
  induction t with
  | nil => rfl
  | cons e rest ih =>
    obtain ⟨key, v⟩ := e
    by_cases same : key = k
    · simp [Table.alter, same]
    · by_cases later : k ∈ rest.map Prod.fst
      · simp only [Table.alter, if_neg same, List.map_cons, ih, if_pos later,
          if_pos (List.mem_cons_of_mem key later)]
      · have absent : k ∉ key :: rest.map Prod.fst := by
          simp only [List.mem_cons, not_or]
          exact ⟨Ne.symm same, later⟩
        simp only [Table.alter, if_neg same, List.map_cons, ih, if_neg later, if_neg absent,
          List.cons_append]

theorem alter_nodup {t : Table K V} (unique : (t.map Prod.fst).Nodup) (k : K)
    (f : Option V → V) : ((t.alter k f).map Prod.fst).Nodup := by
  rw [alter_keys]
  split
  · exact unique
  · rename_i absent
    exact List.nodup_append.mpr ⟨unique, List.nodup_singleton k, by
      intro a member b single
      rw [List.mem_singleton.mp single]
      exact fun same => absent (same ▸ member)⟩

theorem total_add [AddCommMonoid N] (t : Table K N) (k : K) (n : N) (k' : K) :
    (t.add k n).total k' = t.total k' + if k = k' then n else 0 := by
  simp only [Table.total, Table.add, get_alter]
  by_cases same : k = k'
  · simp [same]
  · simp [same]

end tables

section caches
variable [DecidableEq L]

def writeOut (label : K → Option L) (write : Table L V → L → V → Table L V)
    (cache : Table K V) (out : Table L V) : Option (Table L V) :=
  cache.foldlM (fun out e => (label e.1).map fun l => write out l e.2) out

/-! ### Sums -/

section sums
variable [AddCommMonoid N]

def pending (label : K → Option L) (cache : Table K N) (l : L) : N :=
  (cache.map fun e => if label e.1 = some l then e.2 else 0).sum

theorem pending_add [DecidableEq K] (label : K → Option L) (cache : Table K N) (k : K) (n : N)
    (l : L) : pending label (cache.add k n) l =
      pending label cache l + if label k = some l then n else 0 := by
  induction cache with
  | nil => simp [pending, Table.add, Table.alter]
  | cons e rest ih =>
    obtain ⟨key, v⟩ := e
    simp only [pending, Table.add] at ih
    by_cases same : key = k
    · subst key
      simp only [pending, Table.add, Table.alter, if_true, List.map_cons, List.sum_cons,
        Option.getD_some]
      by_cases labelled : label k = some l
      · simp only [if_pos labelled]
        rw [add_assoc, add_comm n, ← add_assoc]
      · simp only [if_neg labelled, add_zero]
    · simp only [pending, Table.add, Table.alter, if_neg same, List.map_cons, List.sum_cons, ih]
      rw [← add_assoc]

theorem writeOut_total {label : K → Option L} {cache : Table K N} {out out' : Table L N}
    (written : writeOut label Table.add cache out = some out') (l : L) :
    out'.total l = out.total l + pending label cache l := by
  induction cache generalizing out with
  | nil =>
    rw [← Option.some.inj written]
    simp [pending]
  | cons e rest ih =>
    obtain ⟨next, first, later⟩ := Option.bind_eq_some_iff.mp written
    obtain ⟨name, labelled, same⟩ := Option.map_eq_some_iff.mp first
    rw [ih later, ← same, total_add]
    simp only [pending, List.map_cons, List.sum_cons, labelled, Option.some.injEq, add_assoc]

end sums

/-! ### Latest values -/

def latest (label : K → Option L) (cache : Table K V) (out : Table L V) (l : L) : Option V :=
  (cache.findSome? fun e => if label e.1 = some l then some e.2 else none) <|> out.get l

def LabelledApart (label : K → Option L) : Prop :=
  ∀ k k' l, label k = some l → label k' = some l → k = k'

theorem latest_put [DecidableEq K] {label : K → Option L} (apart : LabelledApart label)
    (cache : Table K V) (out : Table L V) (k : K) (v : V) (l : L) :
    latest label (cache.put k v) out l =
      if label k = some l then some v else latest label cache out l := by
  induction cache with
  | nil =>
    by_cases labelled : label k = some l
    · simp [latest, Table.put, Table.alter, labelled]
    · simp [latest, Table.put, Table.alter, labelled]
  | cons e rest ih =>
    obtain ⟨key, old⟩ := e
    simp only [latest, Table.put] at ih
    by_cases same : key = k
    · by_cases labelled : label k = some l
      · simp [latest, Table.put, Table.alter, same, labelled]
      · simp [latest, Table.put, Table.alter, same, labelled]
    · by_cases there : label key = some l
      · have other : label k ≠ some l := fun here => same (apart key k l there here)
        simp [latest, Table.put, Table.alter, same, there, other]
      · simp [latest, Table.put, Table.alter, same, there, ih]

theorem writeOut_latest {label : K → Option L} (apart : LabelledApart label) {cache : Table K V}
    (unique : (cache.map Prod.fst).Nodup) {out out' : Table L V}
    (written : writeOut label Table.put cache out = some out') (l : L) :
    out'.get l = latest label cache out l := by
  induction cache generalizing out with
  | nil =>
    rw [← Option.some.inj written]
    rfl
  | cons e rest ih =>
    obtain ⟨key, v⟩ := e
    obtain ⟨next, first, later⟩ := Option.bind_eq_some_iff.mp written
    obtain ⟨name, labelled, same⟩ := Option.map_eq_some_iff.mp first
    obtain ⟨absent, unique⟩ := List.nodup_cons.mp unique
    rw [ih unique later, ← same, latest, latest, Table.put, get_alter]
    by_cases here : name = l
    · subst name
      have nothing : (rest.findSome? fun e => if label e.1 = some l then some e.2 else none) =
          none := by
        rw [List.findSome?_eq_none_iff]
        intro e member
        refine if_neg fun there => absent ?_
        exact List.mem_map.mpr ⟨e, member, apart e.1 key l there labelled⟩
      rw [nothing, List.findSome?_cons, if_pos labelled]
      simp
    · have other : label key ≠ some l :=
        fun there => here (Option.some.inj (labelled.symm.trans there))
      simp [here, other]

end caches
end Tallies
