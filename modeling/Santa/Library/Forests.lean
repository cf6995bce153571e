import Mathlib.Data.List.Perm.Subperm
import Mathlib.Data.List.Nodup

/-!
Nodes that name their parents by keys, and a descent from the nodes whose parent is the root
key. The descent inserts a node, then its children one after the other, each with what its
parent was inserted as. Parents may form cycles; the descent does not come to these. It visits
every node from which parents lead to the root key, once, and it ends.
-/
namespace Forests
variable {K N S R : Type}

abbrev Entries (K N : Type) := List (K × N)

/-- No two nodes have one key, and none has that of the root. -/
structure Keyed (key : N → K) (entries : Entries K N) (root : K) : Prop where
  unique : (entries.map fun e => key e.2).Nodup
  rootless : ∀ e ∈ entries, key e.2 ≠ root

theorem node_eq {key : N → K} {entries : Entries K N} {root : K}
    (keyed : Keyed key entries root) {e f : K × N} (first : e ∈ entries)
    (second : f ∈ entries) (same : key e.2 = key f.2) : e = f :=
  List.inj_on_of_nodup_map keyed.unique first second same

def insert (children : N → List N) (act : S → Option R → N → Option (S × R)) :
    Nat → S → Option R → N → Option S
  | 0, _, _, _ => none
  | depth + 1, s, parent, n =>
      (act s parent n).bind fun (s, r) =>
        (children n).foldlM (fun s c => insert children act depth s (some r) c) s

def Hangs (key : N → K) (root : K) (Rep : S → N → R → Prop) (visited : List N) (s : S)
    (parent : Option R) (p : K) : Prop :=
  (p = root ∧ parent = none) ∨ ∃ m ∈ visited, ∃ r, key m = p ∧ parent = some r ∧ Rep s m r

theorem Hangs.kept {key : N → K} {root : K} {Rep : S → N → R → Prop} {visited new : List N}
    {s s' : S} {parent : Option R} {p : K}
    (hangs : Hangs key root Rep visited s parent p)
    (kept : ∀ m ∈ visited, ∀ r, Rep s m r → Rep s' m r) :
    Hangs key root Rep (visited ++ new) s' parent p := by
  rcases hangs with top | ⟨m, member, r, same, is, rep⟩
  · exact .inl top
  · exact .inr ⟨m, List.mem_append_left new member, r, same, is, kept m member r rep⟩

variable [DecidableEq K]

def children (entries : Entries K N) (k : K) : List N :=
  (entries.filter fun e => e.1 = k).map Prod.snd

section parents
variable (key : N → K) (entries : Entries K N)

def parentOf (k : K) : Option K := (entries.find? fun e => key e.2 = k).map Prod.fst

def up : Nat → K → Option K
  | 0, k => some k
  | j + 1, k => (parentOf key entries k).bind (up j)

end parents

def Grounded (key : N → K) (entries : Entries K N) (root : K) (k : K) : Prop :=
  ∃ d, up key entries d k = some root

section keyed
variable {key : N → K} {entries : Entries K N} {root : K}

theorem parentOf_entry (keyed : Keyed key entries root) {e : K × N} (member : e ∈ entries) :
    parentOf key entries (key e.2) = some e.1 := by
  have unique := keyed.unique
  unfold parentOf
  clear keyed
  induction entries with
  | nil => cases member
  | cons f rest ih =>
    obtain ⟨absent, unique⟩ := List.nodup_cons.mp unique
    rcases List.mem_cons.mp member with same | later
    · simp [same]
    · have other : key f.2 ≠ key e.2 :=
        fun same => absent (List.mem_map.mpr ⟨e, later, same.symm⟩)
      rw [List.find?_cons_of_neg (by simpa using other)]
      exact ih later unique

theorem parentOf_root (keyed : Keyed key entries root) : parentOf key entries root = none := by
  unfold parentOf
  rw [Option.map_eq_none_iff, List.find?_eq_none]
  exact fun e member => by simpa using keyed.rootless e member

theorem parentOf_some {k p : K} (found : parentOf key entries k = some p) :
    ∃ n, (p, n) ∈ entries ∧ key n = k := by
  obtain ⟨e, first, same⟩ := Option.map_eq_some_iff.mp found
  exact ⟨e.2, same ▸ List.mem_of_find?_eq_some first, by simpa using List.find?_some first⟩

theorem mem_children {k : K} {n : N} : n ∈ children entries k ↔ (k, n) ∈ entries := by
  simp [children]

theorem children_nodup (keyed : Keyed key entries root) (k : K) :
    (children entries k).Nodup := by
  have nodes : (entries.map Prod.snd).Nodup :=
    List.Nodup.of_map key (by rw [List.map_map]; exact keyed.unique)
  exact nodes.sublist (List.Sublist.map Prod.snd List.filter_sublist)

theorem up_add (i j : Nat) (k : K) :
    up key entries (i + j) k = (up key entries i k).bind (up key entries j) := by
  induction i generalizing k with
  | zero => simp [up]
  | succ i ih =>
    rw [Nat.succ_add]
    simp only [up]
    cases parentOf key entries k with
    | none => rfl
    | some p => exact ih p

theorem up_root (keyed : Keyed key entries root) (j : Nat) :
    up key entries (j + 1) root = none := by
  simp [up, parentOf_root keyed]

theorem acyclic (keyed : Keyed key entries root) {k : K} (grounded : Grounded key entries root k)
    (m : Nat) : up key entries (m + 1) k ≠ some k := by
  intro cycle
  obtain ⟨d, reaches⟩ := grounded
  have rounds : ∀ j, up key entries (j * (m + 1)) k = some k := by
    intro j
    induction j with
    | zero => rw [Nat.zero_mul]; rfl
    | succ j ih => rw [Nat.succ_mul, up_add, ih]; exact cycle
  have long : (d + 1) * (m + 1) = d + (m + d * m + 1) := by
    rw [Nat.succ_mul, Nat.mul_succ]
    omega
  have past := rounds (d + 1)
  rw [long, up_add, reaches] at past
  exact Option.some_ne_none k (past.symm.trans (up_root keyed _))

theorem up_entry {j : Nat} {k p : K} (above : up key entries j k = some p) (d : Nat)
    (lower : d < j) : ∃ q n, up key entries d k = some (key n) ∧ (q, n) ∈ entries := by
  obtain ⟨t, rfl⟩ := Nat.exists_eq_add_of_lt lower
  rw [show d + t + 1 = d + (t + 1) from rfl, up_add] at above
  obtain ⟨x, here, rest⟩ := Option.bind_eq_some_iff.mp above
  obtain ⟨q, found, _⟩ := Option.bind_eq_some_iff.mp rest
  obtain ⟨n, member, same⟩ := parentOf_some found
  exact ⟨q, n, same ▸ here, member⟩

theorem depth_le (keyed : Keyed key entries root) {d : Nat} {k : K}
    (reaches : up key entries d k = some root) : d ≤ entries.length := by
  let way := (List.range d).map fun j => up key entries j k
  have distinct : way.Nodup := by
    refine List.Nodup.map_on ?_ List.nodup_range
    intro i hi j hj same
    rw [List.mem_range] at hi hj
    -- Between two equal keys on the way there would be a cycle.
    have apart : ∀ i j, i < j → j < d → up key entries i k ≠ up key entries j k := by
      intro i j less below equal
      obtain ⟨q, n, there, _⟩ := up_entry reaches i (Nat.lt_trans less below)
      obtain ⟨t, rfl⟩ := Nat.exists_eq_add_of_lt less
      rw [show i + t + 1 = i + (t + 1) from rfl, up_add, there] at equal
      have grounded : Grounded key entries root (key n) := by
        refine ⟨d - i, ?_⟩
        have whole := reaches
        rw [show d = i + (d - i) by omega, up_add, there] at whole
        exact whole
      exact acyclic keyed grounded t equal.symm
    rcases Nat.lt_trichotomy i j with less | same' | less
    · exact absurd same (apart i j less hj)
    · exact same'
    · exact absurd same.symm (apart j i less hi)
  have inside : way ⊆ entries.map fun e => some (key e.2) := by
    intro x member
    obtain ⟨j, below, rfl⟩ := List.mem_map.mp member
    obtain ⟨q, n, there, entry⟩ := up_entry reaches j (List.mem_range.mp below)
    exact List.mem_map.mpr ⟨(q, n), entry, there.symm⟩
  simpa [way] using (distinct.subperm inside).length_le

/-! ### Who is below whom -/

def Below (key : N → K) (entries : Entries K N) (n x : N) : Prop :=
  x ∈ entries.map Prod.snd ∧ ∃ j, up key entries j (key x) = some (key n)

theorem below_iff (keyed : Keyed key entries root) {p : K} {n : N} (entry : (p, n) ∈ entries)
    (x : N) : Below key entries n x ↔
      x = n ∨ ∃ c ∈ children entries (key n), Below key entries c x := by
  constructor
  · rintro ⟨member, j, above⟩
    cases j with
    | zero =>
      obtain ⟨e, there, same⟩ := List.mem_map.mp member
      have equal : key e.2 = key n := by rw [same]; exact Option.some.inj above
      have node := node_eq keyed there entry equal
      exact .inl (same.symm.trans (congrArg Prod.snd node))
    | succ j =>
      rw [up_add] at above
      obtain ⟨k, below, last⟩ := Option.bind_eq_some_iff.mp above
      obtain ⟨q, found, same⟩ := Option.bind_eq_some_iff.mp last
      obtain ⟨c, child, rfl⟩ := parentOf_some found
      cases same
      exact .inr ⟨c, mem_children.mpr child, member, j, below⟩
  · rintro (rfl | ⟨c, child, member, j, above⟩)
    · exact ⟨List.mem_map.mpr ⟨_, entry, rfl⟩, 0, rfl⟩
    · refine ⟨member, j + 1, ?_⟩
      rw [up_add, above]
      simp [up, parentOf_entry keyed (mem_children.mp child)]

theorem below_grounded (keyed : Keyed key entries root) (x : N) :
    (∃ c ∈ children entries root, Below key entries c x) ↔
      x ∈ entries.map Prod.snd ∧ Grounded key entries root (key x) := by
  constructor
  · rintro ⟨c, child, member, j, above⟩
    refine ⟨member, j + 1, ?_⟩
    rw [up_add, above]
    simp [up, parentOf_entry keyed (mem_children.mp child)]
  · rintro ⟨member, d, reaches⟩
    obtain ⟨e, there, rfl⟩ := List.mem_map.mp member
    cases d with
    | zero => exact absurd (Option.some.inj reaches) (keyed.rootless e there)
    | succ d =>
      rw [up_add] at reaches
      obtain ⟨k, below, last⟩ := Option.bind_eq_some_iff.mp reaches
      obtain ⟨q, found, same⟩ := Option.bind_eq_some_iff.mp last
      obtain ⟨c, child, rfl⟩ := parentOf_some found
      cases same
      exact ⟨c, mem_children.mpr child, member, d, below⟩

theorem below_apart (keyed : Keyed key entries root) {k : K}
    (grounded : Grounded key entries root k) {c c' x : N} (first : c ∈ children entries k)
    (second : c' ∈ children entries k) (below : Below key entries c x)
    (below' : Below key entries c' x) : c = c' := by
  have parent := parentOf_entry keyed (mem_children.mp first)
  have parent' := parentOf_entry keyed (mem_children.mp second)
  obtain ⟨_, i, above⟩ := below
  obtain ⟨_, j, above'⟩ := below'
  have never : ∀ {a b : N} (t : Nat), parentOf key entries (key a) = some k →
      parentOf key entries (key b) = some k → up key entries (t + 1) (key a) ≠ some (key b) := by
    intro a b t pa pb past
    have cycle : up key entries (t + 1) k = some k := by
      simp only [up, pa, Option.bind_some] at past
      rw [up_add, past]
      simp [up, pb]
    exact acyclic keyed grounded t cycle
  rcases Nat.lt_trichotomy i j with less | same | less
  · obtain ⟨t, rfl⟩ := Nat.exists_eq_add_of_lt less
    rw [show i + t + 1 = i + (t + 1) from rfl, up_add, above] at above'
    exact absurd above' (never t parent parent')
  · rw [same, above'] at above
    have equal := node_eq keyed (mem_children.mp second) (mem_children.mp first)
      (Option.some.inj above)
    exact (congrArg Prod.snd equal).symm
  · obtain ⟨t, rfl⟩ := Nat.exists_eq_add_of_lt less
    rw [show j + t + 1 = j + (t + 1) from rfl, up_add, above'] at above
    exact absurd above (never t parent' parent)

theorem not_below_child (keyed : Keyed key entries root) {n c : N}
    (grounded : Grounded key entries root (key n)) (child : c ∈ children entries (key n)) :
    ¬ Below key entries c n := by
  rintro ⟨_, j, above⟩
  refine acyclic keyed grounded j ?_
  rw [up_add, above]
  simp [up, parentOf_entry keyed (mem_children.mp child)]

/-! ### The rule for descents -/

section rule
variable {act : S → Option R → N → Option (S × R)} {Inv : List N → S → Prop}
  {Rep : S → N → R → Prop}

/-- Inserting a node that is not there yet keeps the invariant and what the others were inserted
    as. -/
def Inserts (key : N → K) (entries : Entries K N) (root : K)
    (act : S → Option R → N → Option (S × R)) (Inv : List N → S → Prop)
    (Rep : S → N → R → Prop) : Prop :=
  ∀ visited s parent p n, Inv visited s → (p, n) ∈ entries → n ∉ visited →
    Hangs key root Rep visited s parent p →
      ∃ s' r, act s parent n = some (s', r) ∧ Inv (visited ++ [n]) s' ∧ Rep s' n r ∧
        ∀ m ∈ visited, ∀ r', Rep s m r' → Rep s' m r'

structure Visits (Inv : List N → S → Prop) (Rep : S → N → R → Prop) (visited : List N) (s : S)
    (kind : N → Prop) (new : List N) (s' : S) : Prop where
  inv : Inv (visited ++ new) s'
  mem : ∀ x, x ∈ new ↔ kind x
  nodup : new.Nodup
  kept : ∀ m ∈ visited, ∀ r, Rep s m r → Rep s' m r

theorem insert_list (keyed : Keyed key entries root) {p : K}
    (grounded : Grounded key entries root p) {depth : Nat} {parent : Option R}
    (each : ∀ c ∈ children entries p, ∀ visited s, Inv visited s →
      (∀ x ∈ visited, ¬ Below key entries c x) → Hangs key root Rep visited s parent p →
        ∃ s' new, insert (fun n => children entries (key n)) act depth s parent c = some s' ∧
          Visits Inv Rep visited s (Below key entries c) new s')
    (cs : List N) (sub : cs ⊆ children entries p) (distinct : cs.Nodup) :
    ∀ visited s, Inv visited s → (∀ c ∈ cs, ∀ x ∈ visited, ¬ Below key entries c x) →
      Hangs key root Rep visited s parent p →
        ∃ s' new, cs.foldlM (fun s c =>
            insert (fun n => children entries (key n)) act depth s parent c) s = some s' ∧
          Visits Inv Rep visited s (fun x => ∃ c ∈ cs, Below key entries c x) new s' := by
  induction cs with
  | nil =>
    intro visited s inv _ _
    exact ⟨s, [], rfl, by rw [List.append_nil]; exact inv, by simp, .nil, fun _ _ _ rep => rep⟩
  | cons c cs ih =>
    intro visited s inv fresh hangs
    obtain ⟨absent, distinct⟩ := List.nodup_cons.mp distinct
    obtain ⟨child, others⟩ := List.cons_subset.mp sub
    obtain ⟨m, first, inserted, visits⟩ :=
      each c child visited s inv (fresh c List.mem_cons_self) hangs
    have apart : ∀ c' ∈ cs, ∀ x, Below key entries c x → ¬ Below key entries c' x :=
      fun c' later x below below' => absent
        (below_apart keyed grounded child (others later) below below' ▸ later)
    have fresh' : ∀ c' ∈ cs, ∀ x ∈ visited ++ first, ¬ Below key entries c' x := by
      intro c' later x member
      rcases List.mem_append.mp member with before | new
      · exact fresh c' (List.mem_cons_of_mem c later) x before
      · exact apart c' later x ((visits.mem x).mp new)
    obtain ⟨s', rest, done, visits'⟩ := ih others distinct (visited ++ first) m visits.inv fresh'
      (hangs.kept visits.kept)
    refine ⟨s', first ++ rest, ?_, ?_, fun x => ?_, ?_, fun n member r rep => ?_⟩
    · rw [List.foldlM_cons, inserted]
      exact done
    · rw [← List.append_assoc]
      exact visits'.inv
    · simp only [List.mem_append, visits.mem, visits'.mem, List.mem_cons, exists_eq_or_imp]
    · refine List.nodup_append.mpr ⟨visits.nodup, visits'.nodup, fun a here b there same => ?_⟩
      obtain ⟨c', later, below⟩ := (visits'.mem b).mp there
      exact apart c' later b (same ▸ (visits.mem a).mp here) below
    · exact visits'.kept n (List.mem_append_left first member) r (visits.kept n member r rep)

theorem insert_below (keyed : Keyed key entries root)
    (inserts : Inserts key entries root act Inv Rep) (depth : Nat) :
    ∀ (p : K) (n : N) (d : Nat), (p, n) ∈ entries → up key entries d p = some root →
      entries.length < depth + d → ∀ visited s parent, Inv visited s →
      (∀ x ∈ visited, ¬ Below key entries n x) → Hangs key root Rep visited s parent p →
        ∃ s' new, insert (fun n => children entries (key n)) act depth s parent n = some s' ∧
          Visits Inv Rep visited s (Below key entries n) new s' := by
  induction depth with
  | zero =>
    intro p n d entry reaches deep
    have below : up key entries (d + 1) (key n) = some root := by
      simp [up, parentOf_entry keyed entry, reaches]
    have bound := depth_le keyed below
    omega
  | succ depth ih =>
    intro p n d entry reaches deep visited s parent inv fresh hangs
    have itself : Below key entries n n := ⟨List.mem_map.mpr ⟨_, entry, rfl⟩, 0, rfl⟩
    obtain ⟨m, r, acted, inv, rep, kept⟩ :=
      inserts visited s parent p n inv entry (fun member => fresh n member itself) hangs
    have below : up key entries (d + 1) (key n) = some root := by
      simp [up, parentOf_entry keyed entry, reaches]
    have each : ∀ c ∈ children entries (key n), ∀ visited s, Inv visited s →
        (∀ x ∈ visited, ¬ Below key entries c x) →
        Hangs key root Rep visited s (some r) (key n) →
          ∃ s' new, insert (fun n => children entries (key n)) act depth s (some r) c = some s' ∧
            Visits Inv Rep visited s (Below key entries c) new s' :=
      fun c child visited s => ih (key n) c (d + 1) (mem_children.mp child) below (by omega)
        visited s (some r)
    have fresh' : ∀ c ∈ children entries (key n), ∀ x ∈ visited ++ [n],
        ¬ Below key entries c x := by
      intro c child x member
      rcases List.mem_append.mp member with before | new
      · exact fun under => fresh x before ((below_iff keyed entry x).mpr (.inr ⟨c, child, under⟩))
      · rw [List.mem_singleton.mp new]
        exact not_below_child keyed ⟨d + 1, below⟩ child
    have hangs' : Hangs key root Rep (visited ++ [n]) m (some r) (key n) :=
      .inr ⟨n, by simp, r, rfl, rfl, rep⟩
    obtain ⟨s', rest, done, visits⟩ := insert_list keyed ⟨d + 1, below⟩ each
      (children entries (key n)) (List.Subset.refl _) (children_nodup keyed _) (visited ++ [n]) m
      inv fresh' hangs'
    refine ⟨s', n :: rest, ?_, ?_, fun x => ?_, ?_, fun a member b rep => ?_⟩
    · simp only [insert, acted, Option.bind_some]
      exact done
    · rw [List.append_cons]
      exact visits.inv
    · rw [List.mem_cons, visits.mem, below_iff keyed entry]
    · refine List.nodup_cons.mpr ⟨fun again => ?_, visits.nodup⟩
      obtain ⟨c, child, under⟩ := (visits.mem n).mp again
      exact not_below_child keyed ⟨d + 1, below⟩ child under
    · exact visits.kept a (List.mem_append_left [n] member) b (kept a member b rep)

/-- A descent from the root key ends, and visits each node from which parents lead there once. -/
theorem descent (keyed : Keyed key entries root)
    (inserts : Inserts key entries root act Inv Rep) {depth : Nat}
    (deep : entries.length < depth) {s : S} (start : Inv [] s) :
    ∃ s' visited, (children entries root).foldlM (fun s n =>
        insert (fun n => children entries (key n)) act depth s none n) s = some s' ∧
      Inv visited s' ∧ visited.Nodup ∧
      ∀ x, x ∈ visited ↔ x ∈ entries.map Prod.snd ∧ Grounded key entries root (key x) := by
  obtain ⟨s', visited, done, visits⟩ := insert_list keyed ⟨0, rfl⟩
    (fun c child visited s => insert_below keyed inserts depth root c 0 (mem_children.mp child) rfl
      (by omega) visited s none)
    (children entries root) (List.Subset.refl _) (children_nodup keyed _) [] s start
    (fun _ _ _ none => absurd none List.not_mem_nil) (.inl ⟨rfl, rfl⟩)
  exact ⟨s', visited, done, by simpa using visits.inv, visits.nodup,
    fun x => (visits.mem x).trans (below_grounded keyed x)⟩

end rule
end keyed
end Forests
