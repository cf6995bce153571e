import Mathlib.Data.List.Nodup

/-!
A table with a primary key and a second unique key. A row whose unique key is there
already is left out, and that counts as a success; a row whose primary key is there
fails. A batch is inserted row by row until one fails, and what went in before the
failure stays.
-/
structure Inserts (V P K : Type) (primary : V → P) (unique : V → K) where
  rows : List V
  primaries : (rows.map primary).Nodup
  uniques : (rows.map unique).Nodup

namespace Inserts
variable {V P K : Type} [DecidableEq K] {primary : V → P} {unique : V → K}

def select (t : Inserts V P K primary unique) (p : V → Bool) : Inserts V P K primary unique :=
  ⟨t.rows.filter p, List.Nodup.sublist (List.Sublist.map _ List.filter_sublist) t.primaries,
    List.Nodup.sublist (List.Sublist.map _ List.filter_sublist) t.uniques⟩

def fresh (unique : V → K) (known : List K) : List V → List V
  | [] => []
  | v :: vs =>
      if unique v ∈ known then fresh unique known vs
      else v :: fresh unique (known ++ [unique v]) vs

theorem fresh_mem {known : List K} {vs : List V} {v : V} (member : v ∈ fresh unique known vs) :
    v ∈ vs := by
  induction vs generalizing known with
  | nil => cases member
  | cons w vs ih =>
    rw [fresh] at member
    split at member
    · exact List.mem_cons_of_mem w (ih member)
    · rcases List.mem_cons.mp member with head | tail
      · rw [head]
        exact List.mem_cons_self
      · exact List.mem_cons_of_mem w (ih tail)

theorem fresh_nodup {known : List K} (distinct : known.Nodup) (vs : List V) :
    (known ++ (fresh unique known vs).map unique).Nodup := by
  induction vs generalizing known with
  | nil => simpa [fresh] using distinct
  | cons v vs ih =>
    rw [fresh]
    split
    · exact ih distinct
    · rename_i new
      have grown : (known ++ [unique v]).Nodup :=
        List.Nodup.append distinct (List.nodup_singleton _) (by simpa using new)
      rw [List.map_cons]
      simpa using ih grown

theorem fresh_covers {known : List K} {vs : List V} {v : V} (member : v ∈ vs) :
    unique v ∈ known ++ (fresh unique known vs).map unique := by
  induction vs generalizing known with
  | nil => cases member
  | cons w vs ih =>
    rw [fresh]
    split
    · rename_i old
      rcases List.mem_cons.mp member with head | tail
      · rw [head]
        exact List.mem_append_left _ old
      · exact ih tail
    · rcases List.mem_cons.mp member with head | tail
      · rw [head]
        simp
      · simpa using @ih (known ++ [unique w]) tail

theorem fresh_new {known : List K} (distinct : known.Nodup) {vs : List V} {v : V}
    (member : v ∈ fresh unique known vs) : unique v ∉ known := fun old =>
  List.disjoint_of_nodup_append (fresh_nodup distinct vs) old (List.mem_map_of_mem member)

/-- How a batch ends: every fresh row is in, or the first of them that clashes ends it. -/
inductive Ends (t : Inserts V P K primary unique) (vs : List V) :
    Bool × Inserts V P K primary unique → Prop where
  | inserted (after : Inserts V P K primary unique)
      (rows : after.rows = t.rows ++ fresh unique (t.rows.map unique) vs) : Ends t vs (true, after)
  | clash (before later : List V) (v : V) (after : Inserts V P K primary unique)
      (split : fresh unique (t.rows.map unique) vs = before ++ v :: later)
      (rows : after.rows = t.rows ++ before)
      (taken : primary v ∈ after.rows.map primary) : Ends t vs (false, after)

theorem success_iff {t : Inserts V P K primary unique} {vs : List V}
    {r : Bool × Inserts V P K primary unique} (ends : Ends t vs r) :
    r.1 = true ↔ ∀ v ∈ vs, unique v ∈ r.2.rows.map unique := by
  cases ends with
  | inserted after rows =>
    refine ⟨fun _ v member => ?_, fun _ => rfl⟩
    rw [rows, List.map_append]
    exact fresh_covers member
  | clash before later v after split rows taken =>
    refine ⟨fun h => (Bool.noConfusion h), fun all => ?_⟩
    have member : v ∈ vs := fresh_mem (split ▸ List.mem_append_right before List.mem_cons_self)
    have there := all v member
    have distinct : (t.rows.map unique ++
        (fresh unique (t.rows.map unique) vs).map unique).Nodup := fresh_nodup t.uniques vs
    rw [split, List.map_append, List.map_cons, ← List.append_assoc] at distinct
    rw [rows, List.map_append] at there
    exact absurd List.mem_cons_self (List.disjoint_of_nodup_append distinct there)

/-- The first fresh row clashes with the table, or the fresh rows clash neither with it nor
    with each other. -/
def WholeOrNothing (t : Inserts V P K primary unique) (vs : List V) : Prop :=
  (∃ v later, fresh unique (t.rows.map unique) vs = v :: later ∧ primary v ∈ t.rows.map primary) ∨
    ((t.rows ++ fresh unique (t.rows.map unique) vs).map primary).Nodup

theorem inserted_of_nodup {t : Inserts V P K primary unique} {vs : List V}
    {r : Bool × Inserts V P K primary unique} (ends : Ends t vs r)
    (distinct : ((t.rows ++ fresh unique (t.rows.map unique) vs).map primary).Nodup) :
    r.2.rows = t.rows ++ fresh unique (t.rows.map unique) vs := by
  cases ends with
  | inserted after rows => exact rows
  | clash before later v after split rows taken =>
    rw [split, ← List.append_assoc, ← rows, List.map_append] at distinct
    exact absurd List.mem_cons_self (List.disjoint_of_nodup_append distinct taken)

theorem unchanged_of_clash {t : Inserts V P K primary unique} {vs later : List V} {v : V}
    {r : Bool × Inserts V P K primary unique} (ends : Ends t vs r)
    (first : fresh unique (t.rows.map unique) vs = v :: later)
    (old : primary v ∈ t.rows.map primary) : r.2.rows = t.rows := by
  cases ends with
  | inserted after rows =>
    have distinct := after.primaries
    rw [rows, first, List.map_append] at distinct
    exact absurd List.mem_cons_self (List.disjoint_of_nodup_append distinct old)
  | clash before later v after split rows taken =>
    cases before with
    | nil => exact rows.trans (List.append_nil _)
    | cons u before =>
      rw [split, List.cons_append] at first
      have clash : primary u ∈ t.rows.map primary := (List.cons.inj first).1 ▸ old
      have distinct := after.primaries
      rw [rows, List.map_append] at distinct
      exact absurd List.mem_cons_self (List.disjoint_of_nodup_append distinct clash)

theorem unchanged_iff {t : Inserts V P K primary unique} {vs : List V}
    {r : Bool × Inserts V P K primary unique} (ends : Ends t vs r) :
    (r.1 = false → r.2.rows = t.rows) ↔ WholeOrNothing t vs := by
  constructor
  · intro same
    cases ends with
    | inserted after rows => exact .inr (rows ▸ after.primaries)
    | clash before later v after split rows taken =>
      have none : before = [] := by
        have same := same rfl
        rw [rows] at same
        exact List.append_right_eq_self.mp same
      subst before
      refine .inl ⟨v, later, split, ?_⟩
      rwa [rows, List.append_nil] at taken
  · rintro (⟨v, later, first, old⟩ | distinct) failed
    · exact unchanged_of_clash ends first old
    · cases ends with
      | inserted after rows => cases failed
      | clash before later v after split rows taken =>
        rw [split, ← List.append_assoc, ← rows, List.map_append] at distinct
        exact absurd List.mem_cons_self (List.disjoint_of_nodup_append distinct taken)

section Insert
variable [DecidableEq P]

omit [DecidableEq K] in
theorem nodup_concat {A : Type} {f : V → A} {rows : List V} {v : V}
    (distinct : (rows.map f).Nodup) (new : f v ∉ rows.map f) :
    ((rows ++ [v]).map f).Nodup := by
  rw [List.map_append, List.map_singleton]
  refine List.Nodup.append distinct (List.nodup_singleton _) ?_
  intro a old single
  rw [List.mem_singleton.mp single] at old
  exact new old

def insert (t : Inserts V P K primary unique) (v : V) : Bool × Inserts V P K primary unique :=
  if _ : unique v ∈ t.rows.map unique then (true, t)
  else if _ : primary v ∈ t.rows.map primary then (false, t)
  else
    (true, ⟨t.rows ++ [v], nodup_concat t.primaries ‹_›, nodup_concat t.uniques ‹_›⟩)

def insertAll (success : Bool) (t : Inserts V P K primary unique) :
    List V → Bool × Inserts V P K primary unique
  | [] => (success, t)
  | v :: vs => if (t.insert v).1 then insertAll true (t.insert v).2 vs else t.insert v

theorem insert_known {t : Inserts V P K primary unique} {v : V}
    (known : unique v ∈ t.rows.map unique) : t.insert v = (true, t) := dif_pos known

theorem insert_taken {t : Inserts V P K primary unique} {v : V}
    (new : unique v ∉ t.rows.map unique) (taken : primary v ∈ t.rows.map primary) :
    t.insert v = (false, t) := (dif_neg new).trans (dif_pos taken)

theorem insert_new {t : Inserts V P K primary unique} {v : V}
    (new : unique v ∉ t.rows.map unique) (free : primary v ∉ t.rows.map primary) :
    ∃ after, t.insert v = (true, after) ∧ after.rows = t.rows ++ [v] :=
  ⟨_, (dif_neg new).trans (dif_neg free), rfl⟩

theorem insertAll_ends {success : Bool} (t : Inserts V P K primary unique) (vs : List V)
    (start : vs = [] → success = true) : Ends t vs (insertAll success t vs) := by
  induction vs generalizing t success with
  | nil =>
    rw [start rfl]
    exact .inserted t (by simp [fresh])
  | cons v vs ih =>
    rw [insertAll]
    by_cases known : unique v ∈ t.rows.map unique
    · have same : fresh unique (t.rows.map unique) (v :: vs) =
          fresh unique (t.rows.map unique) vs := if_pos known
      rw [insert_known known, if_pos rfl]
      have ends : Ends t vs (insertAll true t vs) := ih t fun _ => rfl
      show Ends t (v :: vs) (insertAll true t vs)
      generalize insertAll true t vs = result at ends ⊢
      cases ends with
      | inserted after rows => exact .inserted after (by rw [same, rows])
      | clash before later w after split rows taken =>
        exact .clash before later w after (by rw [same, split]) rows taken
    · have first : fresh unique (t.rows.map unique) (v :: vs) =
          v :: fresh unique (t.rows.map unique ++ [unique v]) vs := if_neg known
      by_cases taken : primary v ∈ t.rows.map primary
      · rw [insert_taken known taken]
        exact .clash [] _ v t first (List.append_nil _).symm taken
      · obtain ⟨next, inserted, grown⟩ := insert_new known taken
        have keys : next.rows.map unique = t.rows.map unique ++ [unique v] := by
          rw [grown, List.map_append, List.map_singleton]
        rw [inserted, if_pos rfl]
        have ends : Ends next vs (insertAll true next vs) := ih next fun _ => rfl
        show Ends t (v :: vs) (insertAll true next vs)
        generalize insertAll true next vs = result at ends ⊢
        cases ends with
        | inserted after rows =>
          refine .inserted after ?_
          rw [rows, keys, grown, first, List.append_assoc, List.singleton_append]
        | clash before later w after split rows taken =>
          refine .clash (v :: before) later w after ?_ ?_ taken
          · rw [first, ← keys, split, List.cons_append]
          · rw [rows, grown, List.append_assoc, List.singleton_append]

end Insert

end Inserts
