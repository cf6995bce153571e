import Mathlib.Data.List.Nodup

/-!
Rows with a unique key, as under a unique index of a database table. Writing a
row replaces the one with its key. The order of the rows is the order in which
they were last written.
-/
structure KeyedRows (K V : Type) (key : V → K) where
  rows : List V
  unique : (rows.map key).Nodup

namespace KeyedRows
variable {K V : Type} [DecidableEq K] {key : V → K}

def empty : KeyedRows K V key := ⟨[], List.nodup_nil⟩

def get (t : KeyedRows K V key) (k : K) : Option V := t.rows.find? fun v => key v = k

def select (t : KeyedRows K V key) (p : V → Bool) : KeyedRows K V key :=
  ⟨t.rows.filter p, List.Nodup.sublist (List.Sublist.map key List.filter_sublist) t.unique⟩

def remove (t : KeyedRows K V key) (k : K) : KeyedRows K V key := t.select fun v => key v ≠ k

def put (t : KeyedRows K V key) (v : V) : KeyedRows K V key :=
  ⟨(t.remove (key v)).rows ++ [v], by
    rw [List.map_append, List.map_singleton]
    refine List.Nodup.append (t.remove (key v)).unique (List.nodup_singleton _) ?_
    intro k old new
    obtain ⟨w, member, same⟩ := List.mem_map.mp old
    have other := (List.mem_filter.mp member).2
    rw [List.mem_singleton.mp new] at same
    simp [same] at other⟩

def modify (t : KeyedRows K V key) (k : K) (f : V → V) (same : ∀ v, key (f v) = key v) :
    KeyedRows K V key :=
  ⟨t.rows.map fun v => if key v = k then f v else v, by
    rw [List.map_map]
    have keys : (key ∘ fun v => if key v = k then f v else v) = key := by
      funext v
      simp only [Function.comp_apply]
      split
      · exact same v
      · rfl
    rw [keys]
    exact t.unique⟩

@[simp] theorem modify_rows (t : KeyedRows K V key) (k : K) (f : V → V)
    (same : ∀ v, key (f v) = key v) :
    (t.modify k f same).rows = t.rows.map fun v => if key v = k then f v else v := rfl

theorem get_key {t : KeyedRows K V key} {k : K} {v : V} (h : t.get k = some v) : key v = k := by
  simpa using List.find?_some h

theorem get_mem {t : KeyedRows K V key} {k : K} {v : V} (h : t.get k = some v) : v ∈ t.rows :=
  List.mem_of_find?_eq_some h

theorem mem_get {t : KeyedRows K V key} {v : V} (member : v ∈ t.rows) : t.get (key v) = some v := by
  have unique := t.unique
  unfold get
  induction hrows : t.rows generalizing t with
  | nil => simp [hrows] at member
  | cons w rows ih =>
    rw [hrows] at member unique
    by_cases same : key w = key v
    · rw [List.find?_cons_of_pos (by simp [same])]
      rcases List.mem_cons.mp member with here | later
      · rw [here]
      · have clash := (List.nodup_cons.mp unique).1
        exact absurd (List.mem_map.mpr ⟨v, later, same.symm⟩) clash
    · rw [List.find?_cons_of_neg (by simp [same])]
      have later : v ∈ rows := by
        rcases List.mem_cons.mp member with here | later
        · exact absurd (by rw [here]) same
        · exact later
      exact ih (t := ⟨rows, (List.nodup_cons.mp unique).2⟩) later (List.nodup_cons.mp unique).2 rfl

theorem filter_filterMap {W : Type} {t : KeyedRows K V key} {f : V → Option W} {name : W → K}
    (named : ∀ v w, f v = some w → name w = key v) (k : K) :
    (t.rows.filterMap f).filter (fun w => name w = k) = ((t.get k).bind f).toList := by
  obtain ⟨rows, unique⟩ := t
  simp only [get]
  induction rows with
  | nil => rfl
  | cons v rows ih =>
    rw [List.map_cons, List.nodup_cons] at unique
    have rest := ih unique.2
    by_cases here : key v = k
    · have none_later : rows.find? (fun v => key v = k) = none := by
        refine List.find?_eq_none.mpr ?_
        intro w member same
        exact unique.1 (List.mem_map.mpr ⟨w, member, by simpa [here] using same⟩)
      rw [none_later] at rest
      rw [List.find?_cons_of_pos (by simpa using here), Option.bind_some]
      cases made : f v with
      | none => rw [List.filterMap_cons_none made, rest, Option.bind_none]
      | some w =>
        rw [List.filterMap_cons_some made,
          List.filter_cons_of_pos (by simpa [named v w made] using here), rest, Option.bind_none]
        rfl
    · rw [List.find?_cons_of_neg (by simpa using here), ← rest]
      cases made : f v with
      | none => rw [List.filterMap_cons_none made]
      | some w =>
        rw [List.filterMap_cons_some made,
          List.filter_cons_of_neg (by simpa [named v w made] using here)]

theorem get_select {t : KeyedRows K V key} {p : V → Bool} {k : K} :
    (t.select p).get k = (t.get k).filter p := by
  cases found : t.get k with
  | none =>
    have absent := List.find?_eq_none.mp found
    refine List.find?_eq_none.mpr ?_
    intro v member
    exact absent v (List.mem_filter.mp member).1
  | some v =>
    by_cases keep : p v
    · have stays : v ∈ (t.select p).rows := List.mem_filter.mpr ⟨get_mem found, keep⟩
      have get := mem_get stays
      rw [get_key found] at get
      simp [get, Option.filter, keep]
    · simp only [Option.filter, keep]
      refine List.find?_eq_none.mpr ?_
      intro w member same
      obtain ⟨old, kept⟩ := List.mem_filter.mp member
      have get := mem_get old
      rw [show key w = k by simpa using same, found, Option.some.injEq] at get
      rw [get] at keep
      exact keep kept

theorem get_remove {t : KeyedRows K V key} {k k' : K} :
    (t.remove k).get k' = if k' = k then none else t.get k' := by
  rw [remove, get_select]
  cases found : t.get k' with
  | none => simp
  | some v => simp [Option.filter, get_key found]

theorem get_put {t : KeyedRows K V key} {v : V} {k : K} :
    (t.put v).get k = if k = key v then some v else t.get k := by
  have split : (t.put v).get k =
      ((t.remove (key v)).get k).or (if key v = k then some v else none) := by
    simp only [put, get, List.find?_append]
    congr 1
    by_cases same : key v = k
    · simp [same]
    · simp [same]
  rw [split, get_remove]
  by_cases same : k = key v
  · simp [same]
  · simp [same, Ne.symm same]

theorem mem_put {t : KeyedRows K V key} {v w : V} (h : w ∈ (t.put v).rows) :
    w = v ∨ w ∈ t.rows := by
  rcases List.mem_append.mp h with old | new
  · exact .inr (List.mem_filter.mp old).1
  · exact .inl (List.mem_singleton.mp new)

theorem mem_remove {t : KeyedRows K V key} {k : K} {w : V} (h : w ∈ (t.remove k).rows) :
    w ∈ t.rows :=
  (List.mem_filter.mp h).1

theorem get_foldl_put {vs : List V} {t : KeyedRows K V key} {k : K} :
    (vs.foldl put t).get k = (vs.reverse.find? fun v => key v = k).or (t.get k) := by
  induction vs generalizing t with
  | nil => rfl
  | cons v vs ih =>
    rw [List.foldl_cons, ih, List.reverse_cons, List.find?_append, get_put]
    cases vs.reverse.find? fun v => key v = k with
    | some w => rfl
    | none =>
      by_cases same : key v = k
      · simp [same]
      · simp [same, Ne.symm same]

/-! A batch of writes: each removes the row under its row's key, or replaces it. -/

def write (t : KeyedRows K V key) (w : Bool × V) : KeyedRows K V key :=
  if w.1 then t.remove (key w.2) else t.put w.2

def writeAll (t : KeyedRows K V key) (ws : List (Bool × V)) : KeyedRows K V key :=
  ws.foldl write t

def Same (t t' : KeyedRows K V key) : Prop := ∀ k, t.get k = t'.get k

theorem same_select_all {t : KeyedRows K V key} {p : V → Bool} (all : ∀ v, p v = true) :
    Same t (t.select p) := by
  intro k
  rw [get_select, show p = fun _ => true from funext all]
  cases t.get k <;> rfl

theorem same_select_none {t : KeyedRows K V key} {p : V → Bool} (none : ∀ v, p v = false) :
    Same empty (t.select p) := by
  intro k
  rw [get_select, show p = fun _ => false from funext none]
  cases t.get k <;> rfl

theorem get_write {t : KeyedRows K V key} {w : Bool × V} {k : K} :
    (t.write w).get k = if k = key w.2 then (if w.1 then none else some w.2) else t.get k := by
  unfold write
  split
  · rw [get_remove]
  · rw [get_put]

theorem get_writeAll_untouched {ws : List (Bool × V)} {t : KeyedRows K V key} {k : K}
    (untouched : ∀ w ∈ ws, key w.2 ≠ k) : (t.writeAll ws).get k = t.get k := by
  induction ws generalizing t with
  | nil => rfl
  | cons w ws ih =>
    have rest := ih (t := t.write w) fun v member => untouched v (List.mem_cons_of_mem w member)
    have other := untouched w List.mem_cons_self
    rw [get_write, if_neg other.symm] at rest
    exact rest

theorem get_writeAll_congr {ws : List (Bool × V)} {t t' : KeyedRows K V key} {k : K}
    (same : (∃ w ∈ ws, key w.2 = k) ∨ t.get k = t'.get k) :
    (t.writeAll ws).get k = (t'.writeAll ws).get k := by
  induction ws generalizing t t' with
  | nil =>
    rcases same with ⟨w, impossible, _⟩ | same
    · cases impossible
    · exact same
  | cons w ws ih =>
    apply ih
    rw [get_write, get_write]
    rcases same with ⟨v, member, here⟩ | same
    · rcases List.mem_cons.mp member with first | later
      · subst v
        rw [if_pos here.symm, if_pos here.symm]
        exact .inr rfl
      · exact .inl ⟨v, later, here⟩
    · rw [same]
      exact .inr rfl

theorem same_writeAll_iff {ws : List (Bool × V)} {t t' : KeyedRows K V key} :
    Same (t.writeAll ws) (t'.writeAll ws) ↔
      ∀ k, (∀ w ∈ ws, key w.2 ≠ k) → t.get k = t'.get k := by
  apply forall_congr'
  intro k
  constructor
  · intro same untouched
    rwa [get_writeAll_untouched untouched, get_writeAll_untouched untouched] at same
  · intro same
    apply get_writeAll_congr
    by_cases touched : ∃ w ∈ ws, key w.2 = k
    · exact .inl touched
    · apply Or.inr
      apply same
      intro w member here
      exact touched ⟨w, member, here⟩

theorem Same.writeAll {t t' : KeyedRows K V key} (same : Same t t') (ws : List (Bool × V)) :
    Same (t.writeAll ws) (t'.writeAll ws) :=
  same_writeAll_iff.mpr fun k _ => same k

theorem Same.symm {t t' : KeyedRows K V key} (same : Same t t') : Same t' t :=
  fun k => (same k).symm

theorem Same.trans {t t' t'' : KeyedRows K V key} (same : Same t t') (same' : Same t' t'') :
    Same t t'' :=
  fun k => (same k).trans (same' k)

theorem get_select_eq_iff {t : KeyedRows K V key} {p q : V → Bool} {k : K} :
    (t.select p).get k = (t.select q).get k ↔ ∀ v ∈ t.rows, key v = k → p v = q v := by
  rw [get_select, get_select]
  cases found : t.get k with
  | none =>
    apply iff_of_true rfl
    rintro v member rfl
    rw [mem_get member] at found
    cases found
  | some v =>
    rw [Option.filter_some, Option.filter_some]
    constructor
    · rintro same u member rfl
      rw [mem_get member, Option.some.injEq] at found
      subst u
      cases keeps : p v <;> cases keeps' : q v <;> simp [keeps, keeps'] at same ⊢
    · intro same
      rw [same v (get_mem found) (get_key found)]

theorem same_select_iff {ws : List (Bool × V)} {t : KeyedRows K V key} {p q : V → Bool} :
    Same ((t.select p).writeAll ws) ((t.select q).writeAll ws) ↔
      ∀ v ∈ t.rows, p v = q v ∨ ∃ w ∈ ws, key w.2 = key v := by
  rw [same_writeAll_iff]
  simp only [get_select_eq_iff]
  constructor
  · intro same v member
    by_cases touched : ∃ w ∈ ws, key w.2 = key v
    · exact .inr touched
    · apply Or.inl
      apply same (key v) _ v member rfl
      intro w there here
      exact touched ⟨w, there, here⟩
  · rintro same k untouched v member rfl
    rcases same v member with alike | ⟨w, there, here⟩
    · exact alike
    · exact absurd here (untouched w there)

theorem Same.mem {t t' : KeyedRows K V key} (same : Same t t') {v : V} (member : v ∈ t.rows) :
    v ∈ t'.rows := by
  have found := mem_get member
  rw [same] at found
  exact get_mem found

theorem Same.length {t t' : KeyedRows K V key} (same : Same t t') :
    t.rows.length = t'.rows.length := by
  have rows : t.rows.Perm t'.rows := by
    apply (List.perm_ext_iff_of_nodup (.of_map key t.unique) (.of_map key t'.unique)).mpr
    exact fun v => ⟨same.mem, same.symm.mem⟩
  exact rows.length_eq

theorem Same.select {t t' : KeyedRows K V key} (same : Same t t') (p : V → Bool) :
    Same (t.select p) (t'.select p) := by
  intro k
  rw [get_select, get_select, same]

theorem same_select_select (t : KeyedRows K V key) (p q : V → Bool) :
    Same ((t.select p).select q) (t.select fun v => p v && q v) := by
  intro k
  rw [get_select, get_select, get_select]
  cases t.get k with
  | none => rfl
  | some v => cases p_v : p v <;> simp [Option.filter, p_v]

theorem same_select_writeAll {p : V → Bool} {ws : List (Bool × V)} {t : KeyedRows K V key}
    (selects : ∀ w ∈ ws, w.1 = false → p w.2 = true) :
    Same ((t.writeAll ws).select p) ((t.select p).writeAll ws) := by
  induction ws generalizing t with
  | nil => exact fun _ => rfl
  | cons w ws ih =>
    have first : Same ((t.write w).select p) ((t.select p).write w) := by
      intro k
      rw [get_select, get_write, get_write, get_select]
      by_cases here : k = key w.2
      · rw [if_pos here, if_pos here]
        cases removes : w.1 with
        | true => rfl
        | false => simp [Option.filter, selects w List.mem_cons_self removes]
      · rw [if_neg here, if_neg here]
    have rest := ih (t := t.write w) fun v member => selects v (List.mem_cons_of_mem w member)
    exact rest.trans (first.writeAll ws)

end KeyedRows
