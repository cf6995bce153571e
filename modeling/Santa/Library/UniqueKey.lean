import Mathlib.Data.List.Nodup

/-!
Rows under a unique key that are rewritten in place, all at once. The rewriting
is refused as a whole when two rows would get the same key.
-/
namespace UniqueKey
variable {K V : Type} [DecidableEq K] (key : V → K)

def Unique (rows : List V) : Prop := (rows.map key).Nodup

instance (rows : List V) : Decidable (Unique key rows) := inferInstanceAs (Decidable (List.Nodup _))

def rewrite (f : V → V) (rows : List V) : List V :=
  if Unique key (rows.map f) then rows.map f else rows

def Clash (f : V → V) (rows : List V) : Prop :=
  ∃ v ∈ rows, ∃ w ∈ rows, key (f v) = key (f w) ∧ key v ≠ key w

variable {key}

theorem unique_map_iff {f : V → V} {rows : List V} (unique : Unique key rows) :
    Unique key (rows.map f) ↔ ¬ Clash key f rows := by
  unfold Unique at unique ⊢
  rw [List.map_map, List.nodup_map_iff_inj_on unique.of_map]
  constructor
  · rintro injective ⟨v, hv, w, hw, same, differ⟩
    exact differ (congrArg key (injective v hv w hw same))
  · intro apart v hv w hw same
    apply List.inj_on_of_nodup_map unique hv hw
    by_contra differ
    exact apart ⟨v, hv, w, hw, same, differ⟩

theorem rewrite_unique {f : V → V} {rows : List V} (unique : Unique key rows) :
    Unique key (rewrite key f rows) := by
  unfold rewrite
  split
  · assumption
  · exact unique

theorem rewrite_eq_map {f : V → V} {rows : List V} (unique : Unique key rows)
    (apart : ¬ Clash key f rows) : rewrite key f rows = rows.map f :=
  if_pos ((unique_map_iff unique).mpr apart)

theorem rewrite_clash {f : V → V} {rows : List V} (unique : Unique key rows)
    (clash : Clash key f rows) : rewrite key f rows = rows :=
  if_neg fun unique' => (unique_map_iff unique).mp unique' clash

theorem mem_rewrite_of_fixed {f : V → V} {rows : List V} {v : V} (member : v ∈ rows)
    (fixed : f v = v) : v ∈ rewrite key f rows := by
  unfold rewrite
  split
  · rw [← fixed]
    exact List.mem_map_of_mem member
  · exact member

end UniqueKey
