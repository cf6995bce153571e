import Santa.Rules.Rule

/-!
The spelling that a rule's identifier has once the rule has been built. Building a
rule from an identifier in that spelling leaves it as it is, so a rule that has
been built can be built again.
-/
namespace SantaRule

/-! ### The case of a character -/

theorem lower_cases (c : Char) :
    (c.toLower = c ∧ ¬ (65 ≤ c.toNat ∧ c.toNat ≤ 90)) ∨
      (c.toLower.toNat = c.toNat + 32 ∧ 65 ≤ c.toNat ∧ c.toNat ≤ 90) := by
  unfold Char.toLower
  split
  · rename_i upper
    have low : 65 ≤ c.val.toNat := upper.1
    have high : c.val.toNat ≤ 90 := upper.2
    refine Or.inr ⟨?_, low, high⟩
    have shift : 'a'.val - 'A'.val = 32 := by decide
    change (c.val + ('a'.val - 'A'.val)).toNat = c.val.toNat + 32
    rw [shift, UInt32.toNat_add]
    simp only [UInt32.reduceToNat]
    omega
  · rename_i other
    exact Or.inl ⟨rfl, fun upper => other upper⟩

theorem upper_cases (c : Char) :
    (c.toUpper = c ∧ ¬ (97 ≤ c.toNat ∧ c.toNat ≤ 122)) ∨
      (c.toUpper.toNat + 32 = c.toNat ∧ 97 ≤ c.toNat ∧ c.toNat ≤ 122) := by
  unfold Char.toUpper
  split
  · rename_i lower
    have low : 97 ≤ c.val.toNat := lower.1
    have high : c.val.toNat ≤ 122 := lower.2
    refine Or.inr ⟨?_, low, high⟩
    -- subtracting 32 is adding its complement
    have shift : 'A'.val - 'a'.val = 4294967264 := by decide
    change (c.val + ('A'.val - 'a'.val)).toNat + 32 = c.val.toNat
    rw [shift, UInt32.toNat_add]
    simp only [UInt32.reduceToNat]
    omega
  · rename_i other
    exact Or.inl ⟨rfl, fun lower => other lower⟩

theorem isHex_iff {c : Char} : isHex c = true ↔
    (48 ≤ c.toNat ∧ c.toNat ≤ 57) ∨ (97 ≤ c.toNat ∧ c.toNat ≤ 102) ∨
      (65 ≤ c.toNat ∧ c.toNat ≤ 70) := by
  simp [isHex, Char.isDigit, Char.le_def, UInt32.le_iff_toNat_le, or_assoc]

theorem isAlnum_iff {c : Char} : isAlnum c = true ↔
    (48 ≤ c.toNat ∧ c.toNat ≤ 57) ∨ (97 ≤ c.toNat ∧ c.toNat ≤ 122) ∨
      (65 ≤ c.toNat ∧ c.toNat ≤ 90) := by
  simp [isAlnum, Char.isDigit, Char.le_def, UInt32.le_iff_toNat_le, or_assoc]

theorem lower_hex {c : Char} (hex : isHex c = true) :
    isHex c.toLower = true ∧ c.toLower.toLower = c.toLower := by
  rcases lower_cases c with ⟨same, _⟩ | ⟨shifted, low, high⟩
  · rw [same]
    exact ⟨hex, same⟩
  · refine ⟨?_, ?_⟩
    · rw [isHex_iff] at hex ⊢
      omega
    · rcases lower_cases c.toLower with ⟨same, _⟩ | ⟨_, low', _⟩
      · exact same
      · omega

theorem upper_alnum {c : Char} (alnum : isAlnum c = true) :
    isAlnum c.toUpper = true ∧ c.toUpper.toUpper = c.toUpper := by
  rcases upper_cases c with ⟨same, _⟩ | ⟨shifted, low, high⟩
  · rw [same]
    exact ⟨alnum, same⟩
  · refine ⟨?_, ?_⟩
    · rw [isAlnum_iff] at alnum ⊢
      omega
    · rcases upper_cases c.toUpper with ⟨same, _⟩ | ⟨_, low', _⟩
      · exact same
      · omega

theorem alnum_ne_colon {c : Char} (alnum : isAlnum c = true) : c ≠ ':' := by
  intro colon
  rw [colon] at alnum
  exact absurd alnum (by decide)

/-! ### Identifiers -/

theorem map_twice {class' : Char → Bool} {f : Char → Char}
    (fixed : ∀ c, class' c = true → class' (f c) = true ∧ f (f c) = f c) {cs : List Char}
    (all : cs.all class' = true) :
    (cs.map f).all class' = true ∧ (cs.map f).map f = cs.map f := by
  rw [List.all_eq_true] at all
  refine ⟨?_, ?_⟩
  · rw [List.all_eq_true]
    intro c member
    obtain ⟨d, given, same⟩ := List.mem_map.mp member
    rw [← same]
    exact (fixed d (all d given)).1
  · rw [List.map_map]
    exact List.map_congr_left fun c given => (fixed c (all c given)).2

theorem hexIdentifier_normal {length : Nat} {identifier normal : String}
    (h : hexIdentifier length identifier = some normal) :
    hexIdentifier length normal = some normal := by
  simp only [hexIdentifier] at h ⊢
  split at h
  · rename_i shape
    obtain ⟨class', twice⟩ := map_twice (fun _ => lower_hex) shape.2
    rw [← Option.some.inj h]
    simp only [lowercase, String.toList_ofList, List.length_map]
    rw [if_pos ⟨shape.1, class'⟩, twice]
  · cases h

theorem teamIdentifier_some {cs : List Char} {normal : String}
    (h : teamIdentifier cs = some normal) :
    normal.toList.length = kExpectedTeamIDLength ∧ normal.toList.all isAlnum = true ∧
      teamIdentifier normal.toList = some normal := by
  unfold teamIdentifier at h
  split at h
  · rename_i shape
    obtain ⟨class', twice⟩ := map_twice (fun _ => upper_alnum) shape.2
    rw [← Option.some.inj h]
    simp only [uppercase, String.toList_ofList, teamIdentifier, List.length_map]
    rw [if_pos ⟨shape.1, class'⟩, twice]
    exact ⟨shape.1, class', rfl⟩
  · cases h

theorem splitAtColon_append {before after : List Char} (free : ':' ∉ before) :
    splitAtColon (before ++ ':' :: after) = some (before, after) := by
  induction before with
  | nil => simp [splitAtColon]
  | cons c cs ih =>
    rw [List.mem_cons, not_or] at free
    have other : c ≠ ':' := fun same => free.1 same.symm
    simp [splitAtColon, other, ih free.2]

theorem signingIdentifier_normal {identifier normal : String}
    (h : signingIdentifier identifier = some normal) : signingIdentifier normal = some normal := by
  unfold signingIdentifier at h
  obtain ⟨⟨team, signing⟩, _, built⟩ := Option.bind_eq_some_iff.mp h
  simp only at built
  split at built
  · cases built
  rename_i something
  obtain ⟨team', prefixed, same⟩ := Option.map_eq_some_iff.mp built
  -- the team part is the word platform or a team identifier in upper case
  have again : ':' ∉ team'.toList ∧ (if lowercase team'.toList = "platform" then some "platform"
      else teamIdentifier team'.toList) = some team' := by
    split at prefixed
    · rw [← Option.some.inj prefixed]
      decide
    · obtain ⟨length, alnum, normal'⟩ := teamIdentifier_some prefixed
      refine ⟨?_, ?_⟩
      · intro colon
        exact alnum_ne_colon (List.all_eq_true.mp alnum ':' colon) rfl
      · rw [if_neg, normal']
        intro platform
        have short := congrArg (fun s => s.toList.length) platform
        simp only [lowercase, String.toList_ofList, List.length_map, length] at short
        exact absurd short (by decide)
  have chars : normal.toList = team'.toList ++ ':' :: signing := by
    rw [← same]
    simp
  unfold signingIdentifier
  rw [chars, splitAtColon_append again.1]
  simp only [Option.bind_some, if_neg something, again.2, Option.map_some, same]

theorem normalizedIdentifier_normal {type : SNTRuleType} {identifier normal : String}
    (h : normalizedIdentifier type identifier = some normal) :
    normalizedIdentifier type normal = some normal := by
  cases type with
  | binary | certificate | cdHash => exact hexIdentifier_normal h
  | teamID => exact (teamIdentifier_some h).2.2
  | signingID => exact signingIdentifier_normal h
  | unknown | undeclared raw => rfl

/-! ### Rules -/

structure SNTRule.Normal (r : SNTRule) : Prop where
  identifier : normalizedIdentifier r.type r.identifier = some r.identifier
  celExpr : r.state = .cel → r.celExpr.getD "" ≠ ""

theorem normal_nonempty {type : SNTRuleType} {identifier normal : String}
    (given : identifier ≠ "") (h : normalizedIdentifier type identifier = some normal) :
    normal ≠ "" := by
  intro empty
  cases type with
  | unknown | undeclared raw => exact given ((Option.some.inj h).trans empty)
  | binary | certificate | cdHash | teamID | signingID =>
    -- the empty text is no identifier of such a type
    have again := normalizedIdentifier_normal h
    rw [empty] at again
    exact absurd again (by decide)

theorem init_self_iff {r : SNTRule} : r.init = some r ↔ r.identifier ≠ "" ∧ r.Normal := by
  rw [init_some_iff]
  constructor
  · rintro ⟨given, expr, identifier, shape, same⟩
    have kept : r.identifier = identifier := congrArg SNTRule.identifier same
    rw [← kept] at shape
    exact ⟨given, shape, fun cel none => expr ⟨cel, none⟩⟩
  · rintro ⟨given, normal⟩
    exact ⟨given, fun none => normal.celExpr none.1 none.2, _, normal.identifier, rfl⟩

theorem init_built {given r : SNTRule} (built : given.init = some r) : r.init = some r := by
  obtain ⟨present, expr, identifier, shape, same⟩ := init_some_iff.mp built
  rw [init_self_iff, same]
  refine ⟨normal_nonempty present shape, normalizedIdentifier_normal shape, ?_⟩
  exact fun cel none => expr ⟨cel, none⟩

end SantaRule
