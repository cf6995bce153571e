import Mathlib.Data.Nat.Digits.Defs

/-!
Object identifiers of certificate names. The encoding joins the first two arcs
in one number and writes every number in base 128, most significant digit
first, the high bit set on all digits but the last. The decoder takes the two
arcs out of the first byte alone.
-/
namespace SantaObjectIdentifiers

structure DecodeState where
  objectId : List Nat
  inVariableLengthByte : Bool
  variableLength : UInt64
  deriving DecidableEq, Repr

def decodeByte (s : DecodeState) (byte : UInt8) : DecodeState :=
  let a := (byte &&& ~~~0x80).toUInt64
  if byte &&& 0x80 ≠ 0 then ⟨s.objectId, true, (s.variableLength <<< 7) + a⟩
  else if s.inVariableLengthByte then
    ⟨s.objectId ++ [((s.variableLength <<< 7) + a).toNat], false, 0⟩
  else { s with objectId := s.objectId ++ [byte.toNat] }

def decodedArcs : List UInt8 → List Nat
  | [] => []
  | byte :: bytes =>
      (bytes.foldl decodeByte ⟨[byte.toNat / 40, byte.toNat % 40], false, 0⟩).objectId

def componentsJoined (arcs : List Nat) : String := ".".intercalate (arcs.map Nat.repr)

def decodeOIDWithBytes (bytes : List UInt8) : String := componentsJoined (decodedArcs bytes)

/-! ### Identifiers and their encoding -/

structure ObjectIdentifier where
  first : Nat
  second : Nat
  rest : List Nat
  root : first ≤ 2
  below : first < 2 → second < 40
  fits : second < 2 ^ 64 ∧ ∀ arc ∈ rest, arc < 2 ^ 64

def ObjectIdentifier.arcs (o : ObjectIdentifier) : List Nat := o.first :: o.second :: o.rest

def ObjectIdentifier.dotted (o : ObjectIdentifier) : String := componentsJoined o.arcs

def ObjectIdentifier.joint (o : ObjectIdentifier) : Nat := 40 * o.first + o.second

def continued (n : Nat) : List UInt8 :=
  (Nat.digits 128 n).reverse.map fun digit => UInt8.ofNat (128 + digit)

def berArc (n : Nat) : List UInt8 := continued (n / 128) ++ [UInt8.ofNat (n % 128)]

def ObjectIdentifier.berEncoding (o : ObjectIdentifier) : List UInt8 :=
  berArc o.joint ++ o.rest.flatMap berArc

/-! ### The loop over the bytes -/

theorem high_byte : ∀ digit < 128, UInt8.ofNat (128 + digit) &&& 0x80 ≠ 0 ∧
    (UInt8.ofNat (128 + digit) &&& ~~~0x80).toUInt64 = UInt64.ofNat digit := by
  decide

theorem low_byte : ∀ digit < 128, UInt8.ofNat digit &&& 0x80 = 0 ∧
    (UInt8.ofNat digit &&& ~~~0x80).toUInt64 = UInt64.ofNat digit ∧
    (UInt8.ofNat digit).toNat = digit := by
  decide

theorem shifted {n : Nat} (fits : n < 2 ^ 64) :
    (UInt64.ofNat (n / 128) <<< 7) + UInt64.ofNat (n % 128) = UInt64.ofNat n := by
  have size : UInt64.size = 2 ^ 64 := rfl
  refine UInt64.toNat.inj ?_
  rw [UInt64.toNat_add, UInt64.toNat_shiftLeft, UInt64.toNat_ofNat_of_lt' (by omega),
    UInt64.toNat_ofNat_of_lt' (by omega), UInt64.toNat_ofNat_of_lt' fits,
    show (7 : UInt64).toNat % 64 = 7 from rfl, Nat.shiftLeft_eq]
  omega

theorem continued_zero : continued 0 = [] := by
  simp [continued]

theorem continued_pos {n : Nat} (positive : 0 < n) :
    continued n = continued (n / 128) ++ [UInt8.ofNat (128 + n % 128)] := by
  simp [continued, Nat.digits_def' (by decide : 1 < 128) positive]

theorem decode_continued (ids : List Nat) {n : Nat} (fits : n < 2 ^ 64) :
    (continued n).foldl decodeByte ⟨ids, false, 0⟩ = ⟨ids, n ≠ 0, UInt64.ofNat n⟩ := by
  induction n using Nat.strongRecOn with
  | ind n ih =>
    by_cases zero : n = 0
    · subst zero
      simp [continued_zero]
    · have smaller : n / 128 < n := by omega
      obtain ⟨set, digit⟩ := high_byte (n % 128) (Nat.mod_lt n (by decide))
      rw [continued_pos (by omega), List.foldl_append, ih (n / 128) smaller (by omega)]
      simp only [List.foldl_cons, List.foldl_nil, decodeByte, set, if_true, digit, shifted fits,
        zero, ne_eq, not_false_eq_true, decide_true]

theorem decode_berArc (ids : List Nat) {n : Nat} (fits : n < 2 ^ 64) :
    (berArc n).foldl decodeByte ⟨ids, false, 0⟩ = ⟨ids ++ [n], false, 0⟩ := by
  obtain ⟨clear, digit, value⟩ := low_byte (n % 128) (Nat.mod_lt n (by decide))
  rw [berArc, List.foldl_append, decode_continued ids (by omega)]
  simp only [List.foldl_cons, List.foldl_nil, decodeByte, clear, ne_eq, not_true_eq_false, if_false,
    digit, shifted fits]
  by_cases short : n / 128 = 0
  · have same : n % 128 = n := by omega
    rw [same] at value
    simp only [short, same, value, not_true_eq_false, decide_false, Bool.false_eq_true,
      if_false]
    rfl
  · simp only [short, not_false_eq_true, decide_true, if_true,
      UInt64.toNat_ofNat_of_lt' fits]

theorem decode_arcs (ids : List Nat) {arcs : List Nat} (fits : ∀ arc ∈ arcs, arc < 2 ^ 64) :
    (arcs.flatMap berArc).foldl decodeByte ⟨ids, false, 0⟩ = ⟨ids ++ arcs, false, 0⟩ := by
  induction arcs generalizing ids with
  | nil => simp
  | cons arc arcs ih =>
    rw [List.flatMap_cons, List.foldl_append, decode_berArc ids (fits arc List.mem_cons_self),
      ih (ids ++ [arc]) fun later member => fits later (List.mem_cons_of_mem arc member),
      List.append_assoc, List.singleton_append]

/-! ### The first byte -/

theorem decodeByte_prefix (s : DecodeState) (byte : UInt8) :
    ∃ more, (decodeByte s byte).objectId = s.objectId ++ more := by
  unfold decodeByte
  split
  · exact ⟨[], (List.append_nil _).symm⟩
  · split
    · exact ⟨_, rfl⟩
    · exact ⟨_, rfl⟩

theorem decoded_prefix (bytes : List UInt8) (s : DecodeState) :
    ∃ more, (bytes.foldl decodeByte s).objectId = s.objectId ++ more := by
  induction bytes generalizing s with
  | nil => exact ⟨[], (List.append_nil _).symm⟩
  | cons byte bytes ih =>
    obtain ⟨here, first⟩ := decodeByte_prefix s byte
    obtain ⟨later, rest⟩ := ih (decodeByte s byte)
    exact ⟨here ++ later, by rw [List.foldl_cons, rest, first, List.append_assoc]⟩

theorem decodedArcs_head (byte : UInt8) (bytes : List UInt8) :
    (decodedArcs (byte :: bytes)).head? = some (byte.toNat / 40) := by
  obtain ⟨more, rest⟩ := decoded_prefix bytes ⟨[byte.toNat / 40, byte.toNat % 40], false, 0⟩
  rw [decodedArcs, rest]
  rfl

theorem continued_high {n : Nat} {byte : UInt8} (member : byte ∈ continued n) :
    128 ≤ byte.toNat := by
  obtain ⟨digit, digits, rfl⟩ := List.mem_map.mp member
  have small : digit < 128 := Nat.digits_lt_base (by decide) (List.mem_reverse.mp digits)
  rw [UInt8.toNat_ofNat']
  omega

theorem berArc_long {n : Nat} (long : 128 ≤ n) :
    ∃ byte bytes, berArc n = byte :: bytes ∧ 128 ≤ byte.toNat := by
  have digits : continued (n / 128) ≠ [] := by
    rw [continued_pos (by omega)]
    simp
  obtain ⟨byte, bytes, begins⟩ := List.exists_cons_of_ne_nil digits
  refine ⟨byte, bytes ++ [UInt8.ofNat (n % 128)], by rw [berArc, begins, List.cons_append], ?_⟩
  exact continued_high (n := n / 128) (begins ▸ List.mem_cons_self)

theorem berArc_short {n : Nat} (short : n < 128) : berArc n = [UInt8.ofNat n] := by
  rw [berArc, Nat.div_eq_of_lt short, Nat.mod_eq_of_lt short, continued_zero, List.nil_append]

theorem decodedArcs_short (o : ObjectIdentifier) (short : o.joint < 128) :
    decodedArcs o.berEncoding = o.joint / 40 :: o.joint % 40 :: o.rest := by
  rw [ObjectIdentifier.berEncoding, berArc_short short, List.singleton_append, decodedArcs,
    decode_arcs _ o.fits.2, (low_byte o.joint short).2.2]
  rfl

theorem decodedArcs_iff (o : ObjectIdentifier) :
    decodedArcs o.berEncoding = o.arcs ↔ o.joint < 120 := by
  have root := o.root
  have below := o.below
  by_cases short : o.joint < 128
  · rw [decodedArcs_short o short, ObjectIdentifier.arcs, List.cons.injEq, List.cons.injEq,
      eq_self_iff_true, and_true]
    unfold ObjectIdentifier.joint at short ⊢
    constructor <;> intro h <;> omega
  · refine iff_of_false (fun same => ?_) (by omega)
    obtain ⟨byte, bytes, begins, high⟩ := berArc_long (n := o.joint) (by omega)
    rw [ObjectIdentifier.berEncoding, begins, List.cons_append] at same
    have head := decodedArcs_head byte (bytes ++ o.rest.flatMap berArc)
    rw [same, ObjectIdentifier.arcs, List.head?_cons, Option.some.injEq] at head
    omega

/-! ### The dotted form -/

theorem repr_undotted (n : Nat) : '.' ∉ (Nat.repr n).toList := by
  rw [Nat.toList_repr]
  intro member
  exact absurd (Nat.isDigit_of_mem_toDigits (by decide) (by decide) member) (by decide)

theorem componentsJoined_injective {xs ys : List Nat} (some : xs ≠ []) (some' : ys ≠ [])
    (same : componentsJoined xs = componentsJoined ys) : xs = ys := by
  have split : ∀ zs : List Nat, zs ≠ [] → (componentsJoined zs).toList.splitOn '.' =
      zs.map fun n => (Nat.repr n).toList := by
    intro zs nonempty
    rw [componentsJoined, String.toList_intercalate, List.map_map]
    refine List.splitOn_intercalate '.' ?_ (by simpa using nonempty)
    intro part member
    obtain ⟨n, -, rfl⟩ := List.mem_map.mp member
    exact repr_undotted n
  have parts := (split xs some).symm.trans ((congrArg (fun s => s.toList.splitOn '.') same).trans
    (split ys some'))
  refine (List.map_inj_right fun m n repr => ?_).mp parts
  rw [Nat.toList_repr, Nat.toList_repr] at repr
  rw [← Nat.ofDigitChars_ten_toDigits (n := m), repr, Nat.ofDigitChars_ten_toDigits]

theorem decodedArcs_ne_nil (o : ObjectIdentifier) : decodedArcs o.berEncoding ≠ [] := by
  cases encoded : o.berEncoding with
  | nil => simp [ObjectIdentifier.berEncoding, berArc] at encoded
  | cons byte bytes =>
    intro empty
    have head := decodedArcs_head byte bytes
    rw [empty] at head
    cases head

def Decodes (o : ObjectIdentifier) : Prop := decodeOIDWithBytes o.berEncoding = o.dotted

theorem decodes_iff (o : ObjectIdentifier) : Decodes o ↔ o.joint < 120 := by
  rw [← decodedArcs_iff]
  constructor
  · exact componentsJoined_injective (decodedArcs_ne_nil o) (List.cons_ne_nil _ _)
  · exact congrArg componentsJoined

/-- What decodes is told apart by what it decodes to. -/
theorem decodes_apart {o o' : ObjectIdentifier} (first : Decodes o) (second : Decodes o')
    (apart : o.berEncoding ≠ o'.berEncoding) :
    decodeOIDWithBytes o.berEncoding ≠ decodeOIDWithBytes o'.berEncoding := by
  intro same
  rw [first, second] at same
  have arcs := componentsJoined_injective (List.cons_ne_nil _ _) (List.cons_ne_nil _ _) same
  simp only [List.cons.injEq] at arcs
  refine apart ?_
  simp only [ObjectIdentifier.berEncoding, ObjectIdentifier.joint, arcs]

/-- Two identifiers both come back, and stay apart, just when their joint numbers are below
    120: that leaves out the last root from its arc 40 on. -/
theorem identifiers_decode_iff (o o' : ObjectIdentifier) :
    (Decodes o ∧ Decodes o' ∧ (o.berEncoding ≠ o'.berEncoding →
      decodeOIDWithBytes o.berEncoding ≠ decodeOIDWithBytes o'.berEncoding)) ↔
    40 * o.first + o.second < 120 ∧ 40 * o'.first + o'.second < 120 := by
  have first := decodes_iff o
  have second := decodes_iff o'
  unfold ObjectIdentifier.joint at first second
  rw [← first, ← second]
  constructor
  · exact fun h => ⟨h.1, h.2.1⟩
  · exact fun h => ⟨h.1, h.2, decodes_apart h.1 h.2⟩

def exampleArc : ObjectIdentifier := ⟨2, 999, [], by decide, by decide, by decide⟩

def shortArc : ObjectIdentifier := ⟨2, 53, [], by decide, by decide, by decide⟩

def longArc : ObjectIdentifier := ⟨2, 16309, [], by decide, by decide, by decide⟩

theorem large_second_arc :
    exampleArc.berEncoding = [0x88, 0x37] ∧ exampleArc.arcs = [2, 999] ∧
      decodedArcs exampleArc.berEncoding = [3, 16, 55] ∧ ¬ Decodes exampleArc ∧
      shortArc.berEncoding ≠ longArc.berEncoding ∧
      decodeOIDWithBytes shortArc.berEncoding = decodeOIDWithBytes longArc.berEncoding := by
  have encoded : exampleArc.berEncoding = [0x88, 0x37] := by decide
  refine ⟨encoded, rfl, by decide, ?_, by decide, ?_⟩
  · rw [decodes_iff]
    decide
  · exact congrArg componentsJoined (by decide)

end SantaObjectIdentifiers
