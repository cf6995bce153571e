import Mathlib

/-!
Doubles that are neither zero, subnormal nor infinite: a mantissa of 53 bits and an exponent.
A rounding changes such a number by one part in 2^52 at most, so that an integer times such a
number, truncated, is known up to the two roundings.
-/
namespace Doubles
open Float.Model Float.Model.UnpackedFloat

/-! ### Packing -/

theorem mantissa_unpacked {m : Nat} (wide : m.log2 = 52) :
    (1#1 ++ BitVec.ofNat 52 m).toNat = m := by
  have nonzero : m ≠ 0 := by
    rintro rfl
    simp at wide
  obtain ⟨low, high⟩ := (Nat.log2_eq_iff nonzero).mp wide
  rw [BitVec.toNat_append, ← Nat.shiftLeft_add_eq_or_of_lt (BitVec.isLt _), BitVec.toNat_ofNat,
    BitVec.toNat_ofNat, Nat.shiftLeft_eq]
  omega

theorem unpack_pack {sign : Sign} {m : Nat} {e : Int} (pos : 0 < m) (wide : m.log2 = 52)
    (low : -1074 ≤ e) (high : e ≤ 971) :
    (Float.Model.pack (.finite sign m e pos)).unpack = .finite sign m e pos := by
  let stored := BitVec.ofNat 11 (e + 1023 + 52).toNat
  have stored_toNat : (stored.toNat : Int) = e + 1075 := by
    simp only [stored, BitVec.toNat_ofNat]
    omega
  have finite : stored ≠ -1#11 := by
    intro all
    rw [all] at stored_toNat
    simp at stored_toNat
    omega
  have normal : stored ≠ 0#11 := by
    intro none
    rw [none] at stored_toNat
    simp at stored_toNat
    omega
  have packed : UnpackedFloat.pack .binary64 (.finite sign m e pos) =
      packComponents .binary64 sign stored (BitVec.ofNat 52 m) := by
    have small : ¬ 2 ^ 11 ≤ (e + 1023 + 52).toNat + 1 := by omega
    exact (if_neg small).trans (if_pos (congrArg (· + 1) wide))
  show UnpackedFloat.unpack .binary64 (UnpackedFloat.pack .binary64 _) = _
  rw [packed, UnpackedFloat.unpack]
  simp only [unpackMantissa_packComponents, unpackExponent_packComponents,
    unpackSign_packComponents, Sign.ofBitVec_toBitVec]
  rw [if_neg finite, if_neg normal]
  have exponent : e + 1075 - (1023 + 52) = e := by omega
  simp only [mantissa_unpacked wide, stored_toNat]
  exact congrArg (UnpackedFloat.finite sign m · pos) exponent

/-! ### Rounding -/

theorem shifted_mantissa (em : ExtendedMantissa) (k : Nat) :
    (em >>> k).mantissa = em.mantissa / 2 ^ k := by
  induction k with
  | zero => exact (Nat.div_one _).symm
  | succ k ih =>
    show (em >>> k).mantissa / 2 = _
    rw [ih, Nat.div_div_eq_div_mul, Nat.pow_succ]

theorem roundedMantissa_mem (em : ExtendedMantissa) :
    em.mantissa ≤ em.roundedMantissa ∧ em.roundedMantissa ≤ em.mantissa + 1 := by
  obtain ⟨m, roundBit, stickyBit⟩ := em
  cases roundBit <;> cases stickyBit <;>
    simp [ExtendedMantissa.roundedMantissa, ExtendedMantissa.accuracy,
      Accuracy.roundToNearestEven]
  omega

theorem shiftToTargetExponent_of_wide {m k : Nat} {e : Int} (accuracy : Accuracy)
    (wide : m.log2 = 52 + k) (low : -1074 ≤ e + k) :
    shiftToTargetExponent .binary64 m e accuracy =
      (ExtendedMantissa.ofMantissaAndAccuracy m accuracy >>> k, e + k) := by
  have target : Format.targetExponent .binary64 (totalExponent m e) = e + k := by
    simp only [Format.targetExponent, totalExponent, Format.mantissaBits, Format.minExponent, wide]
    omega
  have shift : (e + k - e).toNat = k := by omega
  simp only [shiftToTargetExponent, shiftToExponent, target, shift]

/-- `rounded` is `exact` up to one part in 2^52. -/
structure Near (exact rounded : Nat) : Prop where
  above : rounded * 4503599627370496 ≤ exact * 4503599627370497
  below : exact * 4503599627370495 ≤ rounded * 4503599627370496

theorem log2_bounds {m k : Nat} (wide : m.log2 = 52 + k) :
    4503599627370496 * 2 ^ k ≤ m ∧ m < 9007199254740992 * 2 ^ k := by
  have nonzero : m ≠ 0 := by
    rintro rfl
    simp at wide
    omega
  obtain ⟨low, high⟩ := (Nat.log2_eq_iff nonzero).mp wide
  rw [Nat.pow_add] at low
  rw [Nat.add_right_comm, Nat.pow_add] at high
  exact ⟨low, high⟩

theorem log2_of_bounds {m k : Nat} (low : 4503599627370496 * 2 ^ k ≤ m)
    (high : m < 9007199254740992 * 2 ^ k) : m.log2 = 52 + k := by
  have : 0 < 2 ^ k := Nat.two_pow_pos k
  refine (Nat.log2_eq_iff (by omega)).mpr ⟨?_, ?_⟩
  · rw [Nat.pow_add]
    exact low
  · rw [Nat.add_right_comm, Nat.pow_add]
    exact high

theorem roundWithAccuracy_of_shifts {sign : Sign} {m : Nat} {e e₁ e₂ : Int}
    {em₁ em₂ : ExtendedMantissa}
    (first : shiftToTargetExponent .binary64 m e .exact = (em₁, e₁))
    (second : shiftToTargetExponent .binary64 em₁.roundedMantissa e₁ .exact = (em₂, e₂))
    (pos : 0 < em₂.mantissa) :
    roundWithAccuracy .binary64 sign m e .exact = .finite sign em₂.mantissa e₂ pos := by
  simp only [roundWithAccuracy, first, second, dif_neg (Nat.ne_of_gt pos)]

theorem roundWithAccuracy_near (sign : Sign) {m k : Nat} {e : Int} (wide : m.log2 = 52 + k)
    (low : -1074 ≤ e + k) :
    ∃ (r shift : Nat) (pos : 0 < r),
      roundWithAccuracy .binary64 sign m e .exact = .finite sign r (e + shift) pos ∧
      r.log2 = 52 ∧ k ≤ shift ∧ shift ≤ k + 1 ∧ Near m (r * 2 ^ shift) := by
  let em := ExtendedMantissa.ofMantissaAndAccuracy m .exact >>> k
  have mantissa : em.mantissa = m / 2 ^ k := shifted_mantissa _ k
  obtain ⟨least, most⟩ := roundedMantissa_mem em
  rw [mantissa] at least most
  obtain ⟨lowest, highest⟩ := log2_bounds wide
  have pow : 0 < 2 ^ k := Nat.two_pow_pos k
  have some_ : 4503599627370496 ≤ m / 2 ^ k := (Nat.le_div_iff_mul_le pow).mpr lowest
  have fewer : m / 2 ^ k < 9007199254740992 := (Nat.div_lt_iff_lt_mul pow).mpr highest
  have near : Near m (em.roundedMantissa * 2 ^ k) := by
    have parts := Nat.div_add_mod' m (2 ^ k)
    have rest := Nat.mod_lt m pow
    have above := Nat.mul_le_mul_right (2 ^ k) most
    have below := Nat.mul_le_mul_right (2 ^ k) least
    rw [Nat.add_mul, Nat.one_mul] at above
    constructor <;> omega
  obtain ⟨carry, one, log2, whole⟩ : ∃ carry, carry ≤ 1 ∧ em.roundedMantissa.log2 = 52 + carry ∧
      em.roundedMantissa / 2 ^ carry * 2 ^ carry = em.roundedMantissa := by
    by_cases all : em.roundedMantissa = 9007199254740992
    · exact ⟨1, Nat.le_refl _, by rw [all]; decide, by rw [all]; decide⟩
    · exact ⟨0, by decide, log2_of_bounds (by omega) (by omega), by simp⟩
  let last := ExtendedMantissa.ofMantissaAndAccuracy em.roundedMantissa .exact >>> carry
  have mantissa : last.mantissa = em.roundedMantissa / 2 ^ carry := shifted_mantissa _ carry
  rw [← mantissa] at whole
  obtain ⟨least, most⟩ := log2_bounds log2
  have pos : 0 < last.mantissa := by
    refine Nat.pos_of_ne_zero fun zero => ?_
    rw [zero] at whole
    omega
  refine ⟨last.mantissa, k + carry, pos, ?_, ?_, by omega, by omega, ?_⟩
  · have first := shiftToTargetExponent_of_wide .exact wide low
    have second := shiftToTargetExponent_of_wide (e := e + k) .exact log2 (by omega)
    rw [roundWithAccuracy_of_shifts first second pos]
    simp only [last, Int.natCast_add, Int.add_assoc]
  · have pow : 0 < 2 ^ carry := Nat.two_pow_pos carry
    rw [← whole] at least most
    refine log2_of_bounds (k := 0) ?_ ?_
    · simpa using Nat.le_of_mul_le_mul_right least pow
    · simpa using Nat.lt_of_mul_lt_mul_right most
  · rw [Nat.add_comm, Nat.pow_add, ← Nat.mul_assoc, whole]
    exact near

/-! ### Integers -/

theorem log2_mul_two_pow {m : Nat} (pos : 0 < m) (k : Nat) : (m * 2 ^ k).log2 = m.log2 + k := by
  obtain ⟨low, high⟩ := (Nat.log2_eq_iff (Nat.ne_of_gt pos)).mp rfl
  have : 0 < m * 2 ^ k := Nat.mul_pos pos (Nat.two_pow_pos k)
  refine (Nat.log2_eq_iff (by omega)).mpr ⟨?_, ?_⟩
  · rw [Nat.pow_add]
    exact Nat.mul_le_mul_right _ low
  · rw [Nat.add_right_comm, Nat.pow_add]
    exact Nat.mul_lt_mul_of_pos_right high (Nat.two_pow_pos k)

theorem round_near (sign : Sign) {a : Nat} (pos : 0 < a) :
    ∃ (r up shift : Nat) (positive : 0 < r),
      UnpackedFloat.round .binary64 sign a 0 = .finite sign r (shift - up) positive ∧ r.log2 = 52 ∧
      up ≤ 52 ∧ shift ≤ a.log2 - 52 + 1 ∧ Near (a * 2 ^ up) (r * 2 ^ shift) := by
  have target : Format.targetExponent .binary64 (totalExponent a 0) = a.log2 - 52 := by
    simp only [Format.targetExponent, totalExponent, Format.mantissaBits, Format.minExponent]
    omega
  have up : (0 - ((a.log2 : Int) - 52)).toNat = 52 - a.log2 := by omega
  have wide : (a * 2 ^ (52 - a.log2)).log2 = 52 + (a.log2 - 52) := by
    rw [log2_mul_two_pow pos]
    omega
  obtain ⟨r, shift, positive, rounded, log2, _, most, near⟩ :=
    roundWithAccuracy_near sign (e := 0 - (52 - a.log2 : Nat)) wide (by omega)
  refine ⟨r, 52 - a.log2, shift, positive, ?_, log2, by omega, by omega, near⟩
  simp only [UnpackedFloat.round, target, decreaseExponent, up, Nat.shiftLeft_eq]
  rw [rounded]
  congr 1
  omega

theorem ofInt_apply (sign : Sign) {a : Nat} (pos : 0 < a) :
    UnpackedFloat.ofInt .binary64 (sign.apply a) =
      UnpackedFloat.round .binary64 sign a 0 := by
  cases sign with
  | negative =>
    have : compare (-(a : Int)) 0 = .lt := Int.compare_eq_lt.mpr (by omega)
    simp [UnpackedFloat.ofInt, UnpackedFloat.normalize, Sign.apply, this]
  | positive =>
    have : compare (a : Int) 0 = .gt := Int.compare_eq_gt.mpr (by omega)
    simp [UnpackedFloat.ofInt, UnpackedFloat.normalize, Sign.apply, this]

theorem mul_div_two_pow (m up down : Nat) :
    m * 2 ^ (up - down) / 2 ^ (down - up) = m * 2 ^ up / 2 ^ down := by
  rcases Nat.le_total up down with more | fewer
  · obtain ⟨k, rfl⟩ := Nat.exists_eq_add_of_le more
    rw [Nat.sub_eq_zero_of_le more, Nat.add_sub_cancel_left, Nat.pow_zero, Nat.mul_one,
      Nat.pow_add, Nat.mul_comm, Nat.mul_div_mul_left _ _ (Nat.two_pow_pos up)]
  · obtain ⟨k, rfl⟩ := Nat.exists_eq_add_of_le fewer
    rw [Nat.sub_eq_zero_of_le fewer, Nat.add_sub_cancel_left, Nat.pow_zero, Nat.div_one,
      Nat.pow_add, Nat.mul_left_comm, Nat.mul_div_cancel_left _ (Nat.two_pow_pos down)]

theorem roundToInt_apply (sign : Sign) (m up down : Nat) :
    roundToInt sign m (up - down) = sign.apply (m * 2 ^ up / 2 ^ down : Nat) := by
  have left : ((up : Int) - down).toNat = up - down := by omega
  have right : (0 - ((up : Int) - down - (up - down : Nat))).toNat = down - up := by omega
  simp only [roundToInt, decreaseExponent, shiftToExponent, Int.sub_zero, left, right,
    shifted_mantissa]
  show sign.apply (m <<< (up - down) / 2 ^ (down - up) : Nat) = _
  rw [Nat.shiftLeft_eq, mul_div_two_pow]

/-! ### A product, truncated -/

structure Truncated (a numerator down p : Nat) : Prop where
  most : p * 2 ^ down * 4503599627370496 ^ 2 ≤ a * numerator * 4503599627370497 ^ 2
  least : a * numerator * 4503599627370495 ^ 2 < (p + 1) * 2 ^ down * 4503599627370496 ^ 2

theorem truncated_of_near {a numerator down up first second r m : Nat}
    (left : Near (a * 2 ^ up) (r * 2 ^ first)) (right : Near (r * numerator) (m * 2 ^ second)) :
    Truncated a numerator down (m * 2 ^ (first + second) / 2 ^ (up + down)) := by
  have pow : 0 < 2 ^ (up + down) := Nat.two_pow_pos _
  have floor := Nat.div_mul_le_self (m * 2 ^ (first + second)) (2 ^ (up + down))
  have above := Nat.lt_div_mul_add pow (a := m * 2 ^ (first + second))
  generalize m * 2 ^ (first + second) / 2 ^ (up + down) = p at floor above
  constructor
  · refine Nat.le_of_mul_le_mul_left ?_ (Nat.two_pow_pos up)
    calc
      2 ^ up * (p * 2 ^ down * 4503599627370496 ^ 2)
          = p * 2 ^ (up + down) * 4503599627370496 ^ 2 := by ring
      _ ≤ m * 2 ^ (first + second) * 4503599627370496 ^ 2 := Nat.mul_le_mul_right _ floor
      _ = m * 2 ^ second * 4503599627370496 * (2 ^ first * 4503599627370496) := by ring
      _ ≤ r * numerator * 4503599627370497 * (2 ^ first * 4503599627370496) :=
        Nat.mul_le_mul_right _ right.above
      _ = r * 2 ^ first * 4503599627370496 * (numerator * 4503599627370497) := by ring
      _ ≤ a * 2 ^ up * 4503599627370497 * (numerator * 4503599627370497) :=
        Nat.mul_le_mul_right _ left.above
      _ = 2 ^ up * (a * numerator * 4503599627370497 ^ 2) := by ring
  · refine Nat.lt_of_mul_lt_mul_left (a := 2 ^ up) ?_
    calc
      2 ^ up * (a * numerator * 4503599627370495 ^ 2)
          = a * 2 ^ up * 4503599627370495 * (numerator * 4503599627370495) := by ring
      _ ≤ r * 2 ^ first * 4503599627370496 * (numerator * 4503599627370495) :=
        Nat.mul_le_mul_right _ left.below
      _ = r * numerator * 4503599627370495 * (2 ^ first * 4503599627370496) := by ring
      _ ≤ m * 2 ^ second * 4503599627370496 * (2 ^ first * 4503599627370496) :=
        Nat.mul_le_mul_right _ right.below
      _ = m * 2 ^ (first + second) * 4503599627370496 ^ 2 := by ring
      _ < (p * 2 ^ (up + down) + 2 ^ (up + down)) * 4503599627370496 ^ 2 :=
        Nat.mul_lt_mul_of_pos_right above (by decide)
      _ = 2 ^ up * ((p + 1) * 2 ^ down * 4503599627370496 ^ 2) := by ring

theorem mul_log2 {r m : Nat} (left : r.log2 = 52) (right : m.log2 = 52) :
    ∃ k, 52 ≤ k ∧ k ≤ 53 ∧ (r * m).log2 = 52 + k := by
  obtain ⟨low, high⟩ := log2_bounds (k := 0) left
  obtain ⟨low', high'⟩ := log2_bounds (k := 0) right
  have least : 4503599627370496 * 4503599627370496 ≤ r * m := Nat.mul_le_mul low low'
  have most : r * m < 9007199254740992 * 9007199254740992 := Nat.mul_lt_mul'' high high'
  by_cases carry : 9007199254740992 * 4503599627370496 ≤ r * m
  · exact ⟨53, by decide, by decide, log2_of_bounds (by omega) (by omega)⟩
  · exact ⟨52, by decide, by decide, log2_of_bounds (by omega) (by omega)⟩

theorem product_truncated (sign : Sign) {a : Nat} (pos : 0 < a) (small : a.log2 ≤ 63)
    {factor : Float.Model} {numerator down : Nat} {positive : 0 < numerator}
    (unpacked : factor.unpack = .finite .positive numerator (-down) positive)
    (wide : numerator.log2 = 52) (normal : down ≤ 900) :
    ∃ p : Nat, Truncated a numerator down p ∧
      (Float.Model.ofInt (sign.apply a) * factor).unpack.toInt Int64.minValue.toInt
        Int64.maxValue.toInt = sign.apply p := by
  obtain ⟨r, up, first, some_, rounded, log2, up_most, first_most, left⟩ := round_near sign pos
  obtain ⟨k, k_least, k_most, product⟩ := mul_log2 log2 wide
  obtain ⟨m, second, nonzero, multiplied, mantissa, second_least, second_most, right⟩ :=
    roundWithAccuracy_near (sign * .positive) (e := (first - up : Int) + -down) product (by omega)
  refine ⟨_, truncated_of_near left right, ?_⟩
  have read : (Float.Model.ofInt (sign.apply a)).unpack = .finite sign r (first - up) some_ := by
    unfold Float.Model.ofInt
    rw [ofInt_apply sign pos, rounded]
    exact unpack_pack _ log2 (by omega) (by omega)
  have read' : (Float.Model.ofInt (sign.apply a) * factor).unpack =
      .finite (sign * .positive) m (first - up + -down + second) nonzero := by
    show (Float.Model.pack (UnpackedFloat.mul _ _ _)).unpack = _
    rw [read, unpacked]
    simp only [UnpackedFloat.mul]
    rw [multiplied]
    exact unpack_pack _ mantissa (by omega) (by omega)
  have exponent : (first - up + -down + second : Int) =
      (first + second : Nat) - (up + down : Nat) := by omega
  rw [read', exponent, UnpackedFloat.toInt, roundToInt_apply]
  cases sign <;> rfl

theorem le_of_truncated {a numerator down p : Nat}
    (below : numerator * 4503599627370497 ^ 2 ≤ 2 ^ down * 4503599627370496 ^ 2)
    (product : Truncated a numerator down p) : p ≤ a := by
  have scale : 0 < 2 ^ down * 4503599627370496 ^ 2 :=
    Nat.mul_pos (Nat.two_pow_pos down) (by decide)
  refine Nat.le_of_mul_le_mul_right (Nat.le_trans ?_ (Nat.mul_le_mul_left a below)) scale
  rw [← Nat.mul_assoc, ← Nat.mul_assoc]
  exact product.most

theorem pos_of_truncated {a numerator down p : Nat}
    (above : 2 ^ down * 4503599627370496 ^ 2 ≤ a * numerator * 4503599627370495 ^ 2)
    (product : Truncated a numerator down p) : 0 < p := by
  refine Nat.pos_of_ne_zero ?_
  rintro rfl
  have := product.least
  rw [Nat.zero_add, Nat.one_mul] at this
  omega

theorem exists_sign {n : Int} (nonzero : n ≠ 0) :
    ∃ sign : Sign, ∀ p : Nat, sign.apply p = n.sign * p := by
  rcases Int.lt_or_gt_of_ne nonzero with negative | positive
  · exact ⟨.negative, fun p => by rw [Int.sign_eq_neg_one_of_neg negative, Int.neg_one_mul]; rfl⟩
  · exact ⟨.positive, fun p => by rw [Int.sign_eq_one_of_pos positive, Int.one_mul]; rfl⟩

theorem toInt64_product (n : Int64) {factor : Float.Model} {numerator down : Nat}
    {positive : 0 < numerator}
    (unpacked : factor.unpack = .finite .positive numerator (-down) positive)
    (wide : numerator.log2 = 52) (normal : down ≤ 900)
    (below : numerator * 4503599627370497 ^ 2 ≤ 2 ^ down * 4503599627370496 ^ 2) :
    ∃ p : Nat, Truncated n.toInt.natAbs numerator down p ∧
      (Float.Model.ofInt64 n * factor).toInt64.toInt = n.toInt.sign * p := by
  have least := n.le_toInt
  have most := n.toInt_lt
  by_cases zero : n.toInt = 0
  · refine ⟨0, ⟨by simp, by simp [zero]⟩, ?_⟩
    have none : (Float.Model.ofInt64 n * factor).unpack = .zero .positive := by
      show (Float.Model.pack (UnpackedFloat.mul _ (Float.Model.ofInt n.toInt).unpack _)).unpack = _
      rw [zero, unpacked, show (Float.Model.ofInt 0).unpack = .zero .positive by rfl]
      simp only [UnpackedFloat.mul]
      rfl
    rw [Float.Model.toInt64, none, zero]
    rfl
  · obtain ⟨sign, applied⟩ := exists_sign zero
    have whole : sign.apply n.toInt.natAbs = n.toInt := by
      rw [applied, Int.sign_mul_natAbs]
    have short : n.toInt.natAbs.log2 ≤ 63 := by
      refine Nat.le_of_lt_succ ((Nat.log2_lt (by omega)).mpr ?_)
      omega
    obtain ⟨p, truncated, converted⟩ :=
      product_truncated sign (by omega) short unpacked wide normal
    refine ⟨p, truncated, ?_⟩
    have fewer := le_of_truncated below truncated
    rw [whole, applied] at converted
    have bounds : Int64.minValue.toInt ≤ n.toInt.sign * p ∧
        n.toInt.sign * p ≤ Int64.maxValue.toInt := by
      show -2 ^ 63 ≤ n.toInt.sign * p ∧ n.toInt.sign * p ≤ 2 ^ 63 - 1
      rcases Int.lt_or_gt_of_ne zero with negative | positive
      · rw [Int.sign_eq_neg_one_of_neg negative]
        omega
      · rw [Int.sign_eq_one_of_pos positive]
        omega
    show (Int64.ofIntClamp ((Float.Model.ofInt n.toInt * factor).unpack.toInt _ _)).toInt = _
    rw [converted, Int64.toInt_ofIntClamp bounds.1 bounds.2]

end Doubles
