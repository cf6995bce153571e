/-!
Signed and unsigned numbers of 64 bits. A number below 2^63 keeps its value when it becomes
signed, and so does a sum of two that stays below.
-/
namespace MachineWords

theorem toInt_toInt64 {x : UInt64} (small : x.toNat < 9223372036854775808) :
    x.toInt64.toInt = x.toNat :=
  BitVec.toInt_eq_toNat_of_lt (x := x.toBitVec) (by
    have same : x.toBitVec.toNat = x.toNat := rfl
    omega)

theorem toInt_toInt64_of_large {x : UInt64} (large : 9223372036854775808 ≤ x.toNat) :
    x.toInt64.toInt = x.toNat - 18446744073709551616 := by
  show x.toBitVec.toInt = _
  have same : x.toBitVec.toNat = x.toNat := rfl
  rw [BitVec.toInt_eq_toNat_cond, same, if_neg (by omega)]
  rfl

theorem toInt_add {a b : Int64} (low : -9223372036854775808 ≤ a.toInt + b.toInt)
    (high : a.toInt + b.toInt < 9223372036854775808) : (a + b).toInt = a.toInt + b.toInt := by
  rw [Int64.toInt_add]
  exact Int.bmod_eq_of_le (by omega) (by omega)

theorem toUInt64_add (a b : Int64) : (a + b).toUInt64 = a.toUInt64 + b.toUInt64 := rfl

theorem toUInt64_toInt64 (x : UInt64) : x.toInt64.toUInt64 = x := rfl

end MachineWords
