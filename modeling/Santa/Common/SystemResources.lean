import Mathlib.Tactic.LinearCombination

/-!
Mach time. A tick is `numer / denom` nanoseconds; the conversions truncate, and their
products are of 64 bits.
-/
namespace SantaSystemResources

structure Timebase where
  numer : UInt32
  denom : UInt32
  numer_pos : 0 < numer.toNat
  denom_pos : 0 < denom.toNat

theorem one_pos : 0 < (1 : UInt32).toNat := by decide

def Timebase.nanosecond : Timebase := ⟨1, 1, one_pos, one_pos⟩

def NSEC_PER_SEC : UInt64 := 1000000000

def machTimeToNanos (timebase : Timebase) (machTime : UInt64) : UInt64 :=
  machTime * timebase.numer.toUInt64 / timebase.denom.toUInt64

def nanosToMachTime (timebase : Timebase) (nanos : UInt64) : UInt64 :=
  nanos * timebase.denom.toUInt64 / timebase.numer.toUInt64

def addNanosecondsToMachTime (timebase : Timebase) (ns machTime : UInt64) : UInt64 :=
  nanosToMachTime timebase (machTimeToNanos timebase machTime + ns)

@[simp] theorem machTimeToNanos_nanosecond (machTime : UInt64) :
    machTimeToNanos .nanosecond machTime = machTime := by
  simp [machTimeToNanos, Timebase.nanosecond]

@[simp] theorem nanosToMachTime_nanosecond (nanos : UInt64) :
    nanosToMachTime .nanosecond nanos = nanos := by
  simp [nanosToMachTime, Timebase.nanosecond]

/-! ### Conversions as numbers -/

theorem machTimeToNanos_toNat (timebase : Timebase) (machTime : UInt64) :
    (machTimeToNanos timebase machTime).toNat =
      machTime.toNat * timebase.numer.toNat % 18446744073709551616 / timebase.denom.toNat := by
  unfold machTimeToNanos
  rw [UInt64.toNat_div, UInt64.toNat_mul, UInt32.toNat_toUInt64, UInt32.toNat_toUInt64]

theorem nanosToMachTime_toNat (timebase : Timebase) (nanos : UInt64) :
    (nanosToMachTime timebase nanos).toNat =
      nanos.toNat * timebase.denom.toNat % 18446744073709551616 / timebase.numer.toNat := by
  unfold nanosToMachTime
  rw [UInt64.toNat_div, UInt64.toNat_mul, UInt32.toNat_toUInt64, UInt32.toNat_toUInt64]

structure Fits (timebase : Timebase) (ns machTime : UInt64) : Prop where
  ticks : machTime.toNat * timebase.numer.toNat < 18446744073709551616
  sum : (machTimeToNanos timebase machTime).toNat + ns.toNat < 18446744073709551616
  nanos : (machTimeToNanos timebase machTime + ns).toNat * timebase.denom.toNat <
    18446744073709551616

theorem wraps_eq_zero_iff {first second third denom wide : Nat} (some_wide : 0 < wide)
    (positive : 0 < denom) :
    first / wide + second / wide * denom + third / wide = 0 ↔
      first < wide ∧ second < wide ∧ third < wide := by
  rw [Nat.add_eq_zero_iff, Nat.add_eq_zero_iff, Nat.mul_eq_zero, Nat.div_eq_zero_iff_lt some_wide,
    Nat.div_eq_zero_iff_lt some_wide, Nat.div_eq_zero_iff_lt some_wide, and_assoc]
  simp [Nat.ne_of_gt positive]

theorem there_and_back {ticks numer denom ns nanos sum result wide : Nat}
    (some_wide : 0 < wide) (numer_pos : 0 < numer) (denom_pos : 0 < denom)
    (there : nanos = ticks * numer % wide / denom) (added : sum = (nanos + ns) % wide)
    (back : result = sum * denom % wide / numer) :
    ∃ wraps rest : Nat,
      (wraps = 0 ↔ ticks * numer < wide ∧ nanos + ns < wide ∧ sum * denom < wide) ∧
      rest + 2 ≤ numer + denom ∧
      (ns * denom : Int) - (result - ticks) * numer = wide * wraps + rest := by
  have h1 : (wide * (ticks * numer / wide : Nat) + (ticks * numer % wide : Nat) : Int) =
      ticks * numer := by
    exact_mod_cast Nat.div_add_mod (ticks * numer) wide
  have h2 : (denom * nanos + (ticks * numer % wide % denom : Nat) : Int) =
      (ticks * numer % wide : Nat) := by
    rw [there]
    exact_mod_cast Nat.div_add_mod (ticks * numer % wide) denom
  have h3 : (wide * ((nanos + ns) / wide : Nat) + sum : Int) = nanos + ns := by
    rw [added]
    exact_mod_cast Nat.div_add_mod (nanos + ns) wide
  have h4 : (wide * (sum * denom / wide : Nat) + (sum * denom % wide : Nat) : Int) =
      sum * denom := by
    exact_mod_cast Nat.div_add_mod (sum * denom) wide
  have h5 : (numer * result + (sum * denom % wide % numer : Nat) : Int) =
      (sum * denom % wide : Nat) := by
    rw [back]
    exact_mod_cast Nat.div_add_mod (sum * denom % wide) numer
  have first := Nat.mod_lt (ticks * numer % wide) denom_pos
  have second := Nat.mod_lt (sum * denom % wide) numer_pos
  refine ⟨ticks * numer / wide + (nanos + ns) / wide * denom + sum * denom / wide,
    ticks * numer % wide % denom + sum * denom % wide % numer,
    wraps_eq_zero_iff some_wide denom_pos, by omega, ?_⟩
  push_cast at h1 h2 h3 h4 h5 ⊢
  linear_combination -h1 - h2 - denom * h3 - h4 - h5

/-- What an addition loses, in parts of a nanosecond: less than a tick and a nanosecond by
    truncation, and 2^64 or more by a wrap. -/
theorem addNanosecondsToMachTime_loss (timebase : Timebase) (ns machTime : UInt64) :
    ∃ wraps rest : Nat, (wraps = 0 ↔ Fits timebase ns machTime) ∧
      rest + 2 ≤ timebase.numer.toNat + timebase.denom.toNat ∧
      (ns.toNat * timebase.denom.toNat : Int) -
        ((addNanosecondsToMachTime timebase ns machTime).toNat - machTime.toNat) *
          timebase.numer.toNat = 18446744073709551616 * wraps + rest := by
  obtain ⟨wraps, rest, none, small, loss⟩ := there_and_back (by decide) timebase.numer_pos
    timebase.denom_pos (machTimeToNanos_toNat timebase machTime)
    (UInt64.toNat_add (machTimeToNanos timebase machTime) ns) (nanosToMachTime_toNat timebase _)
  refine ⟨wraps, rest, none.trans ⟨?_, ?_⟩, small, loss⟩
  · rintro ⟨ticks, sum, nanos⟩
    exact ⟨ticks, sum, nanos⟩
  · rintro ⟨ticks, sum, nanos⟩
    exact ⟨ticks, sum, nanos⟩

theorem wholeSeconds_eq_iff {ticks numer denom : Nat} (denom_pos : 0 < denom)
    (narrow : denom < 4294967296) :
    ticks * numer % 18446744073709551616 / denom / 1000000000 =
        ticks * numer / (denom * 1000000000) ↔
      ticks * numer < 18446744073709551616 := by
  rw [Nat.div_div_eq_div_mul]
  constructor
  · intro same
    by_contra wide
    have less : ticks * numer % 18446744073709551616 + denom * 1000000000 ≤ ticks * numer := by
      have := Nat.mod_add_div (ticks * numer) 18446744073709551616
      have := Nat.div_pos (Nat.not_lt.mp wide) (by decide)
      omega
    have := Nat.div_le_div_right (c := denom * 1000000000) less
    rw [Nat.add_div_right _ (by omega)] at this
    omega
  · intro fits
    rw [Nat.mod_eq_of_lt fits]

end SantaSystemResources
