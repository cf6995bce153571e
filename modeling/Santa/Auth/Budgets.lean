import Santa.Auth.Deadlines
import Santa.Common.SystemResources
import Santa.Library.Doubles
import Santa.Library.MachineWords

/-!
The budget of a message, in the machine's own numbers: the nanoseconds until the deadline are an
unsigned difference that is converted and then read as signed, the four fifths of them are a
double, and what is kept back is between one second and five.
-/
namespace SantaBudgets
open SantaSystemResources Doubles

def defaultBudget : Float.Model := .ofScientific 8 (-1)
def minAllowedHeadroom : Int64 := 1000000000
def maxAllowedHeadroom : Int64 := 5000000000

def clamp (value low high : Int64) : Int64 :=
  if value < low then low else if high < value then high else value

def desiredBudget (nanosUntilDeadline : Int64) : Int64 :=
  (Float.Model.ofInt64 nanosUntilDeadline * defaultBudget).toInt64

def computeBudgetForDeadline (timebase : Timebase) (deadline currentTime : UInt64) : Int64 :=
  let nanosUntilDeadline := (machTimeToNanos timebase (deadline - currentTime)).toInt64
  let budget := desiredBudget nanosUntilDeadline
  let headroom := nanosUntilDeadline - budget
  nanosUntilDeadline - clamp headroom minAllowedHeadroom maxAllowedHeadroom

/-! ### Four fifths -/

theorem defaultBudget_unpacked :
    defaultBudget.unpack = .finite .positive 7205759403792794 (-(53 : Nat)) (by decide) := rfl

theorem desiredBudget_mem (nanos : Int64) :
    (0 ≤ nanos.toInt → 0 ≤ (desiredBudget nanos).toInt ∧
      (desiredBudget nanos).toInt ≤ nanos.toInt) ∧
    (nanos.toInt ≤ 0 → nanos.toInt ≤ (desiredBudget nanos).toInt ∧
      (desiredBudget nanos).toInt ≤ 0) ∧
    (2 ≤ nanos.toInt → 0 < (desiredBudget nanos).toInt) := by
  have below : 7205759403792794 * 4503599627370497 ^ 2 ≤ 2 ^ 53 * 4503599627370496 ^ 2 := by
    decide
  obtain ⟨part, truncated, same⟩ :=
    toInt64_product nanos defaultBudget_unpacked (by decide) (by decide) below
  have fewer := le_of_truncated below truncated
  have some_ (two : 2 ≤ nanos.toInt.natAbs) : 0 < part := by
    have above : 2 ^ 53 * 4503599627370496 ^ 2 ≤
        2 * 7205759403792794 * 4503599627370495 ^ 2 := by decide
    exact pos_of_truncated (Nat.le_trans above
      (Nat.mul_le_mul_right _ (Nat.mul_le_mul_right _ two))) truncated
  change (desiredBudget nanos).toInt = _ at same
  rw [same]
  rcases Int.lt_trichotomy nanos.toInt 0 with negative | zero | positive
  · rw [Int.sign_eq_neg_one_of_neg negative]
    omega
  · simp [zero]
  · rw [Int.sign_eq_one_of_pos positive]
    omega

theorem clamp_toInt (value low high : Int64) :
    (clamp value low high).toInt = SantaDeadlines.clamp value.toInt low.toInt high.toInt := by
  simp only [clamp, SantaDeadlines.clamp, Int64.lt_iff_toInt_lt]
  split
  · rfl
  · split <;> rfl

def client (timebase : Timebase) : SantaDeadlines.Client where
  defaultBudget := fun nanos => (desiredBudget (Int64.ofInt nanos)).toInt
  minAllowedHeadroom := minAllowedHeadroom.toInt
  maxAllowedHeadroom := maxAllowedHeadroom.toInt
  numer := timebase.numer.toUInt64
  denom := timebase.denom.toUInt64

theorem headroom_toInt (nanos : Int64) :
    (nanos - desiredBudget nanos).toInt = nanos.toInt - (desiredBudget nanos).toInt := by
  obtain ⟨ahead, behind, _⟩ := desiredBudget_mem nanos
  have least := nanos.le_toInt
  have most := nanos.toInt_lt
  rw [Int64.toInt_sub]
  exact Int.bmod_eq_of_le (by omega) (by omega)

section
variable (timebase : Timebase) (deadline currentTime : UInt64)

def nanosUntilDeadline : Int64 := (machTimeToNanos timebase (deadline - currentTime)).toInt64

theorem budget_client :
    SantaDeadlines.computeBudgetForDeadline (client timebase) deadline currentTime =
      (nanosUntilDeadline timebase deadline currentTime).toInt -
        SantaDeadlines.clamp
          ((nanosUntilDeadline timebase deadline currentTime).toInt -
            (desiredBudget (nanosUntilDeadline timebase deadline currentTime)).toInt)
          1000000000 5000000000 := by
  have read : (client timebase).defaultBudget
      (nanosUntilDeadline timebase deadline currentTime).toInt =
        (desiredBudget (nanosUntilDeadline timebase deadline currentTime)).toInt := by
    simp only [client, Int64.ofInt_toInt]
  rw [← read]
  rfl

theorem computeBudgetForDeadline_toInt :
    (computeBudgetForDeadline timebase deadline currentTime).toInt =
      (SantaDeadlines.computeBudgetForDeadline (client timebase) deadline currentTime).bmod
        (2 ^ 64) := by
  rw [budget_client, ← headroom_toInt]
  show (nanosUntilDeadline timebase deadline currentTime - clamp _ _ _).toInt = _
  rw [Int64.toInt_sub, clamp_toInt]
  rfl

theorem budget_of_near
    (near : (nanosUntilDeadline timebase deadline currentTime).toInt ≤ 1000000000) :
    SantaDeadlines.computeBudgetForDeadline (client timebase) deadline currentTime =
      (nanosUntilDeadline timebase deadline currentTime).toInt - 1000000000 := by
  rw [budget_client]
  generalize nanosUntilDeadline timebase deadline currentTime = nanos at near
  obtain ⟨ahead, behind, _⟩ := desiredBudget_mem nanos
  unfold SantaDeadlines.clamp
  split
  · rfl
  · rw [if_neg (by omega)]
    omega

theorem budget_of_far
    (far : 1000000000 < (nanosUntilDeadline timebase deadline currentTime).toInt) :
    0 < SantaDeadlines.computeBudgetForDeadline (client timebase) deadline currentTime := by
  rw [budget_client]
  generalize nanosUntilDeadline timebase deadline currentTime = nanos at far
  obtain ⟨_, _, some_⟩ := desiredBudget_mem nanos
  unfold SantaDeadlines.clamp
  split
  · omega
  · split <;> omega

end

/-! ### Near the deadline and past it -/

/-- Up to a second nothing is left of the time, beyond a second something; from 2^63 on the
    nanoseconds count as negative, until the second that is taken off wraps them back. -/
theorem budget_cases (timebase : Timebase) (deadline currentTime : UInt64) {nanos : Nat}
    {budget : Int}
    (converted : (machTimeToNanos timebase (deadline - currentTime)).toNat = nanos)
    (computed : (computeBudgetForDeadline timebase deadline currentTime).toInt = budget) :
    nanos ≤ 1000000000 ∧ budget = nanos - 1000000000 ∨
    1000000000 < nanos ∧ nanos < 9223372036854775808 ∧ 0 < budget ∧
      budget ≤ nanos - 1000000000 ∨
    9223372036854775808 ≤ nanos ∧ nanos < 9223372037854775808 ∧ budget = nanos - 1000000000 ∨
    9223372037854775808 ≤ nanos ∧ budget = nanos - 18446744073709551616 - 1000000000 := by
  have near := budget_of_near timebase deadline currentTime
  have far := budget_of_far timebase deadline currentTime
  have headroom := (SantaDeadlines.budget_headroom (client timebase) deadline currentTime
    (show minAllowedHeadroom.toInt ≤ maxAllowedHeadroom.toInt by decide)).2
  change _ ≤ (nanosUntilDeadline timebase deadline currentTime).toInt - 1000000000 at headroom
  rw [computeBudgetForDeadline_toInt, Int.bmod] at computed
  have wide := (machTimeToNanos timebase (deadline - currentTime)).toNat_lt
  rcases Nat.lt_or_ge nanos 9223372036854775808 with small | large
  · have signed : (nanosUntilDeadline timebase deadline currentTime).toInt = nanos :=
      converted ▸ MachineWords.toInt_toInt64 (by omega)
    rcases Nat.lt_or_ge 1000000000 nanos with ahead | close
    · have positive := far (by omega)
      exact Or.inr (Or.inl ⟨ahead, small, by omega, by omega⟩)
    · have value := near (by omega)
      exact Or.inl ⟨close, by omega⟩
  · have signed : (nanosUntilDeadline timebase deadline currentTime).toInt =
        nanos - 18446744073709551616 :=
      converted ▸ MachineWords.toInt_toInt64_of_large (by omega)
    have value := near (by omega)
    rcases Nat.lt_or_ge nanos 9223372037854775808 with wraps | stays
    · exact Or.inr (Or.inr (Or.inl ⟨large, wraps, by omega⟩))
    · exact Or.inr (Or.inr (Or.inr ⟨stays, by omega⟩))

def timeLeft (timebase : Timebase) (deadline currentTime : UInt64) : Nat :=
  (deadline.toNat - currentTime.toNat) * timebase.numer.toNat

structure InTime (timebase : Timebase) (deadline currentTime : UInt64) : Prop where
  headroom : minAllowedHeadroom.toInt * timebase.denom.toNat <
      timeLeft timebase deadline currentTime →
    ((computeBudgetForDeadline timebase deadline currentTime).toInt + minAllowedHeadroom.toInt) *
      timebase.denom.toNat ≤ timeLeft timebase deadline currentTime
  within : (computeBudgetForDeadline timebase deadline currentTime).toInt *
      timebase.denom.toNat ≤ timeLeft timebase deadline currentTime
  past : deadline < currentTime →
    (computeBudgetForDeadline timebase deadline currentTime).toInt ≤ 0

def overdue (timebase : Timebase) (deadline currentTime : UInt64) : Nat :=
  (currentTime.toNat - deadline.toNat) * timebase.numer.toNat % 18446744073709551616

/-- A deadline that is past is told from one far off only by what the wraps happen to leave, or
    where a tick is a whole number of nanoseconds. -/
def Noticed (timebase : Timebase) (deadline currentTime : UInt64) : Prop :=
  currentTime ≤ deadline ∨
    overdue timebase deadline currentTime = 0 ∨
    18446744073709551616 - overdue timebase deadline currentTime <
      1000000001 * timebase.denom.toNat ∨
    timebase.denom.toNat = 1 ∧
      overdue timebase deadline currentTime + 1000000000 ≤ 9223372036854775808

instance (timebase : Timebase) (deadline currentTime : UInt64) :
    Decidable (Noticed timebase deadline currentTime) :=
  inferInstanceAs (Decidable (_ ∨ _ ∨ _ ∨ _ ∧ _))

theorem wrapped_mul_mod {behind numer : Nat} (small : behind < 18446744073709551616) :
    (18446744073709551616 - behind) * numer % 18446744073709551616 =
      (18446744073709551616 - behind * numer % 18446744073709551616) % 18446744073709551616 := by
  have whole : (18446744073709551616 - behind) * numer + behind * numer =
      18446744073709551616 * numer := by
    rw [← Nat.add_mul, Nat.sub_add_cancel (Nat.le_of_lt small)]
  omega

theorem nanos_of_past (timebase : Timebase) {deadline currentTime : UInt64}
    (past : deadline < currentTime) :
    (machTimeToNanos timebase (deadline - currentTime)).toNat =
      (18446744073709551616 - overdue timebase deadline currentTime) % 18446744073709551616 /
        timebase.denom.toNat := by
  have less := UInt64.lt_iff_toNat_lt.mp past
  have wrapped : (deadline - currentTime).toNat =
      18446744073709551616 - (currentTime.toNat - deadline.toNat) := by
    have := currentTime.toNat_lt
    rw [UInt64.toNat_sub]
    omega
  rw [machTimeToNanos_toNat, wrapped, wrapped_mul_mod (by have := currentTime.toNat_lt; omega)]
  rfl

theorem inTime_ahead (timebase : Timebase) {deadline currentTime : UInt64}
    (ahead : currentTime ≤ deadline) : InTime timebase deadline currentTime := by
  have truncated : (machTimeToNanos timebase (deadline - currentTime)).toNat *
      timebase.denom.toNat ≤ timeLeft timebase deadline currentTime := by
    rw [machTimeToNanos_toNat, UInt64.toNat_sub_of_le _ _ ahead]
    exact Nat.le_trans (Nat.div_mul_le_self _ _) (Nat.mod_le _ _)
  have least : (computeBudgetForDeadline timebase deadline currentTime).toInt + 1000000000 ≤
      (machTimeToNanos timebase (deadline - currentTime)).toNat := by
    have := budget_cases timebase deadline currentTime rfl rfl
    omega
  have ends : ((computeBudgetForDeadline timebase deadline currentTime).toInt + 1000000000) *
      timebase.denom.toNat ≤ timeLeft timebase deadline currentTime :=
    Int.le_trans (Int.mul_le_mul_of_nonneg_right least (Int.natCast_nonneg _))
      (by exact_mod_cast truncated)
  refine ⟨fun _ => ends, ?_, fun past => absurd ahead (UInt64.not_le.mpr past)⟩
  exact Int.le_trans (Int.mul_le_mul_of_nonneg_right (by omega) (Int.natCast_nonneg _)) ends

theorem inTime_past_iff (timebase : Timebase) {deadline currentTime : UInt64}
    (past : deadline < currentTime) :
    InTime timebase deadline currentTime ↔
      (computeBudgetForDeadline timebase deadline currentTime).toInt ≤ 0 := by
  have less := UInt64.lt_iff_toNat_lt.mp past
  have none : timeLeft timebase deadline currentTime = 0 := by
    rw [timeLeft, Nat.sub_eq_zero_of_le (Nat.le_of_lt less), Nat.zero_mul]
  constructor
  · exact fun inTime => inTime.past past
  · intro expired
    refine ⟨fun more => ?_, ?_, fun _ => expired⟩
    · rw [none] at more
      change 1000000000 * (timebase.denom.toNat : Int) < 0 at more
      omega
    · rw [none]
      exact Int.mul_nonpos_of_nonpos_of_nonneg expired (Int.natCast_nonneg _)

theorem expired_iff (timebase : Timebase) {deadline currentTime : UInt64}
    (past : deadline < currentTime) :
    (computeBudgetForDeadline timebase deadline currentTime).toInt ≤ 0 ↔
      Noticed timebase deadline currentTime := by
  have ahead : ¬ currentTime ≤ deadline := UInt64.not_le.mpr past
  have short : overdue timebase deadline currentTime < 18446744073709551616 :=
    Nat.mod_lt _ (by decide)
  have cases_ := budget_cases timebase deadline currentTime (nanos_of_past timebase past) rfl
  simp only [Noticed, ahead, false_or]
  generalize overdue timebase deadline currentTime = since at short cases_ ⊢
  have positive := timebase.denom_pos
  by_cases one : timebase.denom.toNat = 1
  · rw [one, Nat.div_one] at cases_
    omega
  · have half : (18446744073709551616 - since) % 18446744073709551616 / timebase.denom.toNat <
        9223372036854775808 := by
      refine (Nat.div_lt_iff_lt_mul positive).mpr ?_
      omega
    have second : (18446744073709551616 - since) % 18446744073709551616 /
        timebase.denom.toNat < 1000000001 ↔
          (18446744073709551616 - since) % 18446744073709551616 <
            1000000001 * timebase.denom.toNat := Nat.div_lt_iff_lt_mul positive
    omega

/-- A budget ends in time iff the deadline is not past, or that it is past is noticed. -/
theorem inTime_iff (timebase : Timebase) (deadline currentTime : UInt64) :
    InTime timebase deadline currentTime ↔ Noticed timebase deadline currentTime := by
  rcases UInt64.lt_or_le deadline currentTime with past | ahead
  · exact (inTime_past_iff timebase past).trans (expired_iff timebase past)
  · exact iff_of_true (inTime_ahead timebase ahead) (.inl ahead)

theorem appleSilicon_pos : 0 < (125 : UInt32).toNat ∧ 0 < (3 : UInt32).toNat := by decide

def appleSilicon : Timebase := ⟨125, 3, appleSilicon_pos.1, appleSilicon_pos.2⟩

/-- A microsecond past its deadline a message has a budget of almost two hundred years. -/
theorem past_deadline_late : ¬ InTime appleSilicon 24000000 24000024 := by
  intro inTime
  exact absurd (inTime.past (by decide)) (by decide +kernel)

end SantaBudgets
