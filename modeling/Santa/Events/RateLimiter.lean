import Santa.Common.SystemResources
import Santa.Library.MachineWords
import Santa.Library.Runs
import Mathlib.Data.List.Basic

/-!
Rate limiting. A window starts with the first event after the end of the last one, and the
first window follows an end at Mach time zero. The settings are numbers of 32 bits, and so is
their product.
-/
namespace SantaRateLimiter
open SantaSystemResources Runs

/-- The duration is not set, and not read, while the limiter is disabled. -/
structure RateLimiter where
  maxWindowSize : UInt32
  logCountTotal : UInt64
  maxLogCountTotal : UInt64
  resetMachTime : UInt64
  resetDurationNs : UInt64
  deriving DecidableEq, Repr

def sizeMax : UInt64 := 18446744073709551615

def RateLimiter.modifySettings (l : RateLimiter) (logsPerSec windowSizeSec : UInt32) :
    RateLimiter :=
  let windowSizeSec := if windowSizeSec > l.maxWindowSize then l.maxWindowSize else windowSizeSec
  if logsPerSec = 0 ∨ windowSizeSec = 0 then
    { l with maxLogCountTotal := sizeMax, resetMachTime := sizeMax }
  else
    { l with
      maxLogCountTotal := (logsPerSec * windowSizeSec).toUInt64
      resetDurationNs := windowSizeSec.toUInt64 * NSEC_PER_SEC
      resetMachTime := 0 }

def RateLimiter.new (maxWindowSize logsPerSec windowSizeSec : UInt32) : RateLimiter :=
  RateLimiter.modifySettings ⟨maxWindowSize, 0, 0, 0, 0⟩ logsPerSec windowSizeSec

def RateLimiter.shouldRateLimit (l : RateLimiter) : Bool := l.logCountTotal > l.maxLogCountTotal

def RateLimiter.eventsRateLimited (l : RateLimiter) : UInt64 :=
  if l.shouldRateLimit then l.logCountTotal - l.maxLogCountTotal else 0

def RateLimiter.restart (timebase : Timebase) (l : RateLimiter) (curMachTime : UInt64) :
    RateLimiter :=
  { l with
    logCountTotal := 0
    resetMachTime := addNanosecondsToMachTime timebase l.resetDurationNs curMachTime }

def RateLimiter.tryReset (timebase : Timebase) (l : RateLimiter) (curMachTime : UInt64) :
    RateLimiter × Option Int64 :=
  if curMachTime > l.resetMachTime then
    (l.restart timebase curMachTime, some l.eventsRateLimited.toInt64)
  else (l, none)

inductive Decision where
  | rateLimited
  | allowed
  deriving DecidableEq, Repr

def RateLimiter.count (l : RateLimiter) : RateLimiter :=
  { l with logCountTotal := l.logCountTotal + 1 }

def RateLimiter.decision (l : RateLimiter) : Decision :=
  if l.shouldRateLimit then .rateLimited else .allowed

def RateLimiter.decide (timebase : Timebase) (l : RateLimiter) (curMachTime : UInt64) :
    Decision × RateLimiter × Option Int64 :=
  let (l, reported) := l.tryReset timebase curMachTime
  (l.count.decision, l.count, reported)

def decisions (timebase : Timebase) : RateLimiter → List UInt64 → List Decision
  | _, [] => []
  | l, time :: times =>
      let (decision, l, _) := l.decide timebase time
      decision :: decisions timebase l times

/-! ### Windows -/

structure Window where
  ends : UInt64
  events : Nat

def Window.next (windowEnd : UInt64 → UInt64) (w : Window) (time : UInt64) : Window :=
  if time > w.ends then ⟨windowEnd time, 1⟩ else ⟨w.ends, w.events + 1⟩

def ranks (windowEnd : UInt64 → UInt64) : Window → List UInt64 → List Nat
  | _, [] => []
  | w, time :: times =>
      (w.next windowEnd time).events :: ranks windowEnd (w.next windowEnd time) times

def windowRanks (timebase : Timebase) (windowSizeSec : UInt32) (times : List UInt64) : List Nat :=
  ranks (addNanosecondsToMachTime timebase (windowSizeSec.toUInt64 * NSEC_PER_SEC)) ⟨0, 0⟩ times

def expected (logsPerSec windowSizeSec : UInt32) (rank : Nat) : Decision :=
  if logsPerSec = 0 ∨ windowSizeSec = 0 ∨ rank ≤ logsPerSec.toNat * windowSizeSec.toNat then
    .allowed
  else .rateLimited

/-- Of each window the first events are allowed, as many as the settings give. -/
def LimitsByRank (timebase : Timebase) (maxWindowSize logsPerSec windowSizeSec : UInt32)
    (times : List UInt64) : Prop :=
  decisions timebase (RateLimiter.new maxWindowSize logsPerSec windowSizeSec) times =
    (windowRanks timebase windowSizeSec times).map (expected logsPerSec windowSizeSec)

/-- No window has more events than the low 32 bits of the product give, unless these are the
    product. -/
def CountsFit (timebase : Timebase) (logsPerSec windowSizeSec : UInt32) (times : List UInt64) :
    Prop :=
  logsPerSec = 0 ∨ windowSizeSec = 0 ∨ ∀ rank ∈ windowRanks timebase windowSizeSec times,
    rank ≤ (logsPerSec * windowSizeSec).toNat ∨
      logsPerSec.toNat * windowSizeSec.toNat < 4294967296 ∧ rank < 18446744073709551616

instance (timebase : Timebase) (logsPerSec windowSizeSec : UInt32) (times : List UInt64) :
    Decidable (CountsFit timebase logsPerSec windowSizeSec times) :=
  inferInstanceAs (Decidable (_ ∨ _ ∨ _))

theorem length_ranks {windowEnd : UInt64 → UInt64} {w : Window} (times : List UInt64) :
    (ranks windowEnd w times).length = times.length := by
  induction times generalizing w with
  | nil => rfl
  | cons time times ih => simp only [ranks, List.length_cons, ih]

theorem ranks_below {windowEnd : UInt64 → UInt64} {w : Window} {times : List UInt64}
    {rank lower : Nat} (member : rank ∈ ranks windowEnd w times) (below : lower ≤ rank) :
    lower ≤ w.events ∨ lower = 0 ∨ lower ∈ ranks windowEnd w times := by
  induction times generalizing w with
  | nil => exact absurd member List.not_mem_nil
  | cons time times ih =>
    simp only [ranks, List.mem_cons] at member ⊢
    have first : lower ≤ (w.next windowEnd time).events →
        lower ≤ w.events ∨ lower = 0 ∨ lower = (w.next windowEnd time).events := by
      unfold Window.next
      split <;> simp only <;> omega
    rcases member with rfl | later
    · rcases first below with here | none | same
      · exact .inl here
      · exact .inr (.inl none)
      · exact .inr (.inr (.inl same))
    · rcases ih later with here | none | there
      · rcases first here with here | none | same
        · exact .inl here
        · exact .inr (.inl none)
        · exact .inr (.inr (.inl same))
      · exact .inr (.inl none)
      · exact .inr (.inr (.inr there))

/-! ### The limiter follows the windows -/

structure Follows (l : RateLimiter) (w : Window) : Prop where
  ends : l.resetMachTime = w.ends
  events : l.logCountTotal = UInt64.ofNat w.events

structure SameSettings (l l' : RateLimiter) : Prop where
  maxLogCountTotal : l'.maxLogCountTotal = l.maxLogCountTotal
  resetDurationNs : l'.resetDurationNs = l.resetDurationNs

def decisionAt (maxLogCountTotal : UInt64) (rank : Nat) : Decision :=
  if UInt64.ofNat rank > maxLogCountTotal then .rateLimited else .allowed

theorem decision_eq {l : RateLimiter} {rank : Nat} (counted : l.logCountTotal = UInt64.ofNat rank) :
    l.decision = decisionAt l.maxLogCountTotal rank := by
  unfold RateLimiter.decision RateLimiter.shouldRateLimit decisionAt
  simp only [counted, decide_eq_true_eq]

theorem decide_follows {timebase : Timebase} {l : RateLimiter} {w : Window} (time : UInt64)
    (follows : Follows l w) :
    let w' := w.next (addNanosecondsToMachTime timebase l.resetDurationNs) time
    (l.decide timebase time).1 = decisionAt l.maxLogCountTotal w'.events ∧
      Follows (l.decide timebase time).2.1 w' ∧ SameSettings l (l.decide timebase time).2.1 := by
  obtain ⟨ends, events⟩ := follows
  unfold RateLimiter.decide RateLimiter.tryReset Window.next
  rw [ends]
  split
  · exact ⟨decision_eq rfl, ⟨rfl, rfl⟩, ⟨rfl, rfl⟩⟩
  · have counted : l.logCountTotal + 1 = UInt64.ofNat (w.events + 1) := by
      rw [events, UInt64.ofNat_add]
      rfl
    exact ⟨decision_eq counted, ⟨ends, counted⟩, ⟨rfl, rfl⟩⟩

theorem decisions_follow {timebase : Timebase} {l : RateLimiter} {w : Window}
    (follows : Follows l w) (times : List UInt64) :
    decisions timebase l times =
      (ranks (addNanosecondsToMachTime timebase l.resetDurationNs) w times).map
        (decisionAt l.maxLogCountTotal) := by
  induction times generalizing l w with
  | nil => rfl
  | cons time times ih =>
    obtain ⟨decided, follows', same⟩ := @decide_follows timebase _ _ time follows
    simp only [decisions, ranks, List.map_cons]
    rw [ih follows', decided, same.maxLogCountTotal, same.resetDurationNs]

/-! ### Settings -/

theorem new_disabled {maxWindowSize logsPerSec windowSizeSec : UInt32}
    (bounded : windowSizeSec ≤ maxWindowSize) (off : logsPerSec = 0 ∨ windowSizeSec = 0) :
    RateLimiter.new maxWindowSize logsPerSec windowSizeSec =
      ⟨maxWindowSize, 0, sizeMax, sizeMax, 0⟩ := by
  unfold RateLimiter.new RateLimiter.modifySettings
  simp only [UInt32.not_lt.mpr bounded, if_false, if_pos off]

theorem new_enabled {maxWindowSize logsPerSec windowSizeSec : UInt32}
    (bounded : windowSizeSec ≤ maxWindowSize) (on : ¬ (logsPerSec = 0 ∨ windowSizeSec = 0)) :
    RateLimiter.new maxWindowSize logsPerSec windowSizeSec =
      ⟨maxWindowSize, 0, (logsPerSec * windowSizeSec).toUInt64, 0,
        windowSizeSec.toUInt64 * NSEC_PER_SEC⟩ := by
  unfold RateLimiter.new RateLimiter.modifySettings
  simp only [UInt32.not_lt.mpr bounded, if_false, if_neg on]

theorem decisionAt_sizeMax (rank : Nat) : decisionAt sizeMax rank = .allowed := by
  unfold decisionAt
  have top : ¬ UInt64.ofNat rank > sizeMax := by
    rw [gt_iff_lt, UInt64.lt_iff_toNat_lt]
    have := (UInt64.ofNat rank).toNat_lt
    have : sizeMax.toNat = 18446744073709551615 := rfl
    omega
  rw [if_neg top]

theorem decisionAt_eq_expected {logsPerSec windowSizeSec : UInt32}
    (on : ¬ (logsPerSec = 0 ∨ windowSizeSec = 0)) (rank : Nat) :
    decisionAt (logsPerSec * windowSizeSec).toUInt64 rank = expected logsPerSec windowSizeSec rank ↔
      (rank % 18446744073709551616 ≤ (logsPerSec * windowSizeSec).toNat ↔
        rank ≤ logsPerSec.toNat * windowSizeSec.toNat) := by
  have low : UInt64.ofNat rank > (logsPerSec * windowSizeSec).toUInt64 ↔
      ¬ rank % 18446744073709551616 ≤ (logsPerSec * windowSizeSec).toNat := by
    rw [gt_iff_lt, UInt64.lt_iff_toNat_lt, UInt32.toNat_toUInt64, UInt64.toNat_ofNat', Nat.not_le]
  have high : (logsPerSec = 0 ∨ windowSizeSec = 0 ∨
      rank ≤ logsPerSec.toNat * windowSizeSec.toNat) ↔
      rank ≤ logsPerSec.toNat * windowSizeSec.toNat := by
    rw [← or_assoc, or_iff_right on]
  unfold decisionAt expected
  simp only [low, high]
  by_cases given : rank ≤ logsPerSec.toNat * windowSizeSec.toNat <;> simp [given]

theorem decisions_disabled {timebase : Timebase} {l : RateLimiter}
    (unlimited : l.maxLogCountTotal = sizeMax) (endless : l.resetMachTime = sizeMax)
    (times : List UInt64) : decisions timebase l times = List.replicate times.length .allowed := by
  have follows : Follows l ⟨sizeMax, l.logCountTotal.toNat⟩ :=
    ⟨endless, UInt64.ofNat_toNat.symm⟩
  rw [decisions_follow follows, unlimited,
    List.map_congr_left fun rank _ => decisionAt_sizeMax rank, List.map_const', length_ranks]

theorem expected_disabled {logsPerSec windowSizeSec : UInt32}
    (off : logsPerSec = 0 ∨ windowSizeSec = 0) (rank : Nat) :
    expected logsPerSec windowSizeSec rank = .allowed := if_pos (or_assoc.mp (.inl off))

theorem product_limits_iff {ranks : List Nat} {product low : Nat}
    (wrapped : low = product % 4294967296) (wide : product < 18446744073709551616)
    (below : ∀ rank ∈ ranks, ∀ lower ≤ rank, lower = 0 ∨ lower ∈ ranks) :
    (∀ rank ∈ ranks, (rank % 18446744073709551616 ≤ low ↔ rank ≤ product)) ↔
      ∀ rank ∈ ranks, rank ≤ low ∨ product < 4294967296 ∧ rank < 18446744073709551616 := by
  constructor
  · intro same rank member
    by_cases fits : rank ≤ low
    · exact .inl fits
    · refine .inr ⟨?_, ?_⟩
      · rcases below rank member (low + 1) (by omega) with none | there
        · omega
        · have here := same (low + 1) there
          omega
      · by_contra many
        rcases below rank member 18446744073709551616 (by omega) with none | there
        · omega
        · have here := same 18446744073709551616 there
          omega
  · intro fits rank member
    have here := fits rank member
    omega

/-- Events are limited by their ranks iff no window has too many for the product of 32 bits. -/
theorem limits_by_rank_iff {maxWindowSize logsPerSec windowSizeSec : UInt32}
    (bounded : windowSizeSec ≤ maxWindowSize) (timebase : Timebase) (times : List UInt64) :
    LimitsByRank timebase maxWindowSize logsPerSec windowSizeSec times ↔
      CountsFit timebase logsPerSec windowSizeSec times := by
  unfold LimitsByRank CountsFit
  by_cases off : logsPerSec = 0 ∨ windowSizeSec = 0
  · refine iff_of_true ?_ (or_assoc.mp (.inl off))
    rw [new_disabled bounded off, decisions_disabled rfl rfl]
    unfold windowRanks
    rw [List.map_congr_left fun rank _ => expected_disabled off rank, List.map_const',
      length_ranks]
  · rw [new_enabled bounded off, @decisions_follow _ _ ⟨0, 0⟩ ⟨rfl, rfl⟩, ← or_assoc,
      or_iff_right off]
    unfold windowRanks
    simp only [List.map_inj_left, decisionAt_eq_expected off]
    refine product_limits_iff ?_ ?_ fun rank member lower below => ?_
    · exact UInt32.toNat_mul logsPerSec windowSizeSec
    · have := Nat.mul_lt_mul'' logsPerSec.toNat_lt windowSizeSec.toNat_lt
      omega
    · rcases ranks_below member below with none | none | there
      · exact .inl (Nat.le_zero.mp none)
      · exact .inl none
      · exact .inr there

theorem window_of_three :
    LimitsByRank .nanosecond 3600 3 1 [1, 1, 2, 2, 1000000002] :=
  (limits_by_rank_iff (by decide) .nanosecond [1, 1, 2, 2, 1000000002]).mpr (by decide +kernel)

/-- The product is zero in 32 bits, and the first event is limited. -/
theorem wrapped_product_limits : ¬ LimitsByRank .nanosecond 3600 2147483648 2 [1] := by
  unfold LimitsByRank
  decide +kernel

/-! ### What is reported -/

inductive Call where
  | decide (curMachTime : UInt64)
  | modifySettings (logsPerSec windowSizeSec : UInt32)
  deriving DecidableEq, Repr

/-- The limiter with the sum of the reported counts and what was limited, altogether and in the
    current window. The settings that changed in the window have lowered the number of counted
    events above the maximum by `lowered`. -/
structure Accounts where
  limiter : RateLimiter
  reported : Int
  limitedInWindow : Nat
  limited : Nat
  lowered : Int

def RateLimiter.excess (l : RateLimiter) : Nat := l.logCountTotal.toNat - l.maxLogCountTotal.toNat

def Accounts.new (limiter : RateLimiter) : Accounts := ⟨limiter, 0, 0, 0, 0⟩

def Accounts.decide (timebase : Timebase) (s : Accounts) (curMachTime : UInt64) : Accounts :=
  let (decision, limiter, report) := s.limiter.decide timebase curMachTime
  let one := if decision = .rateLimited then 1 else 0
  match report with
  | some count =>
      ⟨limiter, s.reported + count.toInt, one, s.limited + one, 0⟩
  | none => ⟨limiter, s.reported, s.limitedInWindow + one, s.limited + one, s.lowered⟩

def Accounts.modifySettings (s : Accounts) (logsPerSec windowSizeSec : UInt32) : Accounts :=
  let limiter := s.limiter.modifySettings logsPerSec windowSizeSec
  { s with
    limiter := limiter
    lowered := s.lowered + s.limiter.excess - limiter.excess }

def step (timebase : Timebase) (s : Accounts) : Call → Option Accounts
  | .decide curMachTime => some (s.decide timebase curMachTime)
  | .modifySettings logsPerSec windowSizeSec => some (s.modifySettings logsPerSec windowSizeSec)

/-- Every limited event is reported or belongs to the current window. -/
def Accounted (s : Accounts) : Prop := s.reported + s.limitedInWindow = s.limited

/-- A window ends only while changes of the settings have, taken together, left the number of
    events above the maximum as it was, and has fewer than 2^63 events. -/
def KeepsExcess (s : Accounts) : Call → Prop
  | .decide curMachTime =>
      s.limiter.logCountTotal.toNat < 9223372036854775808 ∧
        (curMachTime > s.limiter.resetMachTime → s.lowered = 0)
  | .modifySettings _ _ => True

instance (s : Accounts) (call : Call) : Decidable (KeepsExcess s call) := by
  cases call with
  | decide curMachTime => exact inferInstanceAs (Decidable (_ ∧ (_ → _)))
  | modifySettings logsPerSec windowSizeSec => exact inferInstanceAs (Decidable True)

structure Counted (s : Accounts) : Prop where
  accounted : Accounted s
  above : (s.limitedInWindow : Int) = s.limiter.excess + s.lowered

theorem eventsRateLimited_toNat (l : RateLimiter) : l.eventsRateLimited.toNat = l.excess := by
  unfold RateLimiter.eventsRateLimited RateLimiter.shouldRateLimit RateLimiter.excess
  simp only [gt_iff_lt, decide_eq_true_eq, UInt64.lt_iff_toNat_lt]
  split
  · rename_i above
    exact UInt64.toNat_sub_of_le _ _ (UInt64.le_iff_toNat_le.mpr (Nat.le_of_lt above))
  · rename_i below
    rw [UInt64.toNat_zero]
    omega

theorem report_eq {l : RateLimiter} (few : l.logCountTotal.toNat < 9223372036854775808) :
    l.eventsRateLimited.toInt64.toInt = l.excess := by
  have small : l.excess < 9223372036854775808 := by
    unfold RateLimiter.excess
    omega
  rw [← eventsRateLimited_toNat] at small ⊢
  exact MachineWords.toInt_toInt64 small

theorem excess_count {l : RateLimiter} (few : l.logCountTotal.toNat < 9223372036854775808) :
    l.count.excess = l.excess + if l.count.decision = .rateLimited then 1 else 0 := by
  have counted : l.count.logCountTotal.toNat = l.logCountTotal.toNat + 1 := by
    unfold RateLimiter.count
    rw [UInt64.toNat_add, UInt64.toNat_one, Nat.mod_eq_of_lt (by omega)]
  have limited : l.count.decision = .rateLimited ↔
      l.maxLogCountTotal.toNat < l.logCountTotal.toNat + 1 := by
    unfold RateLimiter.decision RateLimiter.shouldRateLimit
    rw [← counted, ← UInt64.lt_iff_toNat_lt]
    simp [RateLimiter.count]
  have same : l.count.maxLogCountTotal = l.maxLogCountTotal := rfl
  simp only [RateLimiter.excess, counted, limited, same]
  split <;> omega

theorem excess_reset {l : RateLimiter} (none : l.logCountTotal = 0) : l.excess = 0 := by
  unfold RateLimiter.excess
  rw [none]
  exact Nat.zero_sub _

theorem decide_counted {timebase : Timebase} {s : Accounts} {curMachTime : UInt64}
    (counted : Counted s) (keeps : KeepsExcess s (.decide curMachTime)) :
    Counted (s.decide timebase curMachTime) := by
  obtain ⟨accounted, above⟩ := counted
  obtain ⟨few, ended⟩ := keeps
  unfold Accounted at accounted
  by_cases after : curMachTime > s.limiter.resetMachTime
  · -- The window has ended: what it limited is what is reported.
    have report := report_eq few
    have unchanged := ended after
    have empty : (s.limiter.restart timebase curMachTime).logCountTotal = 0 := rfl
    have restarted := @excess_count (s.limiter.restart timebase curMachTime)
      (by rw [empty]; decide)
    rw [excess_reset empty] at restarted
    simp only [Accounts.decide, RateLimiter.decide, RateLimiter.tryReset, if_pos after]
    exact ⟨by simp only [Accounted]; omega, by simp only; omega⟩
  · have grown := excess_count few
    simp only [Accounts.decide, RateLimiter.decide, RateLimiter.tryReset, if_neg after]
    exact ⟨by simp only [Accounted]; omega, by simp only; omega⟩

theorem step_counted {timebase : Timebase} (s : Accounts) (call : Call) (s' : Accounts)
    (counted : Counted s) (keeps : KeepsExcess s call) (next : step timebase s call = some s') :
    Counted s' := by
  cases call with
  | decide curMachTime =>
    obtain rfl := Option.some.inj next
    exact decide_counted counted keeps
  | modifySettings logsPerSec windowSizeSec =>
    obtain rfl := Option.some.inj next
    obtain ⟨accounted, above⟩ := counted
    refine ⟨accounted, ?_⟩
    simp only [Accounts.modifySettings]
    omega

theorem new_counted (maxWindowSize logsPerSec windowSizeSec : UInt32) :
    Counted (Accounts.new (RateLimiter.new maxWindowSize logsPerSec windowSizeSec)) := by
  have none : (RateLimiter.new maxWindowSize logsPerSec windowSizeSec).logCountTotal = 0 := by
    unfold RateLimiter.new RateLimiter.modifySettings
    dsimp only
    split <;> split <;> rfl
  exact ⟨rfl, by simp [Accounts.new, excess_reset none]⟩

/-- Every limited event is accounted for in a run whose windows end with the excess that their
    events were limited by. -/
theorem limited_accounted {timebase : Timebase} {maxWindowSize logsPerSec windowSizeSec : UInt32}
    {calls : List Call}
    (keeps : Meets (step timebase) KeepsExcess
      (Accounts.new (RateLimiter.new maxWindowSize logsPerSec windowSizeSec)) calls) :
    Always (step timebase) Accounted
      (Accounts.new (RateLimiter.new maxWindowSize logsPerSec windowSizeSec)) calls :=
  always_mono (fun _ counted => counted.accounted)
    (always_of_meets step_counted (new_counted maxWindowSize logsPerSec windowSizeSec) keeps)

theorem raised_before_limits :
    Always (step .nanosecond) Accounted (Accounts.new (RateLimiter.new 3600 1 1))
      [.decide 1, .decide 1, .decide 2000000000, .modifySettings 3 1, .decide 2000000000] :=
  limited_accounted (by decide +kernel)

def raisedInWindow : List Call := [.decide 1, .decide 1, .decide 1, .modifySettings 10 1, .decide 2]

/-- Two events are limited, and none is above the maximum when their window ends. -/
theorem raised_unaccounted :
    ¬ Always (step .nanosecond) Accounted (Accounts.new (RateLimiter.new 3600 1 1)) raisedInWindow := by
  intro always
  have reached : ∃ s, run (step .nanosecond) (Accounts.new (RateLimiter.new 3600 1 1)) raisedInWindow =
      some s ∧ ¬ Accounted s := by
    refine ⟨_, rfl, ?_⟩
    unfold Accounted
    decide +kernel
  obtain ⟨s, ends, missing⟩ := reached
  exact missing (always_last always ends)

end SantaRateLimiter
