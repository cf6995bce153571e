import Santa.Common.SystemResources
import Santa.TemporaryMonitorMode.Session

/-!
The timer and the deadline of a session. The deadline is a Mach time, and is what is saved; the
timer is set in seconds, within bounds that are numbers of minutes. A session is resumed with the
whole seconds that are left until the saved deadline.
-/
namespace SantaTimerDeadline
open SantaSystemResources
open SantaPreflight (kMinTemporaryMonitorModeMinutes kMaxTemporaryMonitorModeMinutes)
open SantaMonitorMode (kMinAllowedStateRemainingSeconds)

structure Timer where
  minimumInterval : UInt32
  maximumInterval : UInt32
  intervalSeconds : UInt32
  deriving DecidableEq, Repr

def Timer.setTimerInterval (timer : Timer) (intervalSeconds : UInt32) : Timer :=
  { timer with
    intervalSeconds :=
      if intervalSeconds < timer.minimumInterval then timer.minimumInterval
      else if timer.maximumInterval < intervalSeconds then timer.maximumInterval
      else intervalSeconds }

def newTimer : Timer :=
  ⟨UInt32.ofNat kMinTemporaryMonitorModeMinutes, UInt32.ofNat kMaxTemporaryMonitorModeMinutes,
    UInt32.ofNat kMinTemporaryMonitorModeMinutes⟩

/-- A timer that is started, or is running and gets a new interval, fires once the interval has
    passed. -/
structure Session where
  timer : Timer
  deadline : UInt64
  savedDeadline : UInt64

def beginLocked (timebase : Timebase) (now : UInt64) (seconds : UInt32) : Session :=
  let deadline := addNanosecondsToMachTime timebase (seconds.toUInt64 * NSEC_PER_SEC) now
  ⟨newTimer.setTimerInterval seconds, deadline, deadline⟩

def secondsRemaining (timebase : Timebase) (now deadline : UInt64) : Option UInt64 :=
  if deadline ≤ now then none
  else some (machTimeToNanos timebase (deadline - now) / NSEC_PER_SEC)

/-- What begins a session: a request that was granted some minutes, or a saved deadline. -/
inductive Start where
  | request (minutes : UInt32) (positive : 1 ≤ minutes.toNat)
      (bounded : minutes.toNat ≤ kMaxTemporaryMonitorModeMinutes)
  | resume (savedDeadline : UInt64)

/-- The most seconds are those that 32 bits can tell. -/
def narrowed (seconds : UInt64) : UInt32 :=
  (if seconds < 4294967295 then seconds else 4294967295).toUInt32

/-- No session is resumed for a few seconds. -/
def startSeconds (timebase : Timebase) (now : UInt64) : Start → Option UInt32
  | .request minutes _ _ => some (minutes * 60)
  | .resume savedDeadline =>
      let remaining := (secondsRemaining timebase now savedDeadline).getD 0
      let seconds := narrowed remaining
      if seconds.toNat < kMinAllowedStateRemainingSeconds then none else some seconds

def start (timebase : Timebase) (now : UInt64) (begins : Start) : Option Session :=
  (startSeconds timebase now begins).map (beginLocked timebase now)

/-! ### Agreement -/

def secondsGiven (timebase : Timebase) (now : UInt64) : Start → Nat
  | .request minutes _ _ => minutes.toNat * 60
  | .resume savedDeadline =>
      (savedDeadline.toNat - now.toNat) * timebase.numer.toNat /
        (timebase.denom.toNat * 1000000000)

/-- The timer has the given seconds, and the deadline lies as many after now, but for less than a
    tick and a nanosecond. -/
structure Agrees (timebase : Timebase) (now : UInt64) (seconds : Nat) (session : Session) :
    Prop where
  timer : session.timer.intervalSeconds.toNat = seconds
  late : ((session.deadline.toNat : Int) - now.toNat) * timebase.numer.toNat ≤
    seconds * 1000000000 * timebase.denom.toNat
  early : (seconds * 1000000000 * timebase.denom.toNat : Int) + 2 ≤
    (session.deadline.toNat - now.toNat) * timebase.numer.toNat +
      (timebase.numer.toNat + timebase.denom.toNat)
  saved : session.savedDeadline = session.deadline

def LeftFits (timebase : Timebase) (now : UInt64) : Start → Prop
  | .request _ _ _ => True
  | .resume savedDeadline =>
      (savedDeadline.toNat - now.toNat) * timebase.numer.toNat < 18446744073709551616

structure WithinTimer (timebase : Timebase) (now : UInt64) (begins : Start) : Prop where
  seconds : secondsGiven timebase now begins ≤ kMaxTemporaryMonitorModeMinutes
  fits : Fits timebase (UInt64.ofNat (secondsGiven timebase now begins) * NSEC_PER_SEC) now
  left : LeftFits timebase now begins

variable {timebase : Timebase} {now : UInt64}

theorem secondsRemaining_toNat {deadline : UInt64} (later : ¬ deadline ≤ now) :
    ((secondsRemaining timebase now deadline).getD 0).toNat =
      (deadline.toNat - now.toNat) * timebase.numer.toNat % 18446744073709551616 /
        timebase.denom.toNat / 1000000000 := by
  rw [UInt64.le_iff_toNat_le, Nat.not_le] at later
  have elapsed : (deadline - now).toNat = deadline.toNat - now.toNat :=
    UInt64.toNat_sub_of_le _ _ (UInt64.le_iff_toNat_le.mpr (Nat.le_of_lt later))
  have second : NSEC_PER_SEC.toNat = 1000000000 := rfl
  unfold secondsRemaining
  rw [if_neg (by rw [UInt64.le_iff_toNat_le]; omega), Option.getD_some, UInt64.toNat_div,
    machTimeToNanos_toNat, elapsed, second]

theorem narrowed_toNat (r : UInt64) : (narrowed r).toNat = min r.toNat 4294967295 := by
  have most : (4294967295 : UInt64).toNat = 4294967295 := rfl
  rw [narrowed, UInt64.toNat_toUInt32]
  split
  · rename_i small
    rw [UInt64.lt_iff_toNat_lt, most] at small
    omega
  · rename_i large
    rw [UInt64.lt_iff_toNat_lt, most] at large
    omega

theorem startSeconds_cases {begins : Start} {seconds : UInt32}
    (begun : startSeconds timebase now begins = some seconds) :
    1 ≤ seconds.toNat ∧ seconds.toNat ≤ secondsGiven timebase now begins ∧
      (seconds.toNat = secondsGiven timebase now begins ↔
        LeftFits timebase now begins ∧ secondsGiven timebase now begins < 4294967296) := by
  cases begins with
  | request minutes positive bounded =>
    obtain rfl := Option.some.inj begun
    have most : kMaxTemporaryMonitorModeMinutes = 43200 := rfl
    have sixty : (60 : UInt32).toNat = 60 := rfl
    have seconds : (minutes * 60).toNat = minutes.toNat * 60 := by
      rw [UInt32.toNat_mul, sixty, Nat.mod_eq_of_lt (by omega)]
    simp only [secondsGiven, LeftFits, seconds, true_and, true_iff]
    omega
  | resume savedDeadline =>
    unfold startSeconds at begun
    dsimp only at begun
    split at begun
    · cases begun
    · rename_i enough
      obtain rfl := Option.some.inj begun
      by_cases later : savedDeadline ≤ now
      · have none : secondsRemaining timebase now savedDeadline = none := if_pos later
        rw [none] at enough
        exact absurd (by decide) enough
      · have remaining := @secondsRemaining_toNat timebase now savedDeadline later
        generalize (secondsRemaining timebase now savedDeadline).getD 0 = r at *
        have cut := narrowed_toNat r
        have less := Nat.mod_le ((savedDeadline.toNat - now.toNat) * timebase.numer.toNat)
          18446744073709551616
        have fewer := Nat.div_le_div_right (c := timebase.denom.toNat * 1000000000) less
        have exactly := @wholeSeconds_eq_iff (savedDeadline.toNat - now.toNat)
          timebase.numer.toNat _ timebase.denom_pos timebase.denom.toNat_lt
        rw [← remaining] at exactly
        rw [← Nat.div_div_eq_div_mul, ← remaining] at fewer
        rw [cut, kMinAllowedStateRemainingSeconds] at enough
        rw [cut]
        simp only [secondsGiven, LeftFits, ← exactly]
        omega

theorem setTimerInterval_toNat {seconds : UInt32} (positive : 1 ≤ seconds.toNat) :
    (newTimer.setTimerInterval seconds).intervalSeconds.toNat =
      min seconds.toNat kMaxTemporaryMonitorModeMinutes := by
  have low : newTimer.minimumInterval.toNat = 1 := rfl
  have high : newTimer.maximumInterval.toNat = 43200 := rfl
  have most : kMaxTemporaryMonitorModeMinutes = 43200 := rfl
  simp only [Timer.setTimerInterval, UInt32.lt_iff_toNat_lt, low, high]
  rw [if_neg (by omega)]
  split <;> omega

theorem nanoseconds_toNat (seconds : UInt32) :
    (seconds.toUInt64 * NSEC_PER_SEC).toNat = seconds.toNat * 1000000000 := by
  have second : NSEC_PER_SEC.toNat = 1000000000 := rfl
  have narrow := seconds.toNat_lt
  rw [UInt64.toNat_mul, UInt32.toNat_toUInt64, second, Nat.mod_eq_of_lt (by omega)]

/-- The timer and the deadline agree iff the timer's bounds leave the seconds as they are and no
    conversion wraps. -/
theorem session_agrees_iff {begins : Start} {session : Session}
    (begun : start timebase now begins = some session) :
    Agrees timebase now (secondsGiven timebase now begins) session ↔
      WithinTimer timebase now begins := by
  obtain ⟨seconds, started, rfl⟩ := Option.map_eq_some_iff.mp begun
  obtain ⟨positive, fewer, exactly⟩ := startSeconds_cases started
  have interval : (beginLocked timebase now seconds).timer.intervalSeconds.toNat = _ :=
    setTimerInterval_toNat positive
  have most : kMaxTemporaryMonitorModeMinutes = 43200 := rfl
  obtain ⟨wraps, rest, none, small, loss⟩ :=
    addNanosecondsToMachTime_loss timebase (seconds.toUInt64 * NSEC_PER_SEC) now
  rw [nanoseconds_toNat] at loss
  push_cast at loss
  have widened : UInt64.ofNat seconds.toNat = seconds.toUInt64 := UInt64.ofNat_uInt32ToNat seconds
  have numer := timebase.numer.toNat_lt
  have denom := timebase.denom.toNat_lt
  constructor
  · rintro ⟨timer, late, early, saved⟩
    -- The timer cannot have been cut to fewer seconds, since the session had no more than given.
    have given : seconds.toNat = secondsGiven timebase now begins := by omega
    obtain ⟨left, -⟩ := exactly.mp given
    have unwrapped : wraps = 0 := by
      simp only [beginLocked] at late early
      rw [← given] at early
      omega
    refine ⟨by omega, ?_, left⟩
    rw [← given, widened]
    exact none.mp unwrapped
  · rintro ⟨bounded, fits, left⟩
    have given : seconds.toNat = secondsGiven timebase now begins :=
      exactly.mpr ⟨left, by omega⟩
    rw [← given, widened] at fits
    have unwrapped := none.mpr fits
    refine ⟨by omega, ?_, ?_, rfl⟩
    · simp only [beginLocked]
      rw [← given]
      omega
    · simp only [beginLocked]
      rw [← given]
      omega

/-- Twelve hours are granted. -/
theorem twelve_hours_agree :
    Agrees .nanosecond 1000 (secondsGiven .nanosecond 1000 (.request 720 (by decide) (by decide)))
      (beginLocked .nanosecond 1000 43200) :=
  (@session_agrees_iff .nanosecond 1000 (.request 720 (by decide) (by decide)) _ rfl).mpr
    ⟨by decide, ⟨by decide, by decide, by decide⟩, trivial⟩

/-- A session of a day is ended by its timer after twelve hours. -/
theorem day_cut_short :
    ∃ session, start .nanosecond 1000 (.request 1440 (by decide) (by decide)) = some session ∧
      session.timer.intervalSeconds = 43200 ∧
      ¬ Agrees .nanosecond 1000
        (secondsGiven .nanosecond 1000 (.request 1440 (by decide) (by decide))) session :=
  ⟨_, rfl, by decide, fun agrees => absurd agrees.timer (by decide)⟩

/-! ### Sessions of the daemon -/

theorem setTimerInterval_clampInterval (seconds : UInt32) :
    (newTimer.setTimerInterval seconds).intervalSeconds.toNat =
      SantaMonitorMode.clampInterval seconds.toNat := by
  have low : newTimer.minimumInterval.toNat = 1 := rfl
  have high : newTimer.maximumInterval.toNat = 43200 := rfl
  have most : kMaxTemporaryMonitorModeMinutes = 43200 := rfl
  have least : kMinTemporaryMonitorModeMinutes = 1 := rfl
  unfold Timer.setTimerInterval SantaMonitorMode.clampInterval
  simp only [UInt32.lt_iff_toNat_lt, low, high, most, least]
  split
  · exact low
  · split
    · exact high
    · rfl

theorem beginLocked_session {s : SantaMonitorMode.System} {d d' : SantaMonitorMode.Daemon}
    {seconds : UInt32} {generated : Option String} {didStart : Bool}
    {state : SantaMonitorMode.SavedState}
    (fits : now.toNat + seconds.toNat * 1000000000 < 18446744073709551616)
    (begun : SantaMonitorMode.beginLocked s d seconds.toNat now.toNat generated =
      some (didStart, d', state)) :
    d'.timer = some (beginLocked .nanosecond now seconds).timer.intervalSeconds.toNat ∧
      d'.deadline = (beginLocked .nanosecond now seconds).deadline.toNat := by
  unfold SantaMonitorMode.beginLocked at begun
  obtain ⟨host, -, rest⟩ := Option.bind_eq_some_iff.mp begun
  obtain ⟨uuid, -, built⟩ := Option.map_eq_some_iff.mp rest
  obtain ⟨-, built⟩ := Prod.mk.inj built
  obtain ⟨rfl, -⟩ := Prod.mk.inj built
  refine ⟨congrArg some (setTimerInterval_clampInterval seconds).symm, ?_⟩
  simp only [beginLocked, addNanosecondsToMachTime, machTimeToNanos_nanosecond,
    nanosToMachTime_nanosecond, UInt64.toNat_add, nanoseconds_toNat, SantaMonitorMode.nsecPerSec]
  exact (Nat.mod_eq_of_lt fits).symm

end SantaTimerDeadline
