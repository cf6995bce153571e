import Santa.Library.KeyedArchive
import Santa.Sync.Preflight

/-!
Mode transitions and their archives. A number in an archive is given by what its selectors
return, and a selector that is sent to nil returns zero. A revocation has no minutes; decoding
clamps the minutes of every transition.
-/
namespace SantaModeTransition
open SantaPreflight (kMinTemporaryMonitorModeMinutes kMaxTemporaryMonitorModeMinutes
  clampMinutes_bounds clampMinutes_idem)

structure NSNumber where
  unsignedLongLongValue : UInt64
  unsignedIntValue : UInt32
  intValue : Int32
  narrow : unsignedLongLongValue.toNat < 4294967296 →
    unsignedIntValue.toNat = unsignedLongLongValue.toNat

theorem narrow_uint64 (n : UInt64) (small : n.toNat < 4294967296) :
    n.toUInt32.toNat = n.toNat := by
  rw [UInt64.toNat_toUInt32, Nat.mod_eq_of_lt small]

def NSNumber.ofUInt64 (n : UInt64) : NSNumber :=
  ⟨n, n.toUInt32, n.toUInt32.toInt32, narrow_uint64 n⟩

theorem narrow_int32 (n : Int32) (small : n.toInt64.toUInt64.toNat < 4294967296) :
    n.toUInt32.toNat = n.toInt64.toUInt64.toNat := by
  have wide : n.toInt64.toUInt64.toNat = (n.toBitVec.signExtend 64).toNat := rfl
  have same : n.toUInt32.toNat = n.toBitVec.toNat := rfl
  have bound := n.toBitVec.isLt
  rw [wide, BitVec.toNat_signExtend] at small ⊢
  rw [BitVec.toNat_setWidth, Nat.mod_eq_of_lt (by omega)] at small ⊢
  split at small
  · omega
  · rename_i nonneg
    rw [if_neg nonneg]
    exact same

def NSNumber.ofInt32 (n : Int32) : NSNumber :=
  ⟨n.toInt64.toUInt64, n.toUInt32, n, narrow_int32 n⟩

/-- The type is an `NSInteger` that came from an `int`. -/
structure SNTModeTransition where
  type : Int32
  maxMinutes : Option NSNumber
  defaultDurationMinutes : Option NSNumber

def SNTModeTransitionTypeRevoke : Int32 := 1
def SNTModeTransitionTypeOnDemand : Int32 := 2

def unsignedLongLongValue (number : Option NSNumber) : UInt64 :=
  (number.map NSNumber.unsignedLongLongValue).getD 0

def unsignedIntValue (number : Option NSNumber) : UInt32 :=
  (number.map NSNumber.unsignedIntValue).getD 0

def clampMinutes (minutesVal : UInt64) : NSNumber :=
  .ofUInt64 (UInt64.ofNat (SantaPreflight.clampMinutes minutesVal.toNat))

def clampDefaultDuration (maxMinutes : NSNumber) (durationVal : UInt64) : NSNumber :=
  if durationVal = 0 ∨ durationVal > maxMinutes.unsignedLongLongValue then maxMinutes
  else .ofUInt64 durationVal

def initRevocation : SNTModeTransition := ⟨SNTModeTransitionTypeRevoke, none, none⟩

def withMinutes (type : Int32) (minutes defaultDuration : UInt64) : SNTModeTransition :=
  ⟨type, some (clampMinutes minutes),
    some (clampDefaultDuration (clampMinutes minutes) defaultDuration)⟩

def initOnDemandMinutes (minutes defaultDuration : UInt32) : Option SNTModeTransition :=
  if minutes = 0 then none
  else some (withMinutes SNTModeTransitionTypeOnDemand minutes.toUInt64 defaultDuration.toUInt64)

def getDurationMinutes (t : SNTModeTransition) (requestedDuration : Option NSNumber) : UInt32 :=
  let durationVal := unsignedLongLongValue requestedDuration
  if durationVal = 0 then unsignedIntValue t.defaultDurationMinutes
  else if durationVal > unsignedLongLongValue t.maxMinutes then unsignedIntValue t.maxMinutes
  else unsignedIntValue requestedDuration

/-! ### Archives -/

inductive NSClass where
  | number
  | modeTransition
  | other (name : String)
  deriving DecidableEq

inductive Plain where
  | number (n : NSNumber)
  | other (kind : NSClass)

abbrev NSObject := Archived NSClass Plain

def nsNumber (n : NSNumber) : NSObject := .value (.number n)

def asNumber : NSObject → Option NSNumber
  | .value (.number n) => some n
  | _ => none

def encodeWithCoder (t : SNTModeTransition) : List (String × NSObject) :=
  Archived.encoded
    [("type", some (nsNumber (.ofInt32 t.type))),
     ("maxMinutes", t.maxMinutes.map nsNumber),
     ("defaultDurationMinutes", t.defaultDurationMinutes.map nsNumber)]

def initWithCoder (decoder : List (String × NSObject)) : Option SNTModeTransition := do
  let type ← Archived.decoded asNumber (decoder.lookup "type")
  let maxMinutes ← Archived.decoded asNumber (decoder.lookup "maxMinutes")
  let defaultDurationMinutes ←
    Archived.decoded asNumber (decoder.lookup "defaultDurationMinutes")
  return withMinutes ((type.map NSNumber.intValue).getD 0) (unsignedLongLongValue maxMinutes)
    (unsignedLongLongValue defaultDurationMinutes)

def serialize (t : SNTModeTransition) : NSObject := .object .modeTransition (encodeWithCoder t)

/-- An object of another class is not decoded. -/
def deserialize : NSObject → Option SNTModeTransition
  | .object .modeTransition fields => initWithCoder fields
  | _ => none

/-! ### Where a transition comes from -/

inductive Origin where
  | revocation
  | onDemandMinutes (minutes : UInt32)
  | onDemandMinutesWithDefault (minutes defaultDuration : UInt32)
  | archive (data : NSObject)

def Origin.make : Origin → Option SNTModeTransition
  | .revocation => some initRevocation
  | .onDemandMinutes minutes => initOnDemandMinutes minutes 0
  | .onDemandMinutesWithDefault minutes defaultDuration =>
      initOnDemandMinutes minutes defaultDuration
  | .archive data => deserialize data

structure InRange (t : SNTModeTransition) : Prop where
  bounds : kMinTemporaryMonitorModeMinutes ≤ (unsignedLongLongValue t.maxMinutes).toNat ∧
    (unsignedLongLongValue t.maxMinutes).toNat ≤ kMaxTemporaryMonitorModeMinutes
  duration : ∀ requestedDuration, 1 ≤ (getDurationMinutes t requestedDuration).toNat ∧
    (getDurationMinutes t requestedDuration).toNat ≤ (unsignedLongLongValue t.maxMinutes).toNat
  roundTrip : deserialize (serialize t) = some t

/-! ### Clamped minutes -/

theorem clampMinutes_toNat (minutes : UInt64) :
    (clampMinutes minutes).unsignedLongLongValue.toNat =
      SantaPreflight.clampMinutes minutes.toNat := by
  have high := (clampMinutes_bounds minutes.toNat).2
  have small : kMaxTemporaryMonitorModeMinutes = 43200 := rfl
  exact UInt64.toNat_ofNat_of_lt (by
    have : UInt64.size = 18446744073709551616 := rfl
    omega)

theorem clampMinutes_mem (minutes : UInt64) :
    1 ≤ (clampMinutes minutes).unsignedLongLongValue.toNat ∧
      (clampMinutes minutes).unsignedLongLongValue.toNat ≤ 43200 := by
  rw [clampMinutes_toNat]
  exact clampMinutes_bounds minutes.toNat

theorem clampMinutes_again (minutes : UInt64) :
    clampMinutes (clampMinutes minutes).unsignedLongLongValue = clampMinutes minutes := by
  rw [clampMinutes, clampMinutes_toNat, clampMinutes_idem]
  rfl

theorem clampDefaultDuration_mem {maxMinutes : NSNumber}
    (positive : 1 ≤ maxMinutes.unsignedLongLongValue.toNat) (duration : UInt64) :
    1 ≤ (clampDefaultDuration maxMinutes duration).unsignedLongLongValue.toNat ∧
      (clampDefaultDuration maxMinutes duration).unsignedLongLongValue.toNat ≤
        maxMinutes.unsignedLongLongValue.toNat := by
  unfold clampDefaultDuration
  split
  · exact ⟨positive, Nat.le_refl _⟩
  · rename_i given
    rw [not_or, gt_iff_lt, UInt64.lt_iff_toNat_lt, ← UInt64.toNat_inj, UInt64.toNat_zero] at given
    simp only [NSNumber.ofUInt64]
    omega

theorem clampDefaultDuration_again (minutes duration : UInt64) :
    clampDefaultDuration (clampMinutes minutes)
        (clampDefaultDuration (clampMinutes minutes) duration).unsignedLongLongValue =
      clampDefaultDuration (clampMinutes minutes) duration := by
  obtain ⟨low, high⟩ :=
    clampDefaultDuration_mem (clampMinutes_mem minutes).1 duration
  have given : ¬ ((clampDefaultDuration (clampMinutes minutes) duration).unsignedLongLongValue = 0 ∨
      (clampDefaultDuration (clampMinutes minutes) duration).unsignedLongLongValue >
        (clampMinutes minutes).unsignedLongLongValue) := by
    rw [not_or, gt_iff_lt, UInt64.lt_iff_toNat_lt, ← UInt64.toNat_inj, UInt64.toNat_zero]
    omega
  rw [clampDefaultDuration, if_neg given]
  unfold clampDefaultDuration
  split <;> rfl

theorem narrow_of_le {number : NSNumber} (small : number.unsignedLongLongValue.toNat ≤ 43200) :
    number.unsignedIntValue.toNat = number.unsignedLongLongValue.toNat :=
  number.narrow (by omega)

theorem getDurationMinutes_mem (type : Int32) (minutes duration : UInt64)
    (requestedDuration : Option NSNumber) :
    1 ≤ (getDurationMinutes (withMinutes type minutes duration) requestedDuration).toNat ∧
      (getDurationMinutes (withMinutes type minutes duration) requestedDuration).toNat ≤
        (clampMinutes minutes).unsignedLongLongValue.toNat := by
  obtain ⟨low, high⟩ := clampMinutes_mem minutes
  unfold getDurationMinutes
  dsimp only
  split
  · obtain ⟨low', high'⟩ := clampDefaultDuration_mem low duration
    have value := narrow_of_le (Nat.le_trans high' high)
    simp only [withMinutes, unsignedIntValue, Option.map_some, Option.getD_some, value]
    exact ⟨low', high'⟩
  · rename_i asked
    split
    · simp only [withMinutes, unsignedIntValue, Option.map_some, Option.getD_some,
        narrow_of_le high]
      exact ⟨low, Nat.le_refl _⟩
    · rename_i within
      cases requestedDuration with
      | none => exact absurd rfl asked
      | some requested =>
        simp only [withMinutes, unsignedLongLongValue, Option.map_some, Option.getD_some,
          gt_iff_lt, UInt64.lt_iff_toNat_lt, Nat.not_lt, ← UInt64.toNat_inj,
          UInt64.toNat_zero] at asked within
        simp only [unsignedIntValue, Option.map_some, Option.getD_some,
          narrow_of_le (Nat.le_trans within high)]
        omega

theorem deserialize_serialize (t : SNTModeTransition) :
    deserialize (serialize t) =
      some (withMinutes t.type (unsignedLongLongValue t.maxMinutes)
        (unsignedLongLongValue t.defaultDurationMinutes)) := by
  have distinct : ["type", "maxMinutes", "defaultDurationMinutes"].Nodup := by decide
  have read (key : String) := Archived.lookup_encoded
    (show (([("type", some (nsNumber (.ofInt32 t.type))),
      ("maxMinutes", t.maxMinutes.map nsNumber),
      ("defaultDurationMinutes", t.defaultDurationMinutes.map nsNumber)] :
      List (String × Option NSObject)).map Prod.fst).Nodup from distinct) key
  have number (n : Option NSNumber) : Archived.decoded asNumber (n.map nsNumber) = some n :=
    Archived.decoded_map fun _ _ => rfl
  simp only [deserialize, serialize, encodeWithCoder, initWithCoder]
  rw [read "type", read "maxMinutes", read "defaultDurationMinutes"]
  have type : Archived.decoded asNumber (some (nsNumber (.ofInt32 t.type))) =
      some (some (.ofInt32 t.type)) := rfl
  simp [List.lookup_cons, number, type]
  rfl

theorem serialize_roundTrip (type : Int32) (minutes duration : UInt64) :
    deserialize (serialize (withMinutes type minutes duration)) =
      some (withMinutes type minutes duration) := by
  rw [deserialize_serialize]
  simp only [withMinutes, unsignedLongLongValue, Option.map_some, Option.getD_some,
    clampMinutes_again, clampDefaultDuration_again]

theorem withMinutes_inRange (type : Int32) (minutes duration : UInt64) :
    InRange (withMinutes type minutes duration) :=
  ⟨clampMinutes_mem minutes, getDurationMinutes_mem type minutes duration,
    serialize_roundTrip type minutes duration⟩

theorem revocation_unbounded : ¬ InRange initRevocation :=
  fun inRange => absurd inRange.bounds.1 (by decide)

theorem made_withMinutes {origin : Origin} {t : SNTModeTransition} (made : origin.make = some t)
    (other : origin ≠ .revocation) :
    ∃ type minutes duration, t = withMinutes type minutes duration := by
  have onDemand {minutes defaultDuration : UInt32}
      (made : initOnDemandMinutes minutes defaultDuration = some t) :
      ∃ type minutes duration, t = withMinutes type minutes duration := by
    unfold initOnDemandMinutes at made
    split at made
    · cases made
    · exact ⟨_, _, _, (Option.some.inj made).symm⟩
  cases origin with
  | revocation => exact absurd rfl other
  | onDemandMinutes minutes => exact onDemand made
  | onDemandMinutesWithDefault minutes defaultDuration => exact onDemand made
  | archive data =>
    simp only [Origin.make] at made
    cases data with
    | value v => cases made
    | array items => cases made
    | object kind fields =>
      cases kind with
      | number => cases made
      | other name => cases made
      | modeTransition =>
        simp only [deserialize, initWithCoder, Option.bind_eq_bind, Option.bind_eq_some_iff] at made
        obtain ⟨type, -, maxMinutes, -, defaultDurationMinutes, -, built⟩ := made
        exact ⟨_, _, _, (Option.some.inj built).symm⟩

/-- A transition stays in range and round-trips iff it was not made as a revocation. -/
theorem in_range_iff {origin : Origin} {t : SNTModeTransition} (made : origin.make = some t) :
    InRange t ↔ origin ≠ .revocation := by
  constructor
  · rintro inRange rfl
    rw [← Option.some.inj made] at inRange
    exact revocation_unbounded inRange
  · intro other
    obtain ⟨type, minutes, duration, rfl⟩ := made_withMinutes made other
    exact withMinutes_inRange type minutes duration

theorem huge_minutes_in_range :
    InRange (withMinutes SNTModeTransitionTypeOnDemand 4294967295 0) :=
  (@in_range_iff (.onDemandMinutes 4294967295) _ rfl).mpr (by simp)

/-- A revocation has no minutes before it is archived, and one minute afterwards. -/
theorem revocation_out_of_range :
    Origin.revocation.make = some initRevocation ∧ getDurationMinutes initRevocation none = 0 ∧
      deserialize (serialize initRevocation) =
        some (withMinutes SNTModeTransitionTypeRevoke 0 0) ∧ ¬ InRange initRevocation :=
  ⟨rfl, rfl, rfl, revocation_unbounded⟩

/-! ### Transitions of the sync state -/

structure Represents (t : SNTModeTransition) (m : SantaConfigurator.ModeTransition) : Prop where
  maxMinutes : m.maxMinutes = t.maxMinutes.map (·.unsignedLongLongValue.toNat)
  defaultDurationMinutes :
    m.defaultDurationMinutes = t.defaultDurationMinutes.map (·.unsignedLongLongValue.toNat)

theorem represents_getD {number : Option NSNumber} :
    (number.map (·.unsignedLongLongValue.toNat)).getD 0 = (unsignedLongLongValue number).toNat := by
  cases number <;> rfl

theorem clampDefaultDuration_toNat (maxMinutes : NSNumber) (duration : UInt64) :
    (clampDefaultDuration maxMinutes duration).unsignedLongLongValue.toNat =
      SantaPreflight.clampDefaultDuration maxMinutes.unsignedLongLongValue.toNat duration.toNat := by
  have same : (duration = 0 ∨ duration > maxMinutes.unsignedLongLongValue) ↔
      (duration.toNat = 0 ∨ duration.toNat > maxMinutes.unsignedLongLongValue.toNat) := by
    rw [gt_iff_lt, UInt64.lt_iff_toNat_lt, ← UInt64.toNat_inj, UInt64.toNat_zero]
  unfold clampDefaultDuration SantaPreflight.clampDefaultDuration
  simp only [same]
  split <;> rfl

theorem represents_decoded {t t' : SNTModeTransition} {m : SantaConfigurator.ModeTransition}
    (represents : Represents t m) (decoded : deserialize (serialize t) = some t') :
    Represents t' (SantaPreflight.initWithCoder m) := by
  rw [deserialize_serialize] at decoded
  obtain rfl := Option.some.inj decoded
  obtain ⟨maxMinutes, defaultDurationMinutes⟩ := represents
  constructor
  · simp only [SantaPreflight.initWithCoder, withMinutes, maxMinutes, represents_getD,
      Option.map_some, clampMinutes_toNat]
  · simp only [SantaPreflight.initWithCoder, withMinutes, maxMinutes, defaultDurationMinutes,
      represents_getD, Option.map_some, clampDefaultDuration_toNat, clampMinutes_toNat]

end SantaModeTransition
