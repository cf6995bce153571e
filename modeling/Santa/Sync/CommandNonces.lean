import Santa.Library.AgingSet
import Santa.Library.Runs

/-!
Replay protection of the commands that arrive over NATS. A command passes when
its HMAC is right, its issue time is within 300 seconds of the clock on either
side, its UUID is well formed, and the UUID is in neither nonce set. The clock is
read twice for each command, once for the issue time and once for the nonces.
The HMAC and the UUID syntax belong to system libraries and stay parameters.
Seconds since 1970 are far from the limits of 64 bits, and an issue time whose
distance from the clock would overflow is refused whichever way it wraps.
-/
namespace SantaCommandNonces

def kMaxCommandAgeSeconds : Int := 300
def kMaxCommandNonceCacheCount : Nat := 300

inductive Request where
  | ping
  | kill (target : String)
  | notSet
  deriving DecidableEq, Repr

structure SantaCommandRequest where
  uuid : String
  issuedAt : Int
  command : Request
  hmac : String
  deriving DecidableEq, Repr

inductive CommandError where
  | invalidData
  | invalidUUID
  | unknownRequestType
  deriving DecidableEq, Repr

inductive SantaCommandResponse where
  | error (e : CommandError)
  | ping
  | kill
  deriving DecidableEq, Repr

def verifyCommandRequestTimestamp (now : Int) (command : SantaCommandRequest) : Bool :=
  let age := now - command.issuedAt
  ¬ (age > kMaxCommandAgeSeconds ∨ age < -kMaxCommandAgeSeconds)

/- The two generations are currentNonces and previousNonces. -/
def checkAndRecordNonce (nonces : AgingSet String) (uuid : String) (now : Int) :
    Bool × AgingSet String :=
  let nonces := nonces.refresh kMaxCommandAgeSeconds now
  if kMaxCommandNonceCacheCount ≤ nonces.current.length then (false, nonces)
  else if nonces.Holds uuid then (false, nonces)
  else (true, nonces.record uuid)

structure Delivery where
  command : SantaCommandRequest
  verifiedAt : Int
  checkedAt : Int
  deriving DecidableEq, Repr

section
variable (hmacValid : SantaCommandRequest → Bool) (validUUID : String → Bool)

def dispatchSantaCommandToHandler (nonces : AgingSet String) (d : Delivery) :
    SantaCommandResponse × AgingSet String :=
  if !hmacValid d.command then (.error .invalidData, nonces)
  else if !verifyCommandRequestTimestamp d.verifiedAt d.command then (.error .invalidData, nonces)
  else if !validUUID d.command.uuid then (.error .invalidUUID, nonces)
  else match checkAndRecordNonce nonces d.command.uuid d.checkedAt with
    | (false, nonces) => (.error .invalidData, nonces)
    | (true, nonces) =>
        match d.command.command with
        | .ping => (.ping, nonces)
        | .kill _ => (.kill, nonces)
        | .notSet => (.error .unknownRequestType, nonces)

def SantaCommandResponse.passedNonce : SantaCommandResponse → Bool
  | .error .invalidData => false
  | .error .invalidUUID => false
  | _ => true

/-- The receiver, the last reading of its clock, and the commands that passed so far,
    each with the rotation in force when its nonce was recorded. -/
structure Receiver where
  nonces : AgingSet String
  clock : Int
  passed : List (SantaCommandRequest × Int)
  deriving DecidableEq, Repr

def Receiver.new (now : Int) : Receiver := ⟨.empty now, now, []⟩

def step (s : Receiver) (d : Delivery) : Option Receiver :=
  if s.clock ≤ d.verifiedAt ∧ d.verifiedAt ≤ d.checkedAt then
    let (response, nonces) := dispatchSantaCommandToHandler hmacValid validUUID s.nonces d
    some ⟨nonces, d.checkedAt,
      if response.passedNonce then (d.command, nonces.lastRotation) :: s.passed else s.passed⟩
  else none

structure ReplayProtected (s : Receiver) : Prop where
  once : (s.passed.map fun e => e.1.uuid).Nodup
  remembered : ∀ e ∈ s.passed, verifyCommandRequestTimestamp s.clock e.1 = true →
    s.nonces.Holds e.1.uuid

def Reaches (d : Delivery) : Prop :=
  hmacValid d.command = true ∧ verifyCommandRequestTimestamp d.verifiedAt d.command = true ∧
    validUUID d.command.uuid = true

/-- A rotation that falls due drops no command that is still fresh, and a UUID that two
    rotations have dropped does not come back. -/
def Timely (s : Receiver) (d : Delivery) : Prop :=
  Reaches hmacValid validUUID d →
    (s.nonces.Due kMaxCommandAgeSeconds d.checkedAt → ∀ e ∈ s.passed,
      e.1.uuid ∈ s.nonces.previous →
        verifyCommandRequestTimestamp d.checkedAt e.1 = false) ∧
    (∀ e ∈ s.passed, e.1.uuid = d.command.uuid →
      e.1.uuid ∈ s.nonces.current ∨
      (¬ s.nonces.Due kMaxCommandAgeSeconds d.checkedAt ∧
        (e.1.uuid ∈ s.nonces.previous ∨
          kMaxCommandNonceCacheCount ≤ s.nonces.current.length)))

variable {hmacValid validUUID}

theorem verify_true {now : Int} {c : SantaCommandRequest} :
    verifyCommandRequestTimestamp now c = true ↔
      -300 ≤ now - c.issuedAt ∧ now - c.issuedAt ≤ 300 := by
  simp only [verifyCommandRequestTimestamp, decide_eq_true_iff]
  simp only [kMaxCommandAgeSeconds]
  omega

theorem check_throttled {nonces : AgingSet String} {uuid : String} {now : Int}
    (full : 300 ≤ (nonces.refresh kMaxCommandAgeSeconds now).current.length) :
    checkAndRecordNonce nonces uuid now = (false, nonces.refresh kMaxCommandAgeSeconds now) := by
  simp [checkAndRecordNonce, kMaxCommandNonceCacheCount, full]

theorem check_replay {nonces : AgingSet String} {uuid : String} {now : Int}
    (held : (nonces.refresh kMaxCommandAgeSeconds now).Holds uuid) :
    checkAndRecordNonce nonces uuid now = (false, nonces.refresh kMaxCommandAgeSeconds now) := by
  simp [checkAndRecordNonce, held]

theorem check_new {nonces : AgingSet String} {uuid : String} {now : Int}
    (room : ¬ 300 ≤ (nonces.refresh kMaxCommandAgeSeconds now).current.length)
    (free : ¬ (nonces.refresh kMaxCommandAgeSeconds now).Holds uuid) :
    checkAndRecordNonce nonces uuid now =
      (true, (nonces.refresh kMaxCommandAgeSeconds now).record uuid) := by
  simp [checkAndRecordNonce, kMaxCommandNonceCacheCount, room, free]

theorem dispatch_stopped (nonces : AgingSet String) {d : Delivery}
    (stopped : ¬ Reaches hmacValid validUUID d) :
    ∃ e, dispatchSantaCommandToHandler hmacValid validUUID nonces d = (.error e, nonces) ∧
      SantaCommandResponse.passedNonce (.error e) = false := by
  simp only [dispatchSantaCommandToHandler]
  by_cases hmac : hmacValid d.command = true
  · by_cases fresh : verifyCommandRequestTimestamp d.verifiedAt d.command = true
    · have malformed : validUUID d.command.uuid = false := by
        by_contra wellFormed
        exact stopped ⟨hmac, fresh, by simpa using wellFormed⟩
      exact ⟨.invalidUUID, by simp [hmac, fresh, malformed], rfl⟩
    · exact ⟨.invalidData, by simp [hmac, fresh], rfl⟩
  · exact ⟨.invalidData, by simp [hmac], rfl⟩

theorem dispatch_reaching (nonces : AgingSet String) {d : Delivery}
    (reaches : Reaches hmacValid validUUID d) :
    ∃ r, dispatchSantaCommandToHandler hmacValid validUUID nonces d =
        (r, (checkAndRecordNonce nonces d.command.uuid d.checkedAt).2) ∧
      r.passedNonce = (checkAndRecordNonce nonces d.command.uuid d.checkedAt).1 := by
  obtain ⟨hmac, fresh, wellFormed⟩ := reaches
  simp only [dispatchSantaCommandToHandler, hmac, fresh, wellFormed, Bool.not_true,
    Bool.false_eq_true, if_false]
  rcases checkAndRecordNonce nonces d.command.uuid d.checkedAt with ⟨novel, after⟩
  cases novel with
  | false => exact ⟨_, rfl, rfl⟩
  | true =>
    cases d.command.command with
    | ping => exact ⟨_, rfl, rfl⟩
    | kill target => exact ⟨_, rfl, rfl⟩
    | notSet => exact ⟨_, rfl, rfl⟩

theorem step_cases {s t : Receiver} {d : Delivery} (h : step hmacValid validUUID s d = some t) :
    (s.clock ≤ d.verifiedAt ∧ d.verifiedAt ≤ d.checkedAt) ∧
    ((¬ Reaches hmacValid validUUID d ∧ t = { s with clock := d.checkedAt }) ∨
     (Reaches hmacValid validUUID d ∧
      (300 ≤ (s.nonces.refresh kMaxCommandAgeSeconds d.checkedAt).current.length ∨
        (s.nonces.refresh kMaxCommandAgeSeconds d.checkedAt).Holds d.command.uuid) ∧
      t = ⟨s.nonces.refresh kMaxCommandAgeSeconds d.checkedAt, d.checkedAt, s.passed⟩) ∨
     (Reaches hmacValid validUUID d ∧
      ¬ 300 ≤ (s.nonces.refresh kMaxCommandAgeSeconds d.checkedAt).current.length ∧
      ¬ (s.nonces.refresh kMaxCommandAgeSeconds d.checkedAt).Holds d.command.uuid ∧
      t = ⟨(s.nonces.refresh kMaxCommandAgeSeconds d.checkedAt).record d.command.uuid, d.checkedAt,
        (d.command, (s.nonces.refresh kMaxCommandAgeSeconds d.checkedAt).lastRotation) ::
          s.passed⟩)) := by
  simp only [step] at h
  split at h
  · rename_i ordered
    refine ⟨ordered, ?_⟩
    by_cases reaches : Reaches hmacValid validUUID d
    · obtain ⟨r, dispatched, verdict⟩ := dispatch_reaching s.nonces reaches
      rw [dispatched] at h
      simp only [verdict, Option.some.injEq] at h
      by_cases full : 300 ≤ (s.nonces.refresh kMaxCommandAgeSeconds d.checkedAt).current.length
      · rw [check_throttled full] at h
        exact Or.inr (Or.inl ⟨reaches, Or.inl full, h.symm⟩)
      by_cases held : (s.nonces.refresh kMaxCommandAgeSeconds d.checkedAt).Holds d.command.uuid
      · rw [check_replay held] at h
        exact Or.inr (Or.inl ⟨reaches, Or.inr held, h.symm⟩)
      · rw [check_new full held] at h
        exact Or.inr (Or.inr ⟨reaches, full, held, h.symm⟩)
    · obtain ⟨e, dispatched, verdict⟩ := dispatch_stopped s.nonces reaches
      rw [dispatched] at h
      simp only [verdict, Option.some.injEq] at h
      exact Or.inl ⟨reaches, h.symm⟩
  · simp at h

structure Inv (s : Receiver) : Prop extends ReplayProtected s where
  apart : s.nonces.Apart
  /-- No command that passed lies further ahead than the clock allowed. -/
  issued : ∀ e ∈ s.passed, -300 ≤ s.clock - e.1.issuedAt

theorem fresh_before {now later : Int} {c : SantaCommandRequest} (order : now ≤ later)
    (issued : -300 ≤ now - c.issuedAt) (fresh : verifyCommandRequestTimestamp later c = true) :
    verifyCommandRequestTimestamp now c = true := by
  rw [verify_true] at fresh ⊢
  omega

theorem inv_later {s : Receiver} {now : Int} (inv : Inv s) (order : s.clock ≤ now) :
    Inv { s with clock := now } := by
  refine ⟨⟨inv.once, ?_⟩, inv.apart, ?_⟩
  · intro e member fresh
    exact inv.remembered e member (fresh_before order (inv.issued e member) fresh)
  · intro e member
    have before := inv.issued e member
    simp only
    omega

/-- The refresh of a timely delivery forgets nothing that is still fresh. -/
theorem inv_refresh {s : Receiver} {now : Int} (inv : Inv s) (order : s.clock ≤ now)
    (spared : s.nonces.Due kMaxCommandAgeSeconds now → ∀ e ∈ s.passed,
      e.1.uuid ∈ s.nonces.previous → verifyCommandRequestTimestamp now e.1 = false) :
    Inv ⟨s.nonces.refresh kMaxCommandAgeSeconds now, now, s.passed⟩ := by
  have moved := inv_later inv order
  refine ⟨⟨inv.once, ?_⟩, AgingSet.apart_refresh inv.apart _ _, moved.issued⟩
  intro e member fresh
  rw [AgingSet.holds_refresh]
  rcases moved.remembered e member fresh with current | previous
  · exact Or.inl current
  · by_cases due : s.nonces.Due kMaxCommandAgeSeconds now
    · have expired := spared due e member previous
      simp only at fresh
      rw [expired] at fresh
      simp at fresh
    · exact Or.inr ⟨previous, due⟩

theorem step_keeps (s : Receiver) (d : Delivery) (t : Receiver) (inv : Inv s)
    (timely : Timely hmacValid validUUID s d) (h : step hmacValid validUUID s d = some t) :
    Inv t := by
  obtain ⟨ordered, ⟨_, same⟩ | ⟨reaches, _, same⟩ | ⟨reaches, room, free, same⟩⟩ := step_cases h
  · rw [same]
    exact inv_later inv (by omega)
  · rw [same]
    exact inv_refresh inv (by omega) (timely reaches).1
  · obtain ⟨spared, known⟩ := timely reaches
    have kept := inv_refresh inv (by omega) spared
    have new : d.command.uuid ∉ s.passed.map fun e => e.1.uuid := by
      intro repeated
      obtain ⟨e, member, uuid⟩ := List.mem_map.mp repeated
      rcases known e member uuid with current | ⟨early, previous | full⟩
      · exact free (by rw [AgingSet.holds_refresh, ← uuid]; exact Or.inl current)
      · exact free (by rw [AgingSet.holds_refresh, ← uuid]; exact Or.inr ⟨previous, early⟩)
      · exact room (by rw [AgingSet.refresh_early early]; exact full)
    rw [same]
    refine ⟨⟨?_, ?_⟩, AgingSet.apart_record kept.apart free, ?_⟩
    · exact List.nodup_cons.mpr ⟨new, inv.once⟩
    · intro e member fresh
      rw [AgingSet.holds_record]
      rcases List.mem_cons.mp member with this_one | before
      · exact Or.inl (by rw [this_one])
      · exact Or.inr (kept.remembered e before fresh)
    · intro e member
      rcases List.mem_cons.mp member with this_one | before
      · have window := verify_true.mp reaches.2.1
        rw [this_one]
        simp only
        omega
      · exact kept.issued e before

theorem dropped {nonces : AgingSet String} (apart : nonces.Apart) {now : Int} {uuid : String}
    (due : nonces.Due kMaxCommandAgeSeconds now) (previous : uuid ∈ nonces.previous) :
    ¬ (nonces.refresh kMaxCommandAgeSeconds now).Holds uuid := by
  rw [AgingSet.holds_refresh]
  rintro (current | ⟨_, early⟩)
  · exact apart uuid previous current
  · exact early due

theorem step_breaks (s : Receiver) (d : Delivery) (t : Receiver) (inv : Inv s)
    (untimely : ¬ Timely hmacValid validUUID s d) (h : step hmacValid validUUID s d = some t) :
    ¬ ReplayProtected t := by
  intro safe
  refine untimely ?_
  intro reaches
  obtain ⟨_, ⟨stopped, _⟩ | ⟨_, refused, same⟩ | ⟨_, _, _, same⟩⟩ := step_cases h
  · exact absurd reaches stopped
  · subst same
    refine ⟨?_, ?_⟩
    · intro due e member previous
      rw [← Bool.not_eq_true]
      intro fresh
      exact dropped inv.apart due previous (safe.remembered e member fresh)
    · intro e _ uuid
      rw [uuid]
      rcases refused with full | held
      · have early : ¬ s.nonces.Due kMaxCommandAgeSeconds d.checkedAt := by
          intro due
          simp [AgingSet.refresh_due due] at full
        rw [AgingSet.refresh_early early] at full
        exact Or.inr ⟨early, Or.inr full⟩
      · rcases AgingSet.holds_refresh.mp held with current | ⟨previous, early⟩
        · exact Or.inl current
        · exact Or.inr ⟨early, Or.inl previous⟩
  · subst same
    have new := (List.nodup_cons.mp safe.once).1
    have other : ∀ e ∈ s.passed, e.1.uuid ≠ d.command.uuid := by
      intro e member uuid
      exact new (List.mem_map.mpr ⟨e, member, uuid⟩)
    refine ⟨?_, fun e member uuid => absurd uuid (other e member)⟩
    intro due e member previous
    rw [← Bool.not_eq_true]
    intro fresh
    have held := safe.remembered e (List.mem_cons_of_mem _ member) fresh
    rcases AgingSet.holds_record.mp held with uuid | held
    · exact other e member uuid
    · exact dropped inv.apart due previous held

theorem inv_new (now : Int) : Inv (Receiver.new now) :=
  ⟨⟨by simp [Receiver.new], by simp [Receiver.new]⟩, by simp [AgingSet.Apart, Receiver.new,
    AgingSet.empty], by simp [Receiver.new]⟩

/-- Commands are protected from replay exactly in the runs whose rotations come late enough
    for the commands they drop. -/
theorem replay_protected_iff (hmacValid : SantaCommandRequest → Bool) (validUUID : String → Bool)
    (now : Int) (ds : List Delivery) :
    Runs.Always (step hmacValid validUUID) ReplayProtected (Receiver.new now) ds ↔
      Runs.Meets (step hmacValid validUUID) (Timely hmacValid validUUID) (Receiver.new now) ds :=
  Runs.always_iff_meets Inv (fun _ inv => inv.toReplayProtected) step_keeps step_breaks
    (inv_new now) ds

def pingAt (uuid : String) (issuedAt readAt : Int) : Delivery :=
  ⟨⟨uuid, issuedAt, .ping, ""⟩, readAt, readAt⟩

/-- A command issued 300 seconds ahead passes at 0 and again at 600, after a rotation at 300
    and another at 600. -/
theorem command_issued_ahead_replayed :
    ¬ ∀ now ds, Runs.Always (step (fun _ => true) (fun _ => true)) ReplayProtected
        (Receiver.new now) ds := by
  intro always
  have twice : (Runs.run (step (fun _ => true) (fun _ => true)) (Receiver.new 0)
      [pingAt "kill" 300 0, pingAt "ping" 300 300, pingAt "kill" 300 600]).map
        (fun s => s.passed.map fun e => e.1.uuid) = some ["kill", "ping", "kill"] := by
    decide
  obtain ⟨last, ends, uuids⟩ := Option.map_eq_some_iff.mp twice
  have once := (Runs.always_last (always 0 _) ends).once
  rw [uuids] at once
  simp at once

theorem kept_step {s t : Receiver} {d : Delivery}
    (kept : AgingSet.Kept kMaxCommandAgeSeconds s.nonces (s.passed.map fun e => (e.1.uuid, e.2)))
    (h : step hmacValid validUUID s d = some t) :
    AgingSet.Kept kMaxCommandAgeSeconds t.nonces (t.passed.map fun e => (e.1.uuid, e.2)) := by
  have refreshed := AgingSet.kept_refresh d.checkedAt (by decide) kept
  obtain ⟨_, ⟨_, same⟩ | ⟨_, _, same⟩ | ⟨_, _, _, same⟩⟩ := step_cases h
  · rw [same]
    exact kept
  · rw [same]
    exact refreshed
  · rw [same]
    exact AgingSet.kept_record d.command.uuid refreshed

theorem rotation_past_step {s t : Receiver} {d : Delivery}
    (past : s.nonces.lastRotation ≤ s.clock) (h : step hmacValid validUUID s d = some t) :
    t.nonces.lastRotation ≤ t.clock := by
  have refreshed : (s.nonces.refresh kMaxCommandAgeSeconds d.checkedAt).lastRotation ≤
      max s.nonces.lastRotation d.checkedAt := by
    by_cases due : s.nonces.Due kMaxCommandAgeSeconds d.checkedAt
    · rw [AgingSet.refresh_due due]
      exact Int.le_max_right _ _
    · rw [AgingSet.refresh_early due]
      exact Int.le_max_left _ _
  obtain ⟨_, ⟨_, same⟩ | ⟨_, _, same⟩ | ⟨_, _, _, same⟩⟩ := step_cases h
  · rw [same]
    simp only
    omega
  · rw [same]
    simp only
    omega
  · rw [same]
    simp only [AgingSet.record]
    omega

/-- In any run, a command issued less than 300 seconds after the rotation in force when it
    passed is remembered for as long as it is fresh. -/
theorem promptly_issued_remembered (hmacValid : SantaCommandRequest → Bool)
    (validUUID : String → Bool) (now : Int) (ds : List Delivery) :
    Runs.Always (step hmacValid validUUID)
      (fun s => ∀ e ∈ s.passed, e.1.issuedAt < e.2 + 300 →
        verifyCommandRequestTimestamp s.clock e.1 = true → s.nonces.Holds e.1.uuid)
      (Receiver.new now) ds := by
  refine Runs.always_mono ?_ (Runs.always_of_keep (fun s =>
    s.nonces.lastRotation ≤ s.clock ∧ AgingSet.Kept kMaxCommandAgeSeconds s.nonces
      (s.passed.map fun e => (e.1.uuid, e.2))) ?_ ?_ ds)
  · rintro s ⟨past, kept⟩ e member prompt fresh
    have window := verify_true.mp fresh
    refine AgingSet.kept_holds kept (List.mem_map_of_mem member) ?_
    simp only [kMaxCommandAgeSeconds]
    omega
  · rintro s d t ⟨past, kept⟩ h
    exact ⟨rotation_past_step past h, kept_step kept h⟩
  · exact ⟨by simp [Receiver.new, AgingSet.empty], by simp [AgingSet.Kept, Receiver.new]⟩

end

end SantaCommandNonces
