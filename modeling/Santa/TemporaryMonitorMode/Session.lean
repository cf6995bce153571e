import Santa.Library.Runs
import Santa.Policy.PolicyProcessor
import Santa.Sync.Preflight

/-!
Temporary Monitor Mode. A call's part under `lock_` is one step, and so is the
timer's handler: a call that takes the lock between the handler's halves has to
enter the queue that the handler is on. The policy and the sync server can change
between the steps of a request. What a step writes to disk and the audit events
it sends are its effects, in their order; the daemon can die between two of them.
-/
namespace SantaMonitorMode
open SantaConfigurator SantaPreflight SantaPolicy
open SantaRule (isHex uppercase)

structure URL where
  absoluteString : String
  host : Option String
  deriving DecidableEq, Repr

def kPinnedDomains : List String := [".workshop.cloud", ".north-pole.tech"]

def isDomainPinned (url : Option URL) : Bool :=
  match url.bind URL.host with
  | none => false
  | some host => host ≠ "" && kPinnedDomains.any fun domain => domain.toList.isSuffixOf host.toList

/-- A UUID is given by its string, whose letters are upper-case. -/
def initWithUUIDString (string : String) : Option String :=
  let cs := string.toList
  if cs.length = 36 ∧ cs.zipIdx.all fun (c, i) =>
      if i ∈ [8, 13, 18, 23] then c = '-' else isHex c then
    some (uppercase cs)
  else none

inductive PlistValue where
  | string (s : String)
  | number (n : Nat)
  | other
  deriving DecidableEq, Repr

structure SavedState where
  bootUUID : Option PlistValue
  deadline : Option PlistValue
  syncURL : Option PlistValue
  sessionUUID : Option PlistValue
  deriving DecidableEq, Repr

inductive EnterReason where
  | onDemand
  | onDemandRefresh
  | restart
  deriving DecidableEq, Repr

inductive LeaveReason where
  | sessionExpired
  | cancelled
  | revoked
  | syncServerChanged
  | reboot
  deriving DecidableEq, Repr

inductive AuditEvent where
  | enter (uuid : Option String) (seconds : Nat) (reason : EnterReason)
  | leave (uuid : Option String) (reason : LeaveReason)
  deriving DecidableEq, Repr

def AuditEvent.uuid : AuditEvent → Option String
  | .enter uuid _ _ => uuid
  | .leave uuid _ => uuid

/-- A request waits for the user, or has read the policy and waits for the lock. No requested
    duration is one of zero. -/
inductive Request where
  | prompting (requestedDuration : Nat)
  | authorized (requestedDuration : Nat) (modeTransition : Option ModeTransition)

structure Daemon where
  inTemporaryMonitorMode : Bool
  timer : Option Nat
  deadline : Nat
  currentUUID : Option String
  requests : Nat → Option Request

structure System where
  configuredMode : SNTClientMode
  syncBaseURL : Option URL
  storedTransition : Option ModeTransition
  saved : Option SavedState
  trail : List AuditEvent
  bootSessionUUID : String
  daemon : Option Daemon

def System.modeTransition (s : System) : Option ModeTransition :=
  s.storedTransition.map initWithCoder

def System.host (s : System) : Option String := s.syncBaseURL.bind URL.host

def storedModeTransition (transition : Option ModeTransition) : Option ModeTransition :=
  transition.filter fun t => t.type ≠ .revoke

inductive Effect where
  | setModeTransition (transition : Option ModeTransition)
  | saveState (state : Option SavedState)
  | auditEvent (event : AuditEvent)

def Effect.apply (s : System) : Effect → System
  | .setModeTransition transition =>
      { s with storedTransition := storedModeTransition transition }
  | .saveState state => { s with saved := state }
  | .auditEvent event => { s with trail := s.trail ++ [event] }

def getDurationMinutes (transition : Option ModeTransition) (requestedDuration : Nat) : Nat :=
  match transition with
  | none => 0
  | some t =>
      if requestedDuration = 0 then t.defaultDurationMinutes.getD 0
      else if requestedDuration > t.maxMinutes.getD 0 then t.maxMinutes.getD 0
      else requestedDuration

/-- The timer has the bounds of a number of minutes, and is set in seconds. -/
def clampInterval (seconds : Nat) : Nat :=
  if seconds < kMinTemporaryMonitorModeMinutes then kMinTemporaryMonitorModeMinutes
  else if seconds > kMaxTemporaryMonitorModeMinutes then kMaxTemporaryMonitorModeMinutes
  else seconds

def nsecPerSec : Nat := 1000000000

def secondsRemaining (deadline now : Nat) : Option Nat :=
  if deadline ≤ now then none else some ((deadline - now) / nsecPerSec)

def available (s : System) (d : Daemon) : Bool :=
  s.modeTransition.any (·.type = .onDemand) &&
    (let clientMode := if d.inTemporaryMonitorMode then .monitor else s.configuredMode
     clientMode = .lockdown || (clientMode = .monitor && d.inTemporaryMonitorMode)) &&
    isDomainPinned s.syncBaseURL

/-! ### Under the lock -/

/-- Fails where a dictionary would get a nil object, which raises an exception. -/
def beginLocked (s : System) (d : Daemon) (seconds now : Nat) (generated : Option String) :
    Option (Bool × Daemon × SavedState) :=
  let didStart := d.timer.isNone
  let currentUUID := if didStart then generated.or d.currentUUID else d.currentUUID
  let deadline := now + seconds * nsecPerSec
  s.host.bind fun host => currentUUID.map fun uuid =>
    (didStart,
      { d with
        inTemporaryMonitorMode := true, timer := some (clampInterval seconds),
        deadline := deadline, currentUUID := currentUUID },
      ⟨some (.string s.bootSessionUUID), some (.number deadline), some (.string host),
        some (.string uuid)⟩)

def endLocked (d : Daemon) : Option (Daemon × List Effect) :=
  if d.timer.isSome then
    some ({ d with timer := none, inTemporaryMonitorMode := false }, [.saveState none])
  else none

def leave (d : Daemon) (reason : LeaveReason) : Daemon × List Effect :=
  match endLocked d with
  | some (d', effects) =>
      ({ d' with currentUUID := none }, effects ++ [.auditEvent (.leave d.currentUUID reason)])
  | none => (d, [])

def cancel (d : Daemon) : Daemon × List Effect := leave d .cancelled

def revokeLocked (d : Daemon) (reason : LeaveReason) : Daemon × List Effect :=
  let (d', effects) := leave d reason
  (d', .setModeTransition (some initRevocation) :: effects)

/-- The timer has stopped when its handler takes the lock. -/
def onTimer (d : Daemon) : Daemon × List Effect :=
  ({ d with timer := none, inTemporaryMonitorMode := false, currentUUID := none },
    [.saveState none, .auditEvent (.leave d.currentUUID .sessionExpired)])

def newModeTransitionReceived (d : Daemon) (transition : Option ModeTransition) :
    Daemon × List Effect :=
  if transition.any (·.type = .revoke) then revokeLocked d .revoked
  else (d, [.setModeTransition transition])

def syncBaseURLChanged (d : Daemon) (oldValue newValue : Option URL) : Daemon × List Effect :=
  if oldValue.map URL.absoluteString = newValue.map URL.absoluteString then (d, [])
  else revokeLocked d .syncServerChanged

def requestMinutesLocked (s : System) (d : Daemon) (requestedDuration : Nat)
    (transition : Option ModeTransition) (now : Nat) (generated : String) :
    Option Daemon × List Effect :=
  let durationMin := getDurationMinutes transition requestedDuration
  match beginLocked s d (durationMin * 60) now (some generated) with
  | none => (none, [])
  | some (didStart, d', state) =>
      (some d', [.saveState (some state), .auditEvent (.enter d'.currentUUID
        ((secondsRemaining d'.deadline now).getD 0)
        (if didStart then .onDemand else .onDemandRefresh))])

/-! ### Set-up from the saved state -/

structure StateValues where
  bootUUID : String
  deadline : Nat
  syncURL : String
  sessionUUID : String

def stateValues (saved : Option SavedState) : Option StateValues :=
  match saved with
  | some ⟨some (.string bootUUID), some (.number deadline), some (.string syncURL),
      some (.string sessionUUID)⟩ => some ⟨bootUUID, deadline, syncURL, sessionUUID⟩
  | _ => none

def sameServer (s : System) (values : StateValues) : Bool :=
  some values.syncURL = s.host && isDomainPinned s.syncBaseURL

def getSecondsRemainingFromInitialStateLocked (s : System) (d : Daemon) (now : Nat) :
    Nat × Daemon × List Effect :=
  match stateValues s.saved with
  | none => (0, d, [])
  | some values =>
      match initWithUUIDString values.sessionUUID with
      | none => (0, d, [])
      | some uuid =>
          let d := { d with currentUUID := some uuid }
          if values.bootUUID ≠ s.bootSessionUUID then
            (0, d, [.auditEvent (.leave d.currentUUID .reboot)])
          else if !sameServer s values then (0, revokeLocked d .syncServerChanged)
          else
            match secondsRemaining values.deadline now with
            | some seconds => (seconds, d, [])
            | none => (0, d, [.auditEvent (.leave d.currentUUID .sessionExpired)])

def kMinAllowedStateRemainingSeconds : Nat := 5

def newDaemon : Daemon := ⟨false, none, 0, none, fun _ => none⟩

def setupFromState (s : System) (now : Nat) : Option Daemon × List Effect :=
  let (remaining, d, effects) := getSecondsRemainingFromInitialStateLocked s newDaemon now
  let seconds := min remaining 4294967295
  if seconds < kMinAllowedStateRemainingSeconds then
    (some { d with inTemporaryMonitorMode := false }, effects ++ [.saveState none])
  else
    match beginLocked s d seconds now none with
    | none => (none, effects)
    | some (_, d', state) =>
        (some d', effects ++ [.saveState (some state),
          .auditEvent (.enter d'.currentUUID seconds .restart)])

/-! ### The machine -/

def setRequest (d : Daemon) (id : Nat) (request : Option Request) : Daemon :=
  { d with requests := fun i => if i = id then request else d.requests i }

def generates (s : System) (uuid : String) : Bool :=
  initWithUUIDString uuid = some uuid && s.trail.all fun event => event.uuid ≠ some uuid

inductive Operation where
  | start (now : Nat)
  | begin (id : Nat) (now : Nat) (generated : String)
  | cancel
  | newModeTransitionReceived (transition : Option ModeTransition)
  | syncBaseURLChanged (oldValue newValue : Option URL)
  | expire

def perform (s : System) : Operation → Option (Option Daemon × List Effect)
  | .start now => if s.daemon.isNone then some (setupFromState s now) else none
  | .begin id now generated =>
      s.daemon.bind fun d =>
        match d.requests id with
        | some (.authorized requestedDuration transition) =>
            if generates s generated then
              some (requestMinutesLocked s (setRequest d id none) requestedDuration transition now
                generated)
            else none
        | _ => none
  | .cancel => s.daemon.map fun d =>
      let (d', effects) := cancel d
      (some d', effects)
  | .newModeTransitionReceived transition => s.daemon.map fun d =>
      let (d', effects) := newModeTransitionReceived d transition
      (some d', effects)
  | .syncBaseURLChanged oldValue newValue => s.daemon.map fun d =>
      let (d', effects) := syncBaseURLChanged d oldValue newValue
      (some d', effects)
  | .expire => s.daemon.bind fun d =>
      if d.timer.isSome then
        let (d', effects) := onTimer d
        some (some d', effects)
      else none

inductive Label where
  | perform (operation : Operation)
  | dieIn (operation : Operation) (effects : Nat)
  | die
  | reboot (bootSessionUUID : String)
  | replaceState (saved : Option SavedState)
  | request (id : Nat) (requestedDuration : Nat)
  | answer (id : Nat) (authenticated : Bool)
  | setSyncBaseURL (url : Option URL)
  | setClientMode (mode : SNTClientMode)
  | clearSyncState

def step (s : System) : Label → Option System
  | .perform operation => (perform s operation).map fun (d, effects) =>
      { effects.foldl Effect.apply s with daemon := d }
  | .dieIn operation done => (perform s operation).map fun (_, effects) =>
      { (effects.take done).foldl Effect.apply s with daemon := none }
  | .die => some { s with daemon := none }
  | .reboot bootSessionUUID => some { s with daemon := none, bootSessionUUID := bootSessionUUID }
  | .replaceState saved => if s.daemon.isNone then some { s with saved := saved } else none
  | .request id requestedDuration => s.daemon.bind fun d =>
      if (d.requests id).isNone then
        if available s d then
          some { s with daemon := some (setRequest d id (some (.prompting requestedDuration))) }
        else some s
      else none
  | .answer id authenticated => s.daemon.bind fun d =>
      match d.requests id with
      | some (.prompting requestedDuration) =>
          -- The policy is read again, and is not checked again.
          let request := if authenticated then
            some (.authorized requestedDuration s.modeTransition) else none
          some { s with daemon := some (setRequest d id request) }
      | _ => none
  | .setSyncBaseURL url => some { s with syncBaseURL := url }
  | .setClientMode mode => some { s with configuredMode := mode }
  | .clearSyncState => some { s with storedTransition := none }

def Label.operation? : Label → Option Operation
  | .perform operation => some operation
  | .dieIn operation _ => some operation
  | _ => none

def System.down (configuredMode : SNTClientMode) (syncBaseURL : Option URL)
    (storedTransition : Option ModeTransition) (saved : Option SavedState)
    (bootSessionUUID : String) : System :=
  ⟨configuredMode, syncBaseURL, storedTransition, saved, [], bootSessionUUID, none⟩

/-! ### What an operation does -/

def Effect.event? : Effect → Option AuditEvent
  | .auditEvent event => some event
  | _ => none

def events (effects : List Effect) : List AuditEvent := effects.filterMap Effect.event?

theorem trail_apply (effects : List Effect) (s : System) :
    (effects.foldl Effect.apply s).trail = s.trail ++ events effects := by
  induction effects generalizing s with
  | nil => exact (List.append_nil _).symm
  | cons effect effects ih =>
    rw [List.foldl_cons, ih]
    cases effect with
    | setModeTransition transition => rfl
    | saveState state => rfl
    | auditEvent event => exact List.append_assoc _ _ _

def session (d : Daemon) : Option String := if d.timer.isSome then d.currentUUID else none

def WellFormed (d : Daemon) : Prop := d.timer.isSome → d.currentUUID.isSome

theorem session_none {d : Daemon} (none : d.timer = none) : session d = .none := by
  rw [session, none]
  rfl

theorem wellFormed_none {d : Daemon} (none : d.timer = none) : WellFormed d := by
  intro some
  rw [none] at some
  cases some

theorem session_cases {d : Daemon} (formed : WellFormed d) :
    (d.timer = none ∧ session d = none) ∨
      ∃ uuid, d.timer.isSome ∧ d.currentUUID = some uuid ∧ session d = some uuid := by
  cases timer : d.timer with
  | none => exact .inl ⟨rfl, session_none timer⟩
  | some interval =>
    have running : d.timer.isSome := by rw [timer]; rfl
    obtain ⟨uuid, current⟩ := Option.isSome_iff_exists.mp (formed running)
    exact .inr ⟨uuid, rfl, current, by rw [session, if_pos running, current]⟩

/-- What an operation of a running daemon does to the session and the audit events. A session
    that is entered has a UUID that is new. -/
inductive Outcome (new : String → Prop) (d : Daemon) : Option Daemon → List AuditEvent → Prop where
  | crashed : Outcome new d none []
  | quiet {d' : Daemon} (formed : WellFormed d') (same : session d' = session d) :
      Outcome new d (some d') []
  | left {d' : Daemon} {uuid : String} {reason : LeaveReason} (before : session d = some uuid)
      (after : d'.timer = none) : Outcome new d (some d') [.leave (some uuid) reason]
  | refreshed {d' : Daemon} {uuid : String} {seconds : Nat} (before : session d = some uuid)
      (formed : WellFormed d') (after : session d' = some uuid) :
      Outcome new d (some d') [.enter (some uuid) seconds .onDemandRefresh]
  | entered {d' : Daemon} {uuid : String} {seconds : Nat} (fresh : new uuid)
      (before : d.timer = none) (formed : WellFormed d') (after : session d' = some uuid) :
      Outcome new d (some d') [.enter (some uuid) seconds .onDemand]

section
variable {new : String → Prop}

theorem leave_outcome {d : Daemon} (formed : WellFormed d) (reason : LeaveReason) :
    Outcome new d (some (leave d reason).1) (events (leave d reason).2) := by
  rcases session_cases formed with ⟨none, -⟩ | ⟨uuid, running, current, within⟩
  · have stays : leave d reason = (d, []) := by
      rw [leave, endLocked, none]
      rfl
    rw [stays]
    exact .quiet formed rfl
  · have leaves : leave d reason =
        ({ d with timer := none, inTemporaryMonitorMode := false, currentUUID := none },
          [.saveState none, .auditEvent (.leave (some uuid) reason)]) := by
      rw [leave, endLocked, if_pos running, ← current]
      rfl
    rw [leaves]
    exact .left within rfl

theorem revokeLocked_outcome {d : Daemon} (formed : WellFormed d) (reason : LeaveReason) :
    Outcome new d (some (revokeLocked d reason).1) (events (revokeLocked d reason).2) :=
  leave_outcome formed reason

theorem onTimer_outcome {d : Daemon} (formed : WellFormed d) (running : d.timer.isSome) :
    Outcome new d (some (onTimer d).1) (events (onTimer d).2) := by
  rcases session_cases formed with ⟨none, -⟩ | ⟨uuid, -, current, within⟩
  · rw [none] at running
    cases running
  · rw [onTimer, current]
    exact .left within rfl

theorem newModeTransitionReceived_outcome {d : Daemon} (formed : WellFormed d)
    (transition : Option ModeTransition) :
    Outcome new d (some (newModeTransitionReceived d transition).1)
      (events (newModeTransitionReceived d transition).2) := by
  unfold newModeTransitionReceived
  split
  · exact revokeLocked_outcome formed .revoked
  · exact .quiet formed rfl

theorem syncBaseURLChanged_outcome {d : Daemon} (formed : WellFormed d)
    (oldValue newValue : Option URL) :
    Outcome new d (some (syncBaseURLChanged d oldValue newValue).1)
      (events (syncBaseURLChanged d oldValue newValue).2) := by
  unfold syncBaseURLChanged
  split
  · exact .quiet formed rfl
  · exact revokeLocked_outcome formed .syncServerChanged

end

theorem beginLocked_eq {s : System} {d : Daemon} {host uuid : String} (present : s.host = some host)
    {generated : Option String} (seconds now : Nat)
    (current : (if d.timer.isNone then generated.or d.currentUUID else d.currentUUID) = some uuid) :
    beginLocked s d seconds now generated = some (d.timer.isNone,
      { d with
        inTemporaryMonitorMode := true, timer := some (clampInterval seconds),
        deadline := now + seconds * nsecPerSec, currentUUID := some uuid },
      ⟨some (.string s.bootSessionUUID), some (.number (now + seconds * nsecPerSec)),
        some (.string host), some (.string uuid)⟩) := by
  unfold beginLocked
  simp only [present, current, Option.bind_some, Option.map_some]

theorem beginLocked_hostless {s : System} (absent : s.host = none) (d : Daemon)
    (seconds now : Nat) (generated : Option String) :
    beginLocked s d seconds now generated = none := by
  unfold beginLocked
  simp only [absent, Option.bind_none]

theorem requestMinutesLocked_cases {s : System} {d : Daemon} (formed : WellFormed d)
    (requestedDuration : Nat) (transition : Option ModeTransition) (now : Nat)
    (generated : String) :
    (s.host = none ∧
      requestMinutesLocked s d requestedDuration transition now generated = (none, [])) ∨
    (s.host.isSome ∧ ∃ d' effects,
      requestMinutesLocked s d requestedDuration transition now generated = (some d', effects) ∧
      d'.timer = some (clampInterval (getDurationMinutes transition requestedDuration * 60)) ∧
      Outcome (· = generated) d (some d') (events effects)) := by
  cases present : s.host with
  | none =>
    refine .inl ⟨rfl, ?_⟩
    rw [requestMinutesLocked, beginLocked_hostless present]
  | some host =>
    refine .inr ⟨rfl, ?_⟩
    rcases session_cases formed with ⟨stopped, -⟩ | ⟨uuid, running, current, within⟩
    · have begun := @beginLocked_eq s d host generated present (some generated)
        (getDurationMinutes transition requestedDuration * 60) now (by rw [stopped]; rfl)
      rw [requestMinutesLocked, begun, stopped]
      exact ⟨_, _, rfl, rfl, .entered rfl stopped (fun _ => rfl) rfl⟩
    · have going : d.timer.isNone = false := by
        rw [← Option.not_isSome, running]
        rfl
      have begun := @beginLocked_eq s d host uuid present (some generated)
        (getDurationMinutes transition requestedDuration * 60) now (by rw [going]; exact current)
      rw [requestMinutesLocked, begun, going]
      exact ⟨_, _, rfl, rfl, .refreshed within (fun _ => rfl) rfl⟩

theorem outcome_setRequest {new new' : String → Prop} (weaker : ∀ uuid, new uuid → new' uuid)
    {d : Daemon} {id : Nat} {request : Option Request} {after : Option Daemon}
    {sent : List AuditEvent} (outcome : Outcome new (setRequest d id request) after sent) :
    Outcome new' d after sent := by
  cases outcome with
  | crashed => exact .crashed
  | quiet formed same => exact .quiet formed same
  | left before after => exact .left before after
  | refreshed before formed after => exact .refreshed before formed after
  | entered fresh before formed after => exact .entered (weaker _ fresh) before formed after

theorem perform_outcome {s : System} {d : Daemon} (running : s.daemon = some d)
    (formed : WellFormed d) {operation : Operation} {after : Option Daemon}
    {effects : List Effect} (done : perform s operation = some (after, effects)) :
    Outcome (fun uuid => generates s uuid = true) d after (events effects) := by
  cases operation with
  | start now =>
    simp only [perform, running] at done
    cases done
  | begin id now generated =>
    simp only [perform, running, Option.bind_some] at done
    split at done
    · split at done
      · rename_i fresh
        rcases @requestMinutesLocked_cases s (setRequest d id none) formed _ _ now generated with
          ⟨-, crashed⟩ | ⟨-, d', effects', begun, -, outcome⟩
        · rw [crashed, Option.some.injEq, Prod.mk.injEq] at done
          obtain ⟨rfl, rfl⟩ := done
          exact .crashed
        · rw [begun, Option.some.injEq, Prod.mk.injEq] at done
          obtain ⟨rfl, rfl⟩ := done
          refine outcome_setRequest ?_ outcome
          rintro uuid rfl
          exact fresh
      · cases done
    · cases done
  | cancel =>
    simp only [perform, running, Option.map_some, Option.some.injEq, Prod.mk.injEq] at done
    obtain ⟨rfl, rfl⟩ := done
    exact leave_outcome formed .cancelled
  | newModeTransitionReceived transition =>
    simp only [perform, running, Option.map_some, Option.some.injEq, Prod.mk.injEq] at done
    obtain ⟨rfl, rfl⟩ := done
    exact newModeTransitionReceived_outcome formed transition
  | syncBaseURLChanged oldValue newValue =>
    simp only [perform, running, Option.map_some, Option.some.injEq, Prod.mk.injEq] at done
    obtain ⟨rfl, rfl⟩ := done
    exact syncBaseURLChanged_outcome formed oldValue newValue
  | expire =>
    simp only [perform, running, Option.bind_some] at done
    split at done
    · rename_i started
      rw [Option.some.injEq, Prod.mk.injEq] at done
      obtain ⟨rfl, rfl⟩ := done
      exact onTimer_outcome formed started
    · cases done

theorem outcome_formed {new : String → Prop} {d d' : Daemon} {sent : List AuditEvent}
    (outcome : Outcome new d (some d') sent) : WellFormed d' := by
  cases outcome with
  | quiet formed _ => exact formed
  | left _ after => exact wellFormed_none after
  | refreshed _ formed _ => exact formed
  | entered _ _ formed _ => exact formed

/-! ### Set-up -/

def Ends (s : System) (now : Nat) (uuid : String) : Prop :=
  ∃ values, stateValues s.saved = some values ∧
    initWithUUIDString values.sessionUUID = some uuid ∧
    (values.bootUUID ≠ s.bootSessionUUID ∨
      sameServer s values = true ∧ secondsRemaining values.deadline now = none)

def Resumes (s : System) (now : Nat) (uuid : String) : Prop :=
  ∃ values seconds, stateValues s.saved = some values ∧
    initWithUUIDString values.sessionUUID = some uuid ∧
    values.bootUUID = s.bootSessionUUID ∧ sameServer s values = true ∧
    secondsRemaining values.deadline now = some seconds ∧
    kMinAllowedStateRemainingSeconds ≤ seconds

inductive Setup (s : System) (now : Nat) : Option Daemon → List AuditEvent → Prop where
  | silent {d : Daemon} (stopped : d.timer = none) (unended : ∀ uuid, ¬ Ends s now uuid)
      (gone : ∀ uuid, ¬ Resumes s now uuid) : Setup s now (some d) []
  | ended {d : Daemon} {uuid : String} {reason : LeaveReason} (stopped : d.timer = none)
      (ends : Ends s now uuid) : Setup s now (some d) [.leave (some uuid) reason]
  | resumed {d : Daemon} {uuid : String} {seconds : Nat} (formed : WellFormed d)
      (resumes : Resumes s now uuid) (within : session d = some uuid) :
      Setup s now (some d) [.enter (some uuid) seconds .restart]

theorem ends_unique {s : System} {now : Nat} {uuid uuid' : String} (ends : Ends s now uuid)
    (ends' : Ends s now uuid') : uuid = uuid' := by
  obtain ⟨values, here, parsed, -⟩ := ends
  obtain ⟨values', here', parsed', -⟩ := ends'
  obtain rfl := Option.some.inj (here.symm.trans here')
  exact Option.some.inj (parsed.symm.trans parsed')

theorem resumes_unique {s : System} {now : Nat} {uuid uuid' : String}
    (resumes : Resumes s now uuid) (resumes' : Resumes s now uuid') : uuid = uuid' := by
  obtain ⟨values, _, here, parsed, -⟩ := resumes
  obtain ⟨values', _, here', parsed', -⟩ := resumes'
  obtain rfl := Option.some.inj (here.symm.trans here')
  exact Option.some.inj (parsed.symm.trans parsed')

theorem not_both {s : System} {now : Nat} {uuid uuid' : String} (ends : Ends s now uuid) :
    ¬ Resumes s now uuid' := by
  rintro ⟨values', seconds, here', -, boot, -, remain, -⟩
  obtain ⟨values, here, -, how⟩ := ends
  obtain rfl := Option.some.inj (here.symm.trans here')
  rcases how with other | ⟨-, expired⟩
  · exact other boot
  · rw [expired] at remain
    cases remain

theorem sameServer_host {s : System} {values : StateValues} (same : sameServer s values = true) :
    s.host = some values.syncURL := by
  rw [sameServer, Bool.and_eq_true] at same
  exact (of_decide_eq_true same.1).symm

theorem setup_stops {s : System} {now : Nat} {d : Daemon} {effects : List Effect}
    (initial : getSecondsRemainingFromInitialStateLocked s newDaemon now = (0, d, effects)) :
    setupFromState s now =
      (some { d with inTemporaryMonitorMode := false }, effects ++ [.saveState none]) := by
  rw [setupFromState, initial]
  rfl

theorem setup_cases (s : System) (now : Nat) :
    Setup s now (setupFromState s now).1 (events (setupFromState s now).2) := by
  cases read : stateValues s.saved with
  | none =>
    have initial : getSecondsRemainingFromInitialStateLocked s newDaemon now =
        (0, newDaemon, []) := by
      rw [getSecondsRemainingFromInitialStateLocked, read]
    rw [setup_stops initial]
    refine .silent rfl ?_ ?_
    · rintro uuid ⟨values, here, -⟩
      rw [read] at here
      cases here
    · rintro uuid ⟨values, seconds, here, -⟩
      rw [read] at here
      cases here
  | some values =>
    have only : ∀ values', stateValues s.saved = some values' → values' = values :=
      fun values' here => (Option.some.inj (read.symm.trans here)).symm
    cases parsed : initWithUUIDString values.sessionUUID with
    | none =>
      have initial : getSecondsRemainingFromInitialStateLocked s newDaemon now =
          (0, newDaemon, []) := by
        rw [getSecondsRemainingFromInitialStateLocked, read]
        simp only [parsed]
      rw [setup_stops initial]
      refine .silent rfl ?_ ?_
      · rintro uuid ⟨values', here, valid, -⟩
        rw [only values' here, parsed] at valid
        cases valid
      · rintro uuid ⟨values', seconds, here, valid, -⟩
        rw [only values' here, parsed] at valid
        cases valid
    | some uuid =>
      by_cases boot : values.bootUUID = s.bootSessionUUID
      · by_cases server : sameServer s values = true
        · cases remain : secondsRemaining values.deadline now with
          | none =>
            have initial : getSecondsRemainingFromInitialStateLocked s newDaemon now =
                (0, { newDaemon with currentUUID := some uuid },
                  [.auditEvent (.leave (some uuid) .sessionExpired)]) := by
              rw [getSecondsRemainingFromInitialStateLocked, read]
              simp [parsed, boot, server, remain]
            rw [setup_stops initial]
            exact .ended rfl ⟨values, read, parsed, .inr ⟨server, remain⟩⟩
          | some seconds =>
            have initial : getSecondsRemainingFromInitialStateLocked s newDaemon now =
                (seconds, { newDaemon with currentUUID := some uuid }, []) := by
              rw [getSecondsRemainingFromInitialStateLocked, read]
              simp [parsed, boot, server, remain]
            by_cases short : seconds < kMinAllowedStateRemainingSeconds
            · have sets_up : setupFromState s now =
                  (some { newDaemon with currentUUID := some uuid }, [.saveState none]) := by
                rw [setupFromState, initial]
                simp only
                rw [if_pos (by omega)]
                rfl
              rw [sets_up]
              refine .silent rfl ?_ ?_
              · rintro uuid' ⟨values', here, -, other | ⟨-, expired⟩⟩
                · rw [only values' here] at other
                  exact other boot
                · rw [only values' here, remain] at expired
                  cases expired
              · rintro uuid' ⟨values', seconds', here, -, -, -, remain', long⟩
                rw [only values' here, remain, Option.some.injEq] at remain'
                omega
            · have begun := @beginLocked_eq s { newDaemon with currentUUID := some uuid } _ uuid
                (sameServer_host server) none (min seconds 4294967295) now rfl
              have big : ¬ min seconds 4294967295 < kMinAllowedStateRemainingSeconds := by
                unfold kMinAllowedStateRemainingSeconds at *
                omega
              rw [setupFromState, initial]
              simp only
              rw [if_neg big, begun]
              exact .resumed (fun _ => rfl)
                ⟨values, seconds, read, parsed, boot, server, remain, by omega⟩ rfl
        · have initial : getSecondsRemainingFromInitialStateLocked s newDaemon now =
              (0, { newDaemon with currentUUID := some uuid },
                [.setModeTransition (some initRevocation)]) := by
            rw [getSecondsRemainingFromInitialStateLocked, read]
            simp [parsed, boot, server, revokeLocked, leave, endLocked, newDaemon]
          rw [setup_stops initial]
          refine .silent rfl ?_ ?_
          · rintro uuid' ⟨values', here, -, other | ⟨same, -⟩⟩
            · rw [only values' here] at other
              exact other boot
            · rw [only values' here] at same
              exact server same
          · rintro uuid' ⟨values', seconds, here, -, -, same, -⟩
            rw [only values' here] at same
            exact server same
      · have initial : getSecondsRemainingFromInitialStateLocked s newDaemon now =
            (0, { newDaemon with currentUUID := some uuid },
              [.auditEvent (.leave (some uuid) .reboot)]) := by
          rw [getSecondsRemainingFromInitialStateLocked, read]
          simp [parsed, boot]
        rw [setup_stops initial]
        exact .ended rfl ⟨values, read, parsed, .inl boot⟩

/-! ### Running daemons -/

def Inv (s : System) : Prop := ∀ d, s.daemon = some d → WellFormed d

theorem perform_formed {s : System} (inv : Inv s) {operation : Operation} {d : Daemon}
    {effects : List Effect} (done : perform s operation = some (some d, effects)) :
    WellFormed d := by
  cases running : s.daemon with
  | some before => exact outcome_formed (perform_outcome running (inv before running) done)
  | none =>
    cases operation with
    | start now =>
      have setup := setup_cases s now
      simp only [perform, running, Option.isNone_none, if_true, Option.some.injEq] at done
      rw [done] at setup
      generalize events effects = sent at setup
      cases setup with
      | silent stopped _ _ => exact wellFormed_none stopped
      | ended stopped _ => exact wellFormed_none stopped
      | resumed formed _ _ => exact formed
    | _ => simp [perform, running] at done

theorem request_cases {s t : System} {id requestedDuration : Nat}
    (h : step s (.request id requestedDuration) = some t) :
    ∃ d, s.daemon = some d ∧ (t = s ∨
      t = { s with daemon := some (setRequest d id (some (.prompting requestedDuration))) }) := by
  obtain ⟨d, running, h⟩ := Option.bind_eq_some_iff.mp h
  refine ⟨d, running, ?_⟩
  split at h
  · split at h
    · exact .inr (Option.some.inj h).symm
    · exact .inl (Option.some.inj h).symm
  · cases h

theorem answer_cases {s t : System} {id : Nat} {authenticated : Bool}
    (h : step s (.answer id authenticated) = some t) :
    ∃ d requestedDuration, s.daemon = some d ∧
      d.requests id = some (.prompting requestedDuration) ∧
      t = { s with daemon := some (setRequest d id (if authenticated then
        some (.authorized requestedDuration s.modeTransition) else none)) } := by
  obtain ⟨d, running, h⟩ := Option.bind_eq_some_iff.mp h
  split at h
  · rename_i requestedDuration waits
    exact ⟨d, requestedDuration, running, waits, (Option.some.inj h).symm⟩
  · cases h

theorem inv_step {s t : System} {l : Label} (inv : Inv s) (h : step s l = some t) : Inv t := by
  intro d' running
  cases l with
  | perform operation =>
    obtain ⟨⟨after, effects⟩, done, same⟩ := Option.map_eq_some_iff.mp h
    rw [← same] at running
    have after_some : after = some d' := running
    rw [after_some] at done
    exact perform_formed inv done
  | dieIn operation cut =>
    obtain ⟨⟨after, effects⟩, done, same⟩ := Option.map_eq_some_iff.mp h
    rw [← same] at running
    cases running
  | die =>
    rw [← Option.some.inj h] at running
    cases running
  | reboot bootSessionUUID =>
    rw [← Option.some.inj h] at running
    cases running
  | replaceState saved =>
    simp only [step] at h
    split at h
    · rw [← Option.some.inj h] at running
      exact inv d' running
    · cases h
  | request id requestedDuration =>
    obtain ⟨d, before, same | same⟩ := request_cases h
    · rw [same] at running
      exact inv d' running
    · rw [same] at running
      obtain rfl := Option.some.inj running
      exact inv d before
  | answer id authenticated =>
    obtain ⟨d, requestedDuration, before, -, same⟩ := answer_cases h
    rw [same] at running
    obtain rfl := Option.some.inj running
    exact inv d before
  | setSyncBaseURL url =>
    rw [← Option.some.inj h] at running
    exact inv d' running
  | setClientMode mode =>
    rw [← Option.some.inj h] at running
    exact inv d' running
  | clearSyncState =>
    rw [← Option.some.inj h] at running
    exact inv d' running

theorem inv_down (configuredMode : SNTClientMode) (syncBaseURL : Option URL)
    (storedTransition : Option ModeTransition) (saved : Option SavedState) (boot : String) :
    Inv (.down configuredMode syncBaseURL storedTransition saved boot) :=
  fun _ running => nomatch running

def sampleURL : URL := ⟨"https://santa.workshop.cloud/", some "santa.workshop.cloud"⟩

def sampleUUID : String := "0F0E0D0C-0B0A-0908-0706-050403020100"

end SantaMonitorMode
