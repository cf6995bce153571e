import Santa.Library.Histories
import Santa.TemporaryMonitorMode.Session

/-!
The audit events of temporary Monitor Mode. They are paired when each session is
entered before it is left, is left once, and is left before another is entered. A
daemon that starts has nothing but the saved state to go by.
-/
namespace SantaMonitorModeAuditTrail
open SantaConfigurator SantaPreflight SantaMonitorMode Histories

def Entered (trail : List AuditEvent) (uuid : String) : Prop :=
  ∃ seconds reason, .enter (some uuid) seconds reason ∈ trail

def Left (trail : List AuditEvent) (uuid : String) : Prop :=
  ∃ reason, .leave (some uuid) reason ∈ trail

/-- An enter event has a UUID whose session has not been left; if it is the first of its session,
    all others have been left. A leave event is the first of a session that has been entered. -/
def Allowed (trail : List AuditEvent) : AuditEvent → Prop
  | .enter uuid _ _ => ∃ u, uuid = some u ∧ ¬ Left trail u ∧
      (¬ Entered trail u → ∀ v, Entered trail v → Left trail v)
  | .leave uuid _ => ∃ u, uuid = some u ∧ Entered trail u ∧ ¬ Left trail u

def WellPaired (trail : List AuditEvent) : Prop := Lawful Allowed trail

def Open (trail : List AuditEvent) (uuid : String) : Prop :=
  Entered trail uuid ∧ ¬ Left trail uuid

/-- What the saved state says when the daemon starts is what the events say. A session that is
    over is the one that is open, a session that goes on is open or new, and no session that is open
    is lost. -/
structure Consistent (s : System) (now : Nat) : Prop where
  ends : ∀ uuid, Ends s now uuid → Open s.trail uuid
  resumes : ∀ uuid, Resumes s now uuid → Open s.trail uuid ∨
    (¬ Left s.trail uuid ∧ ∀ v, ¬ Open s.trail v)
  kept : ∀ uuid, Open s.trail uuid → Ends s now uuid ∨ Resumes s now uuid

/-- Each start finds a consistent state. -/
def ConsistentStarts (s : System) (l : Label) : Prop :=
  ∀ now, l.operation? = some (.start now) → Consistent s now

/-! ### Events one by one -/

theorem entered_append {trail more : List AuditEvent} {uuid : String} :
    Entered (trail ++ more) uuid ↔ Entered trail uuid ∨ Entered more uuid := by
  simp only [Entered, List.mem_append]
  constructor
  · rintro ⟨seconds, reason, here | here⟩
    · exact .inl ⟨seconds, reason, here⟩
    · exact .inr ⟨seconds, reason, here⟩
  · rintro (⟨seconds, reason, here⟩ | ⟨seconds, reason, here⟩)
    · exact ⟨seconds, reason, .inl here⟩
    · exact ⟨seconds, reason, .inr here⟩

theorem left_append {trail more : List AuditEvent} {uuid : String} :
    Left (trail ++ more) uuid ↔ Left trail uuid ∨ Left more uuid := by
  simp only [Left, List.mem_append]
  constructor
  · rintro ⟨reason, here | here⟩
    · exact .inl ⟨reason, here⟩
    · exact .inr ⟨reason, here⟩
  · rintro (⟨reason, here⟩ | ⟨reason, here⟩)
    · exact ⟨reason, .inl here⟩
    · exact ⟨reason, .inr here⟩

theorem entered_enter {uuid v : String} {seconds : Nat} {reason : EnterReason} :
    Entered [.enter (some uuid) seconds reason] v ↔ v = uuid := by
  simp [Entered, eq_comm]

theorem left_enter {uuid v : String} {seconds : Nat} {reason : EnterReason} :
    ¬ Left [.enter (some uuid) seconds reason] v := by
  simp [Left]

theorem entered_leave {uuid v : String} {reason : LeaveReason} :
    ¬ Entered [.leave (some uuid) reason] v := by
  simp [Entered]

theorem left_leave {uuid v : String} {reason : LeaveReason} :
    Left [.leave (some uuid) reason] v ↔ v = uuid := by
  simp [Left, eq_comm]

theorem open_enter_iff {trail : List AuditEvent} {uuid v : String} {seconds : Nat}
    {reason : EnterReason} (unleft : ¬ Left trail uuid) :
    Open (trail ++ [.enter (some uuid) seconds reason]) v ↔ Open trail v ∨ v = uuid := by
  rw [Open, entered_append, left_append, entered_enter]
  constructor
  · rintro ⟨entered | same, unleft'⟩
    · exact .inl ⟨entered, fun left => unleft' (.inl left)⟩
    · exact .inr same
  · rintro (⟨entered, unleft'⟩ | rfl)
    · exact ⟨.inl entered, fun left => left.elim unleft' left_enter⟩
    · exact ⟨.inr rfl, fun left => left.elim unleft left_enter⟩

theorem open_leave_iff {trail : List AuditEvent} {uuid v : String} {reason : LeaveReason} :
    Open (trail ++ [.leave (some uuid) reason]) v ↔ Open trail v ∧ v ≠ uuid := by
  rw [Open, entered_append, left_append, left_leave]
  constructor
  · rintro ⟨entered | entered, unleft⟩
    · exact ⟨⟨entered, fun left => unleft (.inl left)⟩, fun same => unleft (.inr same)⟩
    · exact absurd entered entered_leave
  · rintro ⟨⟨entered, unleft⟩, other⟩
    exact ⟨.inl entered, fun left => left.elim unleft other⟩

def Agrees (trail : List AuditEvent) (current : Option String) : Prop :=
  ∀ v, Open trail v ↔ current = some v

/-! ### Runs -/

structure Sound (s : System) : Prop where
  inv : Inv s
  paired : WellPaired s.trail
  agrees : ∀ d, s.daemon = some d → Agrees s.trail (session d)

theorem generates_new {s : System} {uuid : String} (new : generates s uuid = true) :
    ¬ Entered s.trail uuid ∧ ¬ Left s.trail uuid := by
  rw [generates, Bool.and_eq_true, List.all_eq_true] at new
  constructor
  · rintro ⟨seconds, reason, member⟩
    exact of_decide_eq_true (new.2 _ member) rfl
  · rintro ⟨reason, member⟩
    exact of_decide_eq_true (new.2 _ member) rfl

theorem left_of_closed {trail : List AuditEvent} (closed : ∀ v, ¬ Open trail v) {v : String}
    (entered : Entered trail v) : Left trail v := by
  by_contra unleft
  exact closed v ⟨entered, unleft⟩

theorem outcome_sound {s : System} {d : Daemon} {after : Option Daemon} {sent : List AuditEvent}
    (agrees : Agrees s.trail (session d))
    (outcome : Outcome (fun uuid => generates s uuid = true) d after sent) :
    (sent.length ≤ 1 ∧ ∀ event ∈ sent, Allowed s.trail event) ∧
      ∀ d', after = some d' → Agrees (s.trail ++ sent) (session d') := by
  cases outcome with
  | crashed => exact ⟨⟨by decide, nofun⟩, nofun⟩
  | quiet formed same =>
    refine ⟨⟨by decide, nofun⟩, ?_⟩
    rintro d' ⟨⟩
    rw [List.append_nil, same]
    exact agrees
  | @left d' uuid reason before after =>
    obtain ⟨entered, unleft⟩ := (agrees uuid).mpr before
    refine ⟨⟨Nat.le_refl 1, ?_⟩, ?_⟩
    · intro event member
      rw [List.mem_singleton.mp member]
      exact ⟨uuid, rfl, entered, unleft⟩
    · rintro d'' ⟨⟩
      intro v
      rw [open_leave_iff, agrees v, before, session_none after]
      simp [eq_comm]
  | @refreshed d' uuid seconds before formed after =>
    obtain ⟨entered, unleft⟩ := (agrees uuid).mpr before
    refine ⟨⟨Nat.le_refl 1, ?_⟩, ?_⟩
    · intro event member
      rw [List.mem_singleton.mp member]
      exact ⟨uuid, rfl, unleft, fun none => absurd entered none⟩
    · rintro d'' ⟨⟩
      intro v
      rw [open_enter_iff unleft, agrees v, before, after]
      simp [eq_comm]
  | @entered d' uuid seconds fresh before formed after =>
    obtain ⟨-, unleft⟩ := generates_new fresh
    have closed : ∀ v, ¬ Open s.trail v := by
      intro v here
      have current := (agrees v).mp here
      rw [session_none before] at current
      cases current
    refine ⟨⟨Nat.le_refl 1, ?_⟩, ?_⟩
    · intro event member
      rw [List.mem_singleton.mp member]
      exact ⟨uuid, rfl, unleft, fun _ v => left_of_closed closed⟩
    · rintro d'' ⟨⟩
      intro v
      rw [open_enter_iff unleft, after]
      simp [closed v, eq_comm]

theorem setup_sound {s : System} {now : Nat} (consistent : Consistent s now)
    {after : Option Daemon} {sent : List AuditEvent} (setup : Setup s now after sent) :
    (sent.length ≤ 1 ∧ ∀ event ∈ sent, Allowed s.trail event) ∧
      ∀ d', after = some d' → Agrees (s.trail ++ sent) (session d') := by
  cases setup with
  | silent stopped unended gone =>
    refine ⟨⟨by decide, nofun⟩, ?_⟩
    rintro d' ⟨⟩
    intro v
    rw [List.append_nil, session_none stopped]
    constructor
    · intro here
      rcases consistent.kept v here with ends | resumes
      · exact absurd ends (unended v)
      · exact absurd resumes (gone v)
    · exact nofun
  | @ended d' uuid reason stopped ends =>
    obtain ⟨entered, unleft⟩ := consistent.ends uuid ends
    refine ⟨⟨Nat.le_refl 1, ?_⟩, ?_⟩
    · intro event member
      rw [List.mem_singleton.mp member]
      exact ⟨uuid, rfl, entered, unleft⟩
    · rintro d'' ⟨⟩
      intro v
      rw [open_leave_iff, session_none stopped]
      constructor
      · rintro ⟨here, other⟩
        rcases consistent.kept v here with ends' | resumes
        · exact absurd (ends_unique ends' ends) other
        · exact absurd resumes (not_both ends)
      · exact nofun
  | @resumed d' uuid seconds formed resumes within =>
    have unleft : ¬ Left s.trail uuid := by
      rcases consistent.resumes uuid resumes with here | new
      · exact here.2
      · exact new.1
    refine ⟨⟨Nat.le_refl 1, ?_⟩, ?_⟩
    · intro event member
      rw [List.mem_singleton.mp member]
      refine ⟨uuid, rfl, unleft, ?_⟩
      intro unentered v
      rcases consistent.resumes uuid resumes with here | new
      · exact absurd here.1 unentered
      · exact left_of_closed new.2
    · rintro d'' ⟨⟩
      intro v
      rw [open_enter_iff unleft, within]
      constructor
      · rintro (here | rfl)
        · rcases consistent.kept v here with ends | resumes'
          · exact absurd resumes (not_both ends)
          · rw [resumes_unique resumes resumes']
        · rfl
      · rintro ⟨⟩
        exact .inr rfl

theorem perform_sound {s : System} (sound : Sound s) {operation : Operation}
    (consistent : ∀ now, operation = .start now → Consistent s now) {after : Option Daemon}
    {effects : List Effect} (done : perform s operation = some (after, effects)) :
    ((events effects).length ≤ 1 ∧ ∀ event ∈ events effects, Allowed s.trail event) ∧
      ∀ d', after = some d' → Agrees (s.trail ++ events effects) (session d') := by
  cases running : s.daemon with
  | some d =>
    exact outcome_sound (sound.agrees d running)
      (perform_outcome running (sound.inv d running) done)
  | none =>
    cases operation with
    | start now =>
      simp only [perform, running, Option.isNone_none, if_true, Option.some.injEq] at done
      have setup := setup_cases s now
      rw [done] at setup
      exact setup_sound (consistent now rfl) setup
    | _ => simp [perform, running] at done

theorem Sound.of_same {s t : System} (sound : Sound s) (inv : Inv t) (trail : t.trail = s.trail)
    (same : ∀ d', t.daemon = some d' → ∃ d, s.daemon = some d ∧ session d' = session d) :
    Sound t := by
  refine ⟨inv, by rw [trail]; exact sound.paired, ?_⟩
  intro d' running
  obtain ⟨d, before, current⟩ := same d' running
  rw [trail, current]
  exact sound.agrees d before

theorem sound_step {s t : System} {l : Label} (sound : Sound s)
    (consistent : ConsistentStarts s l) (h : step s l = some t) : Sound t := by
  have inv := inv_step sound.inv h
  cases l with
  | perform operation =>
    obtain ⟨⟨after, effects⟩, done, same⟩ := Option.map_eq_some_iff.mp h
    obtain ⟨⟨short, allowed⟩, agrees⟩ := perform_sound sound
      (fun now which => consistent now (congrArg some which)) done
    have trail : t.trail = s.trail ++ events effects := by
      rw [← same]
      exact trail_apply effects s
    refine ⟨inv, ?_, ?_⟩
    · rw [WellPaired, trail]
      exact sound.paired.append short allowed
    · intro d' running
      rw [trail]
      apply agrees d'
      rw [← same] at running
      exact running
  | dieIn operation cut =>
    obtain ⟨⟨after, effects⟩, done, same⟩ := Option.map_eq_some_iff.mp h
    obtain ⟨⟨short, allowed⟩, -⟩ := perform_sound sound
      (fun now which => consistent now (congrArg some which)) done
    have part : (events (effects.take cut)).Sublist (events effects) :=
      (List.take_sublist cut effects).filterMap _
    have trail : t.trail = s.trail ++ events (effects.take cut) := by
      rw [← same]
      exact trail_apply (effects.take cut) s
    refine ⟨inv, ?_, ?_⟩
    · rw [WellPaired, trail]
      exact sound.paired.append (Nat.le_trans part.length_le short)
        fun event member => allowed event (part.subset member)
    · intro d' running
      rw [← same] at running
      cases running
  | die =>
    rw [← Option.some.inj h] at inv ⊢
    exact sound.of_same inv rfl nofun
  | reboot bootSessionUUID =>
    rw [← Option.some.inj h] at inv ⊢
    exact sound.of_same inv rfl nofun
  | replaceState saved =>
    simp only [step] at h
    split at h
    · rw [← Option.some.inj h] at inv ⊢
      exact sound.of_same inv rfl fun d' running => ⟨d', running, rfl⟩
    · cases h
  | request id requestedDuration =>
    obtain ⟨d, running, same | same⟩ := request_cases h
    · rw [same]
      exact sound
    · subst same
      exact sound.of_same inv rfl fun d' running' =>
        ⟨d, running, by rw [← Option.some.inj running']; rfl⟩
  | answer id authenticated =>
    obtain ⟨d, requestedDuration, running, -, same⟩ := answer_cases h
    subst same
    exact sound.of_same inv rfl fun d' running' =>
      ⟨d, running, by rw [← Option.some.inj running']; rfl⟩
  | setSyncBaseURL url =>
    rw [← Option.some.inj h] at inv ⊢
    exact sound.of_same inv rfl fun d' running => ⟨d', running, rfl⟩
  | setClientMode mode =>
    rw [← Option.some.inj h] at inv ⊢
    exact sound.of_same inv rfl fun d' running => ⟨d', running, rfl⟩
  | clearSyncState =>
    rw [← Option.some.inj h] at inv ⊢
    exact sound.of_same inv rfl fun d' running => ⟨d', running, rfl⟩

/-- The events are paired in every run in which each start finds a consistent state. -/
theorem wellPaired_of_consistent (configuredMode : SantaPolicy.SNTClientMode)
    (syncBaseURL : Option URL) (storedTransition : Option ModeTransition)
    (saved : Option SavedState) (boot : String) (ls : List Label)
    (consistent : Runs.Meets step ConsistentStarts
      (.down configuredMode syncBaseURL storedTransition saved boot) ls) :
    Runs.Always step (fun s => WellPaired s.trail)
      (.down configuredMode syncBaseURL storedTransition saved boot) ls := by
  have sound : Sound (.down configuredMode syncBaseURL storedTransition saved boot) :=
    ⟨inv_down configuredMode syncBaseURL storedTransition saved boot, lawful_nil Allowed, nofun⟩
  exact Runs.always_mono (fun s sound => sound.paired)
    (Runs.always_of_meets (fun _ _ _ => sound_step) sound consistent)

def otherUUID : String := "1F1E1D1C-1B1A-1918-1716-151413121110"

def sampleStart : System :=
  .down .lockdown (some sampleURL) (initOnDemandMinutes 60 30) none "boot"

def enterSession (now : Nat) (uuid : String) : List Label :=
  [.perform (.start (now * nsecPerSec)), .request 1 0, .answer 1 true,
    .perform (.begin 1 (now * nsecPerSec) uuid)]

theorem consistent_without_state {s : System} (absent : s.saved = none) (empty : s.trail = [])
    (now : Nat) : Consistent s now := by
  have nothing : stateValues s.saved = none := by rw [absent]; rfl
  refine ⟨?_, ?_, ?_⟩
  · rintro uuid ⟨values, here, -⟩
    rw [nothing] at here
    cases here
  · rintro uuid ⟨values, seconds, here, -⟩
    rw [nothing] at here
    cases here
  · rintro uuid ⟨⟨seconds, reason, member⟩, -⟩
    rw [empty] at member
    cases member

/-- A session is entered and cancelled. -/
theorem cancelled_session_paired :
    Runs.Always step (fun s => WellPaired s.trail) sampleStart
      (enterSession 0 sampleUUID ++ [.perform .cancel]) := by
  apply wellPaired_of_consistent
  refine (Runs.meets_cons rfl).mp ⟨?_, ?_⟩
  · intro now _
    exact consistent_without_state rfl rfl now
  · exact (Runs.meets_cons rfl).mp ⟨nofun, (Runs.meets_cons rfl).mp ⟨nofun,
      (Runs.meets_cons rfl).mp ⟨nofun, (Runs.meets_cons rfl).mp ⟨nofun, trivial⟩⟩⟩⟩

/-- With three seconds left of its session, the daemon is started again; the session is not left
    when the next is entered. -/
theorem restarted_session_not_paired :
    ¬ Runs.Always step (fun s => WellPaired s.trail) sampleStart
      (enterSession 0 sampleUUID ++ .die :: enterSession 1797 otherUUID) := by
  intro always
  have sent : (Runs.run step sampleStart (enterSession 0 sampleUUID ++ .die ::
      enterSession 1797 otherUUID)).map System.trail =
        some [.enter (some sampleUUID) 1800 .onDemand, .enter (some otherUUID) 1800 .onDemand] := by
    decide +kernel
  obtain ⟨t, ends, trail⟩ := Option.map_eq_some_iff.mp sent
  have paired := Runs.always_last always ends
  rw [WellPaired, trail] at paired
  obtain ⟨u, same, -, first⟩ := paired [.enter (some sampleUUID) 1800 .onDemand] _ [] rfl
  rw [← Option.some.inj same] at first
  have unentered : ¬ Entered [.enter (some sampleUUID) 1800 .onDemand] otherUUID := by
    rw [entered_enter]
    decide
  exact left_enter (first unentered sampleUUID (entered_enter.mpr rfl))

/-! ### Starts that are not consistent -/

/-- After such a start the events are not paired, or a session is open that the daemon is not in
    and will not leave. -/
theorem inconsistent_start {s t : System} {now : Nat}
    (h : step s (.perform (.start now)) = some t) (inconsistent : ¬ Consistent s now) :
    ¬ WellPaired t.trail ∨
      ∃ v, Open t.trail v ∧ ∀ d, t.daemon = some d → session d ≠ some v := by
  obtain ⟨⟨after, effects⟩, done, same⟩ := Option.map_eq_some_iff.mp h
  have setup := setup_cases s now
  simp only [perform] at done
  split at done
  · rw [Option.some.inj done] at setup
    have trail : t.trail = s.trail ++ events effects := by
      rw [← same]
      exact trail_apply effects s
    have running : t.daemon = after := by rw [← same]
    rw [trail, running]
    generalize events effects = sent at setup
    cases setup with
    | silent stopped unended gone =>
      right
      by_contra none
      apply inconsistent
      refine ⟨fun uuid ends => absurd ends (unended uuid),
        fun uuid resumes => absurd resumes (gone uuid), ?_⟩
      intro v here
      refine absurd ⟨v, ?_, ?_⟩ none
      · rw [List.append_nil]
        exact here
      · rintro d ⟨⟩
        rw [session_none stopped]
        intro equal
        cases equal
    | @ended d uuid reason stopped ends =>
      by_cases here : Open s.trail uuid
      · right
        by_contra none
        apply inconsistent
        refine ⟨?_, fun _ resumes => absurd resumes (not_both ends), ?_⟩
        · intro uuid' ends'
          rw [ends_unique ends' ends]
          exact here
        · intro v there
          by_cases other : v = uuid
          · rw [other]
            exact .inl ends
          · refine absurd ⟨v, open_leave_iff.mpr ⟨there, other⟩, ?_⟩ none
            rintro d' ⟨⟩
            rw [session_none stopped]
            intro equal
            cases equal
      · left
        intro paired
        obtain ⟨u, same, entered, unleft⟩ := (lawful_concat_iff.mp paired).2
        obtain rfl := Option.some.inj same
        exact here ⟨entered, unleft⟩
    | @resumed d uuid seconds formed resumes within =>
      by_cases fits : Open s.trail uuid ∨ (¬ Left s.trail uuid ∧ ∀ v, ¬ Open s.trail v)
      · right
        by_contra none
        apply inconsistent
        refine ⟨fun _ ends => absurd resumes (not_both ends), ?_, ?_⟩
        · intro uuid' resumes'
          rw [resumes_unique resumes' resumes]
          exact fits
        · intro v there
          by_cases other : v = uuid
          · rw [other]
            exact .inr resumes
          · have unleft : ¬ Left s.trail uuid := fits.elim And.right And.left
            refine absurd ⟨v, (open_enter_iff unleft).mpr (.inl there), ?_⟩ none
            rintro d' ⟨⟩
            rw [within]
            exact fun same => other (Option.some.inj same).symm
      · left
        intro paired
        obtain ⟨u, same, unleft, first⟩ := (lawful_concat_iff.mp paired).2
        obtain rfl := Option.some.inj same
        apply fits
        by_cases entered : Entered s.trail uuid
        · exact .inl ⟨entered, unleft⟩
        · exact .inr ⟨unleft, fun v there => there.2 (first entered v there.1)⟩
  · cases done

end SantaMonitorModeAuditTrail
