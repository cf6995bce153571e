import Santa.TemporaryMonitorMode.Session

/-!
The policy under which a request enters temporary Monitor Mode. A request sees the
policy when it is made, reads it again when the user has agreed, and takes the lock
after that. The policy can change in between.
-/
namespace SantaMonitorModePolicy
open SantaConfigurator SantaPreflight SantaMonitorMode

/-- The session lasts the minutes that the policy grants. The timer counts seconds. -/
structure Lasts (d : Daemon) (policy : ModeTransition) (requestedDuration : Nat) : Prop where
  timer : d.timer = some (getDurationMinutes (some policy) requestedDuration * 60)
  low : kMinTemporaryMonitorModeMinutes ≤ getDurationMinutes (some policy) requestedDuration
  high : getDurationMinutes (some policy) requestedDuration ≤ policy.maxMinutes.getD 0

def AtBegin (holds : System → Operation → Nat → Option ModeTransition → Prop)
    (s : System) (l : Label) : Prop :=
  ∀ id now generated d requestedDuration transition,
    l.operation? = some (.begin id now generated) → s.daemon = some d →
    d.requests id = some (.authorized requestedDuration transition) →
    holds s (.begin id now generated) requestedDuration transition

/-- An on-demand policy is in force, and the session lasts as long as it grants. -/
def UnderPolicy : System → Label → Prop :=
  AtBegin fun s operation requestedDuration _ =>
    ∃ policy d' effects, s.modeTransition = some policy ∧ policy.type = .onDemand ∧
      perform s operation = some (some d', effects) ∧ Lasts d' policy requestedDuration

def longestMinutes : Nat := 720

/-- An on-demand policy is in force, and grants what the policy that was read grants, up to what
    the timer counts to. The sync server is still one. -/
def StillGranted : System → Label → Prop :=
  AtBegin fun s _ requestedDuration transition =>
    s.host.isSome ∧ ∃ policy, s.modeTransition = some policy ∧ policy.type = .onDemand ∧
      getDurationMinutes (some policy) requestedDuration =
        min (getDurationMinutes transition requestedDuration) longestMinutes

theorem clampDefaultDuration_bounds {maxMinutes : Nat} (positive : 1 ≤ maxMinutes)
    (duration : Nat) :
    1 ≤ clampDefaultDuration maxMinutes duration ∧
      clampDefaultDuration maxMinutes duration ≤ maxMinutes := by
  unfold clampDefaultDuration
  split <;> omega

theorem getDurationMinutes_bounds {t : ModeTransition} (max : 1 ≤ t.maxMinutes.getD 0)
    (default : 1 ≤ t.defaultDurationMinutes.getD 0 ∧
      t.defaultDurationMinutes.getD 0 ≤ t.maxMinutes.getD 0) (requestedDuration : Nat) :
    1 ≤ getDurationMinutes (some t) requestedDuration ∧
      getDurationMinutes (some t) requestedDuration ≤ t.maxMinutes.getD 0 := by
  simp only [getDurationMinutes]
  split
  · exact default
  · split
    · exact ⟨max, Nat.le_refl _⟩
    · omega

/-- A policy in force grants a minute at least and its maximum at most. -/
theorem granted_bounds {s : System} {policy : ModeTransition}
    (inForce : s.modeTransition = some policy) (requestedDuration : Nat) :
    1 ≤ getDurationMinutes (some policy) requestedDuration ∧
      getDurationMinutes (some policy) requestedDuration ≤ policy.maxMinutes.getD 0 := by
  obtain ⟨stored, -, rfl⟩ := Option.map_eq_some_iff.mp inForce
  have max := clampMinutes_bounds (stored.maxMinutes.getD 0)
  have default := clampDefaultDuration_bounds max.1 (stored.defaultDurationMinutes.getD 0)
  exact @getDurationMinutes_bounds (initWithCoder stored) max.1 default requestedDuration

theorem clampInterval_eq_iff {minutes : Nat} (positive : 1 ≤ minutes) (granted : Nat) :
    clampInterval (granted * 60) = minutes * 60 ↔ minutes = min granted longestMinutes := by
  unfold clampInterval longestMinutes kMinTemporaryMonitorModeMinutes
    kMaxTemporaryMonitorModeMinutes
  split
  · omega
  · split <;> omega

theorem operation_performed {s t : System} {l : Label} {operation : Operation}
    (which : l.operation? = some operation) (h : step s l = some t) :
    (perform s operation).isSome := by
  cases l with
  | perform _ =>
    obtain rfl := Option.some.inj which
    obtain ⟨result, done, -⟩ := Option.map_eq_some_iff.mp h
    rw [done]
    rfl
  | dieIn _ _ =>
    obtain rfl := Option.some.inj which
    obtain ⟨result, done, -⟩ := Option.map_eq_some_iff.mp h
    rw [done]
    rfl
  | _ => cases which

theorem begin_performed {s : System} {d : Daemon} {id now : Nat} {generated : String}
    {requestedDuration : Nat} {transition : Option ModeTransition} (running : s.daemon = some d)
    (authorized : d.requests id = some (.authorized requestedDuration transition))
    (enabled : (perform s (.begin id now generated)).isSome) :
    perform s (.begin id now generated) =
      some (requestMinutesLocked s (setRequest d id none) requestedDuration transition now
        generated) := by
  simp only [perform, running, Option.bind_some, authorized] at enabled ⊢
  split
  · rfl
  · rename_i refused
    rw [if_neg refused] at enabled
    cases enabled

theorem underPolicy_step_iff {s t : System} {l : Label} (inv : Inv s) (h : step s l = some t) :
    UnderPolicy s l ↔ StillGranted s l := by
  unfold UnderPolicy StillGranted AtBegin
  refine forall_congr' fun id => forall_congr' fun now => forall_congr' fun generated =>
    forall_congr' fun d => forall_congr' fun requestedDuration => forall_congr' fun transition => ?_
  refine imp_congr_right fun which => imp_congr_right fun running =>
    imp_congr_right fun authorized => ?_
  have done := begin_performed running authorized (operation_performed which h)
  have formed : WellFormed (setRequest d id none) := inv d running
  rcases requestMinutesLocked_cases formed requestedDuration transition now generated with
    ⟨hostless, crashed⟩ | ⟨host, d', effects, begun, timer, -⟩
  · constructor
    · rintro ⟨policy, d', effects, -, -, result, -⟩
      rw [done, crashed] at result
      cases result
    · rintro ⟨host, -⟩
      rw [hostless] at host
      cases host
  · rw [begun] at done
    constructor
    · rintro ⟨policy, d'', effects', inForce, onDemand, result, lasts⟩
      rw [done, Option.some.injEq, Prod.mk.injEq, Option.some.injEq] at result
      obtain ⟨rfl, rfl⟩ := result
      refine ⟨host, policy, inForce, onDemand, ?_⟩
      have interval := timer.symm.trans lasts.timer
      exact (clampInterval_eq_iff (granted_bounds inForce requestedDuration).1 _).mp
        (Option.some.inj interval)
    · rintro ⟨-, policy, inForce, onDemand, granted⟩
      obtain ⟨low, high⟩ := granted_bounds inForce requestedDuration
      refine ⟨policy, d', effects, inForce, onDemand, done, ?_, low, high⟩
      rw [timer, (clampInterval_eq_iff low _).mpr granted]

/-- Sessions are entered under a policy exactly in the runs in which each request that takes the
    lock is still granted what it was granted before. -/
theorem underPolicy_iff (configuredMode : SantaPolicy.SNTClientMode) (syncBaseURL : Option URL)
    (storedTransition : Option ModeTransition) (saved : Option SavedState) (boot : String)
    (ls : List Label) :
    Runs.Meets step UnderPolicy
        (.down configuredMode syncBaseURL storedTransition saved boot) ls ↔
      Runs.Meets step StillGranted
        (.down configuredMode syncBaseURL storedTransition saved boot) ls :=
  Runs.meets_congr (fun _ _ _ => underPolicy_step_iff) (fun _ _ _ => inv_step)
    (inv_down configuredMode syncBaseURL storedTransition saved boot) ls

/-- The policy is revoked while the user is being asked. -/
theorem revoked_while_prompting :
    ¬ Runs.Meets step UnderPolicy
      (.down .lockdown (some sampleURL) (initOnDemandMinutes 60 30) none "boot")
      [.perform (.start 0), .request 1 0,
        .perform (.newModeTransitionReceived (some initRevocation)), .answer 1 true,
        .perform (.begin 1 0 sampleUUID)] := by
  intro meets
  have under := (((((meets _ rfl).2 _ rfl).2 _ rfl).2 _ rfl).2 _ rfl).1
  obtain ⟨policy, d', effects, inForce, -⟩ := under 1 0 sampleUUID _ 0 none rfl rfl rfl
  cases inForce

/-! ### Runs in which the policy stays -/

def Waiting (s : System) : Prop :=
  ∃ d id requestedDuration transition, s.daemon = some d ∧
    d.requests id = some (.authorized requestedDuration transition)

def Grants (s : System) (requestedDuration : Nat) : Prop :=
  s.host.isSome ∧ ∃ policy, s.modeTransition = some policy ∧ policy.type = .onDemand ∧
    getDurationMinutes (some policy) requestedDuration ≤ longestMinutes

/-- The policy and the sync server do not change from the reading of the policy on, and the policy
    that is read still allows what was requested. -/
def Calm (s : System) : Label → Prop
  | .perform (.newModeTransitionReceived _) => ¬ Waiting s
  | .perform (.syncBaseURLChanged _ _) => ¬ Waiting s
  | .setSyncBaseURL _ => ¬ Waiting s
  | .clearSyncState => ¬ Waiting s
  | .answer id true => ∀ d requestedDuration, s.daemon = some d →
      d.requests id = some (.prompting requestedDuration) → Grants s requestedDuration
  | _ => True

/-- What a request has read is what is in force. -/
structure Current (s : System) : Prop where
  inv : Inv s
  granted : ∀ d id requestedDuration transition, s.daemon = some d →
    d.requests id = some (.authorized requestedDuration transition) →
    transition = s.modeTransition ∧ Grants s requestedDuration

theorem Current.stillGranted {s : System} (current : Current s) (l : Label) :
    StillGranted s l := by
  intro id now generated d requestedDuration transition _ running authorized
  obtain ⟨same, host, policy, inForce, onDemand, fits⟩ :=
    current.granted d id requestedDuration transition running authorized
  refine ⟨host, policy, inForce, onDemand, ?_⟩
  rw [same, inForce, Nat.min_eq_left fits]

theorem current_of_not_waiting {s : System} (inv : Inv s) (none : ¬ Waiting s) : Current s :=
  ⟨inv, fun d id requestedDuration transition running authorized =>
    absurd ⟨d, id, requestedDuration, transition, running, authorized⟩ none⟩

theorem leave_requests (d : Daemon) (reason : LeaveReason) :
    (leave d reason).1.requests = d.requests := by
  unfold leave endLocked
  split
  · rename_i d' effects ended
    split at ended
    · obtain ⟨rfl, rfl⟩ := Prod.mk.inj (Option.some.inj ended)
      rfl
    · cases ended
  · rfl

theorem apply_url (effects : List Effect) (s : System) :
    (effects.foldl Effect.apply s).syncBaseURL = s.syncBaseURL := by
  induction effects generalizing s with
  | nil => rfl
  | cons effect effects ih =>
    rw [List.foldl_cons, ih]
    cases effect <;> rfl

theorem leave_stored (d : Daemon) (reason : LeaveReason) (s : System) :
    ((leave d reason).2.foldl Effect.apply s).storedTransition = s.storedTransition := by
  unfold leave endLocked
  split
  · rename_i d' effects ended
    split at ended
    · obtain ⟨rfl, rfl⟩ := Prod.mk.inj (Option.some.inj ended)
      rfl
    · cases ended
  · rfl

theorem Current.of_same {s t : System} (current : Current s) (inv : Inv t)
    (stored : t.storedTransition = s.storedTransition) (url : t.syncBaseURL = s.syncBaseURL)
    (fewer : ∀ d' id requestedDuration transition, t.daemon = some d' →
      d'.requests id = some (.authorized requestedDuration transition) →
      (∃ d, s.daemon = some d ∧
        d.requests id = some (.authorized requestedDuration transition)) ∨
      (transition = s.modeTransition ∧ Grants s requestedDuration)) : Current t := by
  have policy : t.modeTransition = s.modeTransition := by
    rw [System.modeTransition, stored, System.modeTransition]
  have host : t.host = s.host := by rw [System.host, url, System.host]
  refine ⟨inv, ?_⟩
  intro d' id requestedDuration transition running authorized
  have read : transition = s.modeTransition ∧ Grants s requestedDuration := by
    rcases fewer d' id requestedDuration transition running authorized with ⟨d, before, same⟩ | read
    · exact current.granted d id requestedDuration transition before same
    · exact read
  rw [policy, Grants, host, policy]
  exact read

theorem newModeTransitionReceived_requests (d : Daemon) (transition : Option ModeTransition) :
    (newModeTransitionReceived d transition).1.requests = d.requests := by
  unfold newModeTransitionReceived
  split
  · exact leave_requests d .revoked
  · rfl

theorem syncBaseURLChanged_requests (d : Daemon) (oldValue newValue : Option URL) :
    (syncBaseURLChanged d oldValue newValue).1.requests = d.requests := by
  unfold syncBaseURLChanged
  split
  · rfl
  · exact leave_requests d .syncServerChanged

theorem beginLocked_requests {s : System} {d d' : Daemon} {seconds now : Nat}
    {generated : Option String} {didStart : Bool} {state : SavedState}
    (begun : beginLocked s d seconds now generated = some (didStart, d', state)) :
    d'.requests = d.requests := by
  obtain ⟨host, -, begun⟩ := Option.bind_eq_some_iff.mp begun
  obtain ⟨uuid, -, same⟩ := Option.map_eq_some_iff.mp begun
  rw [← (Prod.mk.inj (Prod.mk.inj same).2).1]

theorem initialState_requests (s : System) (now : Nat) :
    (getSecondsRemainingFromInitialStateLocked s newDaemon now).2.1.requests =
      newDaemon.requests := by
  unfold getSecondsRemainingFromInitialStateLocked
  split
  · rfl
  · split
    · rfl
    · simp only
      split
      · rfl
      · split
        · exact leave_requests { newDaemon with currentUUID := _ } .syncServerChanged
        · split <;> rfl

theorem setup_requests {s : System} {now : Nat} {d : Daemon} {effects : List Effect}
    (done : setupFromState s now = (some d, effects)) : d.requests = newDaemon.requests := by
  unfold setupFromState at done
  simp only at done
  split at done
  · rw [← Option.some.inj (Prod.mk.inj done).1]
    exact initialState_requests s now
  · split at done
    · cases (Prod.mk.inj done).1
    · rename_i begun
      rw [← Option.some.inj (Prod.mk.inj done).1, beginLocked_requests begun]
      exact initialState_requests s now

theorem requestMinutesLocked_requests {s : System} {d d' : Daemon} {requestedDuration : Nat}
    {transition : Option ModeTransition} {now : Nat} {generated : String} {effects : List Effect}
    (done : requestMinutesLocked s d requestedDuration transition now generated =
      (some d', effects)) : d'.requests = d.requests := by
  unfold requestMinutesLocked at done
  simp only at done
  split at done
  · cases (Prod.mk.inj done).1
  · rename_i begun
    rw [← Option.some.inj (Prod.mk.inj done).1]
    exact beginLocked_requests begun

theorem perform_waiting {s : System} {operation : Operation} {d' : Daemon} {effects : List Effect}
    (done : perform s operation = some (some d', effects)) {id requestedDuration : Nat}
    {transition : Option ModeTransition}
    (authorized : d'.requests id = some (.authorized requestedDuration transition)) :
    ∃ d, s.daemon = some d ∧
      d.requests id = some (.authorized requestedDuration transition) := by
  cases operation with
  | start now =>
    simp only [perform] at done
    split at done
    · rw [setup_requests (Option.some.inj done)] at authorized
      cases authorized
    · cases done
  | begin id' now generated =>
    obtain ⟨d, running, done⟩ := Option.bind_eq_some_iff.mp done
    split at done
    · split at done
      · rw [requestMinutesLocked_requests (Option.some.inj done), setRequest] at authorized
        simp only at authorized
        split at authorized
        · cases authorized
        · exact ⟨d, running, authorized⟩
      · cases done
    · cases done
  | cancel =>
    obtain ⟨d, running, result⟩ := Option.map_eq_some_iff.mp done
    have same : (cancel d).1 = d' := Option.some.inj (Prod.mk.inj result).1
    have kept : (cancel d).1.requests = d.requests := leave_requests d .cancelled
    rw [← same, kept] at authorized
    exact ⟨d, running, authorized⟩
  | newModeTransitionReceived transition =>
    obtain ⟨d, running, result⟩ := Option.map_eq_some_iff.mp done
    have same : (newModeTransitionReceived d transition).1 = d' :=
      Option.some.inj (Prod.mk.inj result).1
    rw [← same, newModeTransitionReceived_requests] at authorized
    exact ⟨d, running, authorized⟩
  | syncBaseURLChanged oldValue newValue =>
    obtain ⟨d, running, result⟩ := Option.map_eq_some_iff.mp done
    have same : (syncBaseURLChanged d oldValue newValue).1 = d' :=
      Option.some.inj (Prod.mk.inj result).1
    rw [← same, syncBaseURLChanged_requests] at authorized
    exact ⟨d, running, authorized⟩
  | expire =>
    obtain ⟨d, running, done⟩ := Option.bind_eq_some_iff.mp done
    split at done
    · rw [← Option.some.inj (Prod.mk.inj (Option.some.inj done)).1] at authorized
      exact ⟨d, running, authorized⟩
    · cases done

theorem requestMinutesLocked_stored (s : System) (d : Daemon) (requestedDuration : Nat)
    (transition : Option ModeTransition) (now : Nat) (generated : String) :
    ((requestMinutesLocked s d requestedDuration transition now generated).2.foldl Effect.apply
      s).storedTransition = s.storedTransition := by
  unfold requestMinutesLocked
  simp only
  split <;> rfl

theorem perform_stored {s : System} {operation : Operation} {after : Option Daemon}
    {effects : List Effect} (done : perform s operation = some (after, effects)) :
    (effects.foldl Effect.apply s).storedTransition = s.storedTransition ∨
      s.daemon = none ∨ (∃ transition, operation = .newModeTransitionReceived transition) ∨
      ∃ oldValue newValue, operation = .syncBaseURLChanged oldValue newValue := by
  cases operation with
  | start now =>
    simp only [perform] at done
    split at done
    · rename_i down
      exact .inr (.inl (Option.isNone_iff_eq_none.mp down))
    · cases done
  | begin id now generated =>
    obtain ⟨d, running, done⟩ := Option.bind_eq_some_iff.mp done
    split at done
    · rename_i requestedDuration transition _
      split at done
      · have stored := requestMinutesLocked_stored s (setRequest d id none) requestedDuration
          transition now generated
        rw [Option.some.inj done] at stored
        exact .inl stored
      · cases done
    · cases done
  | cancel =>
    obtain ⟨d, running, result⟩ := Option.map_eq_some_iff.mp done
    rw [← (Prod.mk.inj result).2]
    exact .inl (leave_stored d .cancelled s)
  | newModeTransitionReceived transition => exact .inr (.inr (.inl ⟨transition, rfl⟩))
  | syncBaseURLChanged oldValue newValue => exact .inr (.inr (.inr ⟨oldValue, newValue, rfl⟩))
  | expire =>
    obtain ⟨d, running, done⟩ := Option.bind_eq_some_iff.mp done
    split at done
    · rw [← (Prod.mk.inj (Option.some.inj done)).2]
      exact .inl rfl
    · cases done

theorem current_perform {s t : System} {operation : Operation} (current : Current s)
    (calm : Calm s (.perform operation)) (h : step s (.perform operation) = some t) :
    Current t := by
  have inv := inv_step current.inv h
  obtain ⟨⟨after, effects⟩, done, same⟩ := Option.map_eq_some_iff.mp h
  have waiting : ∀ d' id requestedDuration transition, t.daemon = some d' →
      d'.requests id = some (.authorized requestedDuration transition) →
      ∃ d, s.daemon = some d ∧
        d.requests id = some (.authorized requestedDuration transition) := by
    intro d' id requestedDuration transition running authorized
    rw [← same] at running
    have after_some : after = some d' := running
    rw [after_some] at done
    exact perform_waiting done authorized
  have stops : ¬ Waiting s → Current t := by
    intro none
    apply current_of_not_waiting inv
    rintro ⟨d', id, requestedDuration, transition, running, authorized⟩
    obtain ⟨d, before⟩ := waiting d' id requestedDuration transition running authorized
    exact none ⟨d, id, requestedDuration, transition, before⟩
  rcases perform_stored done with stored | down | ⟨transition, rfl⟩ | ⟨oldValue, newValue, rfl⟩
  · refine current.of_same inv ?_ ?_ fun d' id requestedDuration transition running authorized =>
      .inl (waiting d' id requestedDuration transition running authorized)
    · rw [← same]
      exact stored
    · rw [← same]
      exact apply_url effects s
  · apply stops
    rintro ⟨d, -, -, -, running, -⟩
    rw [down] at running
    cases running
  · exact stops calm
  · exact stops calm

theorem current_step {s t : System} {l : Label} (current : Current s) (calm : Calm s l)
    (h : step s l = some t) : Current t := by
  have inv := inv_step current.inv h
  have dead : t.daemon = none → Current t := by
    intro down
    apply current_of_not_waiting inv
    rintro ⟨d, -, -, -, running, -⟩
    rw [down] at running
    cases running
  cases l with
  | perform operation => exact current_perform current calm h
  | dieIn operation cut =>
    obtain ⟨_, -, same⟩ := Option.map_eq_some_iff.mp h
    exact dead (by rw [← same])
  | die => exact dead (by rw [← Option.some.inj h])
  | reboot bootSessionUUID => exact dead (by rw [← Option.some.inj h])
  | replaceState saved =>
    simp only [step] at h
    split at h
    · rename_i down
      exact dead (by rw [← Option.some.inj h]; exact Option.isNone_iff_eq_none.mp down)
    · cases h
  | request id requestedDuration =>
    obtain ⟨d, running, same | same⟩ := request_cases h
    · rw [same]
      exact current
    · subst same
      refine current.of_same inv rfl rfl ?_
      intro d' id' requestedDuration' transition running' authorized
      obtain rfl := Option.some.inj running'
      simp only [setRequest] at authorized
      split at authorized
      · cases authorized
      · exact .inl ⟨d, running, authorized⟩
  | answer id authenticated =>
    obtain ⟨d, requestedDuration, running, prompting, same⟩ := answer_cases h
    subst same
    refine current.of_same inv rfl rfl ?_
    intro d' id' requestedDuration' transition running' authorized
    obtain rfl := Option.some.inj running'
    simp only [setRequest] at authorized
    split at authorized
    · cases authenticated with
      | false => cases authorized
      | true =>
        obtain ⟨rfl, rfl⟩ := Request.authorized.inj (Option.some.inj authorized)
        exact .inr ⟨rfl, calm d requestedDuration running prompting⟩
    · exact .inl ⟨d, running, authorized⟩
  | setSyncBaseURL url =>
    rw [← Option.some.inj h]
    exact current_of_not_waiting (by rw [Option.some.inj h]; exact inv) calm
  | setClientMode mode =>
    rw [← Option.some.inj h]
    exact current.of_same (by rw [Option.some.inj h]; exact inv) rfl rfl
      fun d' id requestedDuration transition running authorized => .inl ⟨d', running, authorized⟩
  | clearSyncState =>
    rw [← Option.some.inj h]
    exact current_of_not_waiting (by rw [Option.some.inj h]; exact inv) calm

/-- Requests are safe when the policy does not change under them. -/
theorem underPolicy_of_calm {configuredMode : SantaPolicy.SNTClientMode} {syncBaseURL : Option URL}
    {storedTransition : Option ModeTransition} {saved : Option SavedState} {boot : String}
    {ls : List Label}
    (calm : Runs.Meets step Calm (.down configuredMode syncBaseURL storedTransition saved boot) ls) :
    Runs.Meets step StillGranted
      (.down configuredMode syncBaseURL storedTransition saved boot) ls := by
  refine Runs.meets_of_meets (fun _ l current _ => current.stillGranted l)
    (fun _ _ _ => current_step) ?_ calm
  refine ⟨inv_down configuredMode syncBaseURL storedTransition saved boot, ?_⟩
  intro d id requestedDuration transition running
  cases running

end SantaMonitorModePolicy
