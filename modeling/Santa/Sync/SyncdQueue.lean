import Santa.Library.Runs

/-!
The daemon's connection to the sync service. Every change of the configuration
restarts a timer; when it fires, the connection is established, bounced or torn
down. A torn down or lost connection comes back through its invalidation
handler, which first clears the handler of whatever connection is current then.
A connection and the handler that is about to run for it are followed apart,
and whether SyncBaseURL changed since a connection was established is kept
beside it.
-/
namespace SantaSyncdQueue

/-- URLs are compared by their absolute strings. -/
structure Configuration where
  syncBaseURL : Option String
  enableStatsCollection : Bool
  enableTelemetryExport : Bool
  deriving DecidableEq, Repr

def Configuration.wanted (c : Configuration) : Bool :=
  c.syncBaseURL.isSome || c.enableStatsCollection || c.enableTelemetryExport

structure Connection where
  isConnected : Bool
  invalidationHandler : Bool
  spindown : Bool
  unchanged : Bool
  deriving DecidableEq, Repr

structure Queue where
  configuration : Configuration
  previousSyncBaseURL : Option String
  syncConnection : Connection
  timer : Bool
  /-- The number of invalidation handlers that are about to run. -/
  invalidations : Nat
  clearSyncState : Bool
  deriving DecidableEq, Repr

def noConnection : Connection := ⟨false, false, false, true⟩

def Queue.new (c : Configuration) : Queue := ⟨c, none, noConnection, true, 0, false⟩

inductive Label where
  | configure (configuration : Configuration)
  | reassess
  | fire (accepted : Bool)
  | lose
  | invalidate
  deriving DecidableEq, Repr

def reassessSyncServiceConnection (s : Queue) : Queue := { s with timer := true }

def configure (s : Queue) (c : Configuration) : Queue :=
  if c = s.configuration then s
  else
    let unchanged := s.syncConnection.unchanged && c.syncBaseURL == s.configuration.syncBaseURL
    reassessSyncServiceConnection
      { s with configuration := c, syncConnection := { s.syncConnection with unchanged } }

/-- A connection that is not accepted in time is invalidated. -/
def establishSyncServiceConnectionSerialized (s : Queue) (accepted : Bool) : Queue :=
  { s with
    syncConnection := ⟨accepted, true, false, true⟩
    invalidations := if accepted then s.invalidations else s.invalidations + 1 }

def tearDownSyncServiceConnectionSerialized (s : Queue) : Queue :=
  { s with syncConnection := { s.syncConnection with spindown := true } }

def fire (s : Queue) (accepted : Bool) : Queue :=
  let newSyncBaseURL := s.configuration.syncBaseURL
  if s.previousSyncBaseURL.isSome ∧ s.previousSyncBaseURL ≠ newSyncBaseURL ∧
      s.syncConnection.isConnected then
    tearDownSyncServiceConnectionSerialized s
  else
    let s := { s with previousSyncBaseURL := newSyncBaseURL }
    if s.configuration.wanted then
      let s :=
        if s.syncConnection.isConnected then s
        else establishSyncServiceConnectionSerialized s accepted
      if newSyncBaseURL.isSome then { s with clearSyncState := false } else s
    else
      let s :=
        if s.syncConnection.isConnected then tearDownSyncServiceConnectionSerialized s else s
      { s with clearSyncState := true }

/-- The service has gone, because it was told to or by itself. -/
def lose (s : Queue) : Queue :=
  { s with
    syncConnection := { s.syncConnection with isConnected := false, spindown := false }
    invalidations :=
      if s.syncConnection.invalidationHandler then s.invalidations + 1 else s.invalidations }

def invalidate (s : Queue) : Queue :=
  reassessSyncServiceConnection
    { s with
      syncConnection := { s.syncConnection with invalidationHandler := false }
      invalidations := s.invalidations - 1 }

def step (s : Queue) : Label → Option Queue
  | .configure c => some (configure s c)
  | .reassess => some (reassessSyncServiceConnection s)
  | .fire accepted => if s.timer then some (fire { s with timer := false } accepted) else none
  | .lose => if s.syncConnection.isConnected then some (lose s) else none
  | .invalidate => if s.invalidations = 0 then none else some (invalidate s)

/-! ### A settled connection -/

def Settled (s : Queue) : Prop :=
  s.timer = false ∧ s.invalidations = 0 ∧ s.syncConnection.spindown = false

/-- There is a connection just where one is wanted, and it is from after the last change. -/
def Follows (s : Queue) : Prop :=
  Settled s → s.syncConnection.isConnected = s.configuration.wanted ∧
    (s.syncConnection.isConnected = true → s.syncConnection.unchanged = true)

/-- A timer that finds an open connection from before a change of SyncBaseURL must see, in the
    previous URL, that there was one; and a connection whose handler was cleared is not lost
    while nothing else is to come. -/
def Noticed (s : Queue) : Label → Prop
  | .fire _ => s.invalidations = 0 → s.syncConnection.spindown = false →
      s.syncConnection.isConnected = true → s.syncConnection.unchanged = false →
      s.configuration.wanted = true →
      s.previousSyncBaseURL.isSome ∧ s.previousSyncBaseURL ≠ s.configuration.syncBaseURL
  | .lose => s.syncConnection.invalidationHandler = true ∨ s.timer = true ∨ s.invalidations ≠ 0 ∨
      s.configuration.wanted = false
  | _ => True

structure Inv (s : Queue) : Prop where
  follows : Follows s
  spindown : s.syncConnection.spindown = true → s.syncConnection.isConnected = true

theorem fire_cases (s : Queue) (accepted : Bool) :
    ((s.previousSyncBaseURL.isSome = true ∧
        s.previousSyncBaseURL ≠ s.configuration.syncBaseURL) ∧
      s.syncConnection.isConnected = true ∧
      fire s accepted = tearDownSyncServiceConnectionSerialized s) ∨
    ((s.syncConnection.isConnected = true → ¬ (s.previousSyncBaseURL.isSome = true ∧
        s.previousSyncBaseURL ≠ s.configuration.syncBaseURL)) ∧
      ∃ clear, let t := { s with
          previousSyncBaseURL := s.configuration.syncBaseURL, clearSyncState := clear }
        fire s accepted =
          if s.configuration.wanted = true then
            if s.syncConnection.isConnected = true then t
            else establishSyncServiceConnectionSerialized t accepted
          else if s.syncConnection.isConnected = true then
            tearDownSyncServiceConnectionSerialized t
          else t) := by
  unfold fire
  by_cases bounce : s.previousSyncBaseURL.isSome ∧
      s.previousSyncBaseURL ≠ s.configuration.syncBaseURL ∧ s.syncConnection.isConnected = true
  · exact Or.inl ⟨⟨bounce.1, bounce.2.1⟩, bounce.2.2, if_pos bounce⟩
  · refine Or.inr ⟨fun connected both => bounce ⟨both.1, both.2, connected⟩, ?_⟩
    simp only [if_neg bounce]
    by_cases wanted : s.configuration.wanted = true
    · refine ⟨if s.configuration.syncBaseURL.isSome then false else s.clearSyncState, ?_⟩
      simp only [if_pos wanted]
      cases s.configuration.syncBaseURL.isSome <;> cases s.syncConnection.isConnected <;> rfl
    · refine ⟨true, ?_⟩
      simp only [if_neg wanted]
      cases s.syncConnection.isConnected <;> rfl

theorem follows_of_timer {s : Queue} (timer : s.timer = true) : Follows s := by
  rintro ⟨expired, -⟩
  rw [timer] at expired
  exact absurd expired (by decide)

theorem follows_of_spindown {s : Queue} (spindown : s.syncConnection.spindown = true) :
    Follows s := by
  rintro ⟨-, -, done⟩
  rw [spindown] at done
  exact absurd done (by decide)

theorem inv_new (c : Configuration) : Inv (Queue.new c) :=
  ⟨follows_of_timer rfl, fun spindown => absurd spindown Bool.false_ne_true⟩

theorem configure_keeps {s : Queue} (c : Configuration) (inv : Inv s) : Inv (configure s c) := by
  unfold configure
  by_cases same : c = s.configuration
  · rw [if_pos same]
    exact inv
  · rw [if_neg same]
    exact ⟨follows_of_timer rfl, inv.spindown⟩

theorem fire_keeps {s : Queue} {accepted : Bool} (inv : Inv s)
    (noticed : Noticed s (.fire accepted)) : Inv (fire { s with timer := false } accepted) := by
  obtain ⟨-, connected, torn⟩ | ⟨kept, clear, done⟩ := fire_cases { s with timer := false } accepted
  · rw [torn]
    exact ⟨follows_of_spindown rfl, fun _ => connected⟩
  · rw [done]
    by_cases wanted : s.configuration.wanted = true <;>
      by_cases connected : s.syncConnection.isConnected = true
    · simp only [if_pos wanted, if_pos connected]
      refine ⟨?_, inv.spindown⟩
      intro settled
      refine ⟨connected.trans wanted.symm, ?_⟩
      intro _
      cases unchanged : s.syncConnection.unchanged with
      | true => rfl
      | false =>
        exact absurd (noticed settled.2.1 settled.2.2 connected unchanged wanted) (kept connected)
    · simp only [if_pos wanted, if_neg connected]
      refine ⟨?_, fun spindown => absurd spindown Bool.false_ne_true⟩
      intro settled
      cases accepted with
      | true => exact ⟨wanted.symm, fun _ => rfl⟩
      | false => exact absurd settled.2.1 (Nat.succ_ne_zero _)
    · simp only [if_neg wanted, if_pos connected]
      exact ⟨follows_of_spindown rfl, fun _ => connected⟩
    · simp only [if_neg wanted, if_neg connected]
      refine ⟨?_, inv.spindown⟩
      intro _
      rw [Bool.not_eq_true] at wanted connected
      refine ⟨connected.trans wanted.symm, fun some => ?_⟩
      exact absurd (connected.symm.trans some) Bool.false_ne_true

theorem lose_keeps {s : Queue} (noticed : Noticed s .lose) : Inv (lose s) := by
  refine ⟨?_, fun spindown => absurd spindown Bool.false_ne_true⟩
  intro settled
  refine ⟨?_, fun connected => absurd connected Bool.false_ne_true⟩
  obtain ⟨timer, invalidations, -⟩ := settled
  -- without its handler the connection may only be lost where the next assessment is to come
  obtain handled | pending | coming | unwanted := noticed
  · rw [lose, if_pos handled] at invalidations
    exact absurd invalidations (Nat.succ_ne_zero _)
  · exact absurd (pending.symm.trans timer) (by decide)
  · simp only [lose] at invalidations
    split at invalidations
    · exact absurd invalidations (Nat.succ_ne_zero _)
    · exact absurd invalidations coming
  · exact unwanted.symm

theorem step_keeps (s : Queue) (l : Label) (t : Queue) (inv : Inv s) (noticed : Noticed s l)
    (stepped : step s l = some t) : Inv t := by
  cases l with
  | configure c =>
    obtain rfl := Option.some.inj stepped
    exact configure_keeps c inv
  | reassess =>
    obtain rfl := Option.some.inj stepped
    exact ⟨follows_of_timer rfl, inv.spindown⟩
  | fire accepted =>
    obtain ⟨-, some⟩ := Option.ite_none_right_eq_some.mp stepped
    obtain rfl := Option.some.inj some
    exact fire_keeps inv noticed
  | lose =>
    obtain ⟨-, some⟩ := Option.ite_none_right_eq_some.mp stepped
    obtain rfl := Option.some.inj some
    exact lose_keeps noticed
  | invalidate =>
    obtain ⟨-, some⟩ := Option.ite_none_left_eq_some.mp stepped
    obtain rfl := Option.some.inj some
    exact ⟨follows_of_timer rfl, inv.spindown⟩

theorem step_breaks (s : Queue) (l : Label) (t : Queue) (missed : ¬ Noticed s l)
    (stepped : step s l = some t) : ¬ Follows t := by
  intro follows
  cases l with
  | fire accepted =>
    obtain ⟨-, some⟩ := Option.ite_none_right_eq_some.mp stepped
    obtain rfl := Option.some.inj some
    simp only [Noticed, Classical.not_imp] at missed
    obtain ⟨invalidations, spindown, connected, changed, wanted, unseen⟩ := missed
    obtain ⟨seen, -⟩ | ⟨-, clear, done⟩ := fire_cases { s with timer := false } accepted
    · exact unseen seen
    · simp only [if_pos wanted, if_pos connected] at done
      rw [done] at follows
      have established := (follows ⟨rfl, invalidations, spindown⟩).2 connected
      exact absurd (changed.symm.trans established) Bool.false_ne_true
  | lose =>
    obtain ⟨-, some⟩ := Option.ite_none_right_eq_some.mp stepped
    obtain rfl := Option.some.inj some
    simp only [Noticed, not_or, Bool.not_eq_true, Bool.not_eq_false, ne_eq, Classical.not_not]
      at missed
    obtain ⟨handler, timer, invalidations, wanted⟩ := missed
    have settled : Settled (lose s) := by
      refine ⟨timer, ?_, rfl⟩
      rw [lose, if_neg (by rw [handler]; exact Bool.false_ne_true)]
      exact invalidations
    have connected : false = s.configuration.wanted := (follows settled).1
    exact absurd (connected.trans wanted) Bool.false_ne_true
  | configure c => exact missed trivial
  | reassess => exact missed trivial
  | invalidate => exact missed trivial

/-- In a run whose every step is noticed, a settled connection is there just when the
    configuration asks for one, and is from after the last change of SyncBaseURL; in any other run
    it is missing or from before the change. -/
theorem connection_follows_iff (c : Configuration) (ls : List Label) :
    Runs.Always step Follows (Queue.new c) ls ↔ Runs.Meets step Noticed (Queue.new c) ls :=
  Runs.always_iff_meets Inv (fun _ inv => inv.follows) step_keeps
    (fun s l t _ => step_breaks s l t) (inv_new c) ls

/-- A connection for statistics is not bounced when SyncBaseURL is added. -/
theorem added_url_keeps_connection :
    ¬ Runs.Always step Follows (Queue.new ⟨none, true, false⟩)
      [.fire true, .configure ⟨some "https://sync", true, false⟩, .fire true] := by
  intro always
  have follows := Runs.always_last always rfl
  exact absurd ((follows ⟨rfl, rfl, rfl⟩).2 rfl) (by decide)

end SantaSyncdQueue
