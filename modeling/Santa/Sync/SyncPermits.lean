import Mathlib.Algebra.Ring.Nat
import Santa.Library.Runs
import Santa.Sync.SyncManager

/-!
The limit on enqueued syncs. A request takes a permit of the limiter and enqueues a
block on the serial queue; the block gives the permit back when its sync is over,
however the sync went. A sync of another type than the normal one first waits two
seconds for the daemon. Syncs of the rules alone use the queue but no permits.
-/
namespace SantaSyncPermits
open SantaConfigurator SantaSyncManager

def kMaxEnqueuedSyncs : Nat := 2

inductive Block where
  | sync (id : Nat) (syncType : SNTSyncType)
  | ruleSync
  deriving DecidableEq, Repr

inductive Running where
  | updatingSettings (id : Nat)
  | preflight (id : Nat)
  | ruleSync
  deriving DecidableEq, Repr

structure System where
  syncLimiter : Nat
  syncQueue : List Block
  running : Option Running
  replies : List (Nat × SNTSyncStatusType)
  deriving DecidableEq, Repr

def System.start : System := ⟨kMaxEnqueuedSyncs, [], none, []⟩

/-- What can happen next: a request, a turn of the queue, or an answer that its block waits
    for. The status of a finished sync is any. -/
inductive Label where
  | syncType (id : Nat) (syncType : SNTSyncType)
  | ruleSyncImpl
  | dequeue
  | daemonReplied
  | daemonTimeout
  | finished (status : SNTSyncStatusType)
  deriving DecidableEq, Repr

def System.reply (s : System) (id : Nat) (status : SNTSyncStatusType) : System :=
  { s with replies := s.replies ++ [(id, status)] }

def System.startPreflight (s : System) (id : Nat) : System :=
  { s.reply id .syncStarted with running := some (.preflight id) }

def step (s : System) : Label → Option System
  | .syncType id syncType =>
      some (if s.syncLimiter = 0 then s.reply id .tooManySyncsInProgress
        else { s with
          syncLimiter := s.syncLimiter - 1
          syncQueue := s.syncQueue ++ [.sync id syncType] })
  | .ruleSyncImpl => some { s with syncQueue := s.syncQueue ++ [.ruleSync] }
  | .dequeue =>
      match s.running, s.syncQueue with
      | none, .ruleSync :: rest => some { s with syncQueue := rest, running := some .ruleSync }
      | none, .sync id syncType :: rest =>
          if syncType = .normal then
            some (System.startPreflight { s with syncQueue := rest } id)
          else some { s with syncQueue := rest, running := some (.updatingSettings id) }
      | _, _ => none
  | .daemonReplied =>
      match s.running with
      | some (.updatingSettings id) => some (s.startPreflight id)
      | _ => none
  | .daemonTimeout =>
      match s.running with
      | some (.updatingSettings id) => some { s.reply id .daemonTimeout with running := none }
      | _ => none
  | .finished status =>
      match s.running with
      | some (.preflight id) =>
          some { s.reply id status with running := none, syncLimiter := s.syncLimiter + 1 }
      | some .ruleSync => some { s with running := none }
      | _ => none

def Block.permits : Block → Nat
  | .sync _ _ => 1
  | .ruleSync => 0

def Running.permits : Running → Nat
  | .updatingSettings _ | .preflight _ => 1
  | .ruleSync => 0

def System.syncs (s : System) : Nat :=
  (s.syncQueue.map Block.permits).sum + (s.running.map Running.permits).getD 0

def Accepts (s : System) : Prop :=
  ∀ id syncType, ∃ t, step s (.syncType id syncType) = some t ∧
    t.syncQueue = s.syncQueue ++ [.sync id syncType] ∧ t.replies = s.replies

/-- The permits taken are those of the syncs queued or running, and an idle manager accepts
    a request. -/
structure Conserved (s : System) : Prop where
  balance : s.syncLimiter + s.syncs = kMaxEnqueuedSyncs
  accepts : s.syncs < kMaxEnqueuedSyncs → Accepts s

/-- A step changes the permits by what it changes the syncs, save that a time-out ends
    a sync without a permit coming back. -/
theorem step_balance {s t : System} {l : Label} (h : step s l = some t) :
    t.syncLimiter + t.syncs + (if l = .daemonTimeout then 1 else 0) = s.syncLimiter + s.syncs := by
  cases l with
  | syncType id syncType =>
    rw [← Option.some.inj h]
    by_cases none : s.syncLimiter = 0
    · simp [none, System.reply, System.syncs]
    · simp [none, System.syncs, Block.permits]
      omega
  | ruleSyncImpl =>
    rw [← Option.some.inj h]
    simp [System.syncs, Block.permits]
  | dequeue =>
    simp only [step] at h
    split at h
    · rename_i idle queue
      rw [← Option.some.inj h]
      simp [System.syncs, idle, queue, Block.permits, Running.permits]
    · rename_i idle queue
      split at h
      · rw [← Option.some.inj h]
        simp [System.syncs, System.startPreflight, System.reply, idle, queue, Block.permits,
          Running.permits]
        omega
      · rw [← Option.some.inj h]
        simp [System.syncs, idle, queue, Block.permits, Running.permits]
        omega
    · cases h
  | daemonReplied =>
    simp only [step] at h
    split at h
    · rename_i updating
      rw [← Option.some.inj h]
      simp [System.syncs, System.startPreflight, System.reply, updating, Running.permits]
    · cases h
  | daemonTimeout =>
    simp only [step] at h
    split at h
    · rename_i updating
      rw [← Option.some.inj h]
      simp [System.syncs, System.reply, updating, Running.permits]
      omega
    · cases h
  | finished status =>
    simp only [step] at h
    split at h
    · rename_i preflight
      rw [← Option.some.inj h]
      simp [System.syncs, System.reply, preflight, Running.permits]
      omega
    · rename_i rules
      rw [← Option.some.inj h]
      simp [System.syncs, rules, Running.permits]
    · cases h

theorem accepts_iff {s : System} : Accepts s ↔ 0 < s.syncLimiter := by
  constructor
  · intro accepts
    obtain ⟨t, stepped, enqueued, _⟩ := accepts 0 .normal
    by_contra spent
    have none : s.syncLimiter = 0 := by omega
    rw [← Option.some.inj stepped] at enqueued
    simp [none, System.reply] at enqueued
  · intro permit id syncType
    have some : s.syncLimiter ≠ 0 := by omega
    exact ⟨_, rfl, by simp [some], by simp [some]⟩

theorem conserved_iff {s : System} :
    Conserved s ↔ s.syncLimiter + s.syncs = kMaxEnqueuedSyncs := by
  constructor
  · exact fun conserved => conserved.balance
  · intro balance
    refine ⟨balance, ?_⟩
    intro room
    rw [accepts_iff]
    omega

/-- Permits are conserved exactly in the runs without a time-out of the daemon. -/
theorem permits_conserved_iff (ls : List Label) :
    Runs.Always step Conserved System.start ls ↔
      Runs.Meets step (fun _ l => l ≠ .daemonTimeout) System.start ls := by
  refine Runs.always_iff_meets Conserved (fun _ conserved => conserved) ?_ ?_
    (conserved_iff.mpr rfl) ls
  · intro s l t conserved answered h
    have balance := step_balance h
    rw [if_neg answered] at balance
    rw [conserved_iff] at conserved ⊢
    omega
  · intro s l t conserved timeout h after
    have balance := step_balance h
    rw [if_pos (Decidable.not_not.mp timeout)] at balance
    rw [conserved_iff] at conserved after
    omega

/-- In any run, each time-out has cost a permit for good. -/
theorem permits_lost {ls : List Label} {s : System}
    (ends : Runs.run step System.start ls = some s) :
    s.syncLimiter + s.syncs + ls.count .daemonTimeout = kMaxEnqueuedSyncs := by
  refine Runs.history_of_keep
    (fun past s => s.syncLimiter + s.syncs + past.count .daemonTimeout = kMaxEnqueuedSyncs)
    ?_ rfl ends
  intro past s l t balance h
  have change := step_balance h
  rw [List.count_append, List.count_singleton]
  simp only [beq_iff_eq]
  omega

/-- After two time-outs every request is turned away. -/
theorem two_timeouts_refuse {ls : List Label} {s : System}
    (ends : Runs.run step System.start ls = some s) (two : 2 ≤ ls.count .daemonTimeout) :
    ¬ Accepts s := by
  have lost := permits_lost ends
  rw [accepts_iff]
  simp only [kMaxEnqueuedSyncs] at lost
  omega

theorem daemon_timeout_keeps_permit :
    ¬ ∀ ls, Runs.Always step Conserved System.start ls := by
  intro always
  have idle : Runs.run step System.start [.syncType 1 .clean, .dequeue, .daemonTimeout] =
      some ⟨1, [], none, [(1, .daemonTimeout)]⟩ := rfl
  have balance := (Runs.always_last (always _) idle).balance
  simp [System.syncs, kMaxEnqueuedSyncs] at balance

end SantaSyncPermits
