import Santa.Library.Runs

/-!
The two locks of temporary Monitor Mode. A call takes `lock_`, enters the serial
`timer_queue_` with `dispatch_sync`, leaves it and releases `lock_`. The timer's
handler is on the queue when it takes `lock_`. A run begins when the saved state
has been set up, with the timer started or not.
-/
namespace SantaMonitorModeLocks

/-- `RequestMinutes` is here from the point on where it takes the lock. -/
inductive Call where
  | requestMinutes
  | cancel
  | revoke
  | secondsRemaining
  deriving DecidableEq, Repr

/-- `SecondsRemaining` takes `lock_` as a reader. -/
def Call.reads : Call → Bool
  | .secondsRemaining => true
  | _ => false

def Call.onQueue (call : Call) (started : Bool) : Bool :=
  match call with
  | .requestMinutes => true
  | .cancel => false
  | .revoke => false
  | .secondsRemaining => started

inductive Stage where
  | idle
  | wantsLock (call : Call)
  | wantsQueue (call : Call)
  | onQueue (call : Call)
  | leftQueue (call : Call)
  | handlerWantsLock
  | handlerHoldsLock
  | handlerDone
  deriving DecidableEq, Repr

structure System where
  started : Bool
  writer : Option Nat
  readers : List Nat
  queue : Option Nat
  stage : Nat → Stage

def System.start (started : Bool) : System := ⟨started, none, [], none, fun _ => .idle⟩

def System.at (s : System) (thread : Nat) (stage : Stage) : System :=
  { s with stage := fun t => if t = thread then stage else s.stage t }

inductive Label where
  | call (thread : Nat) (call : Call)
  | takeLock (thread : Nat)
  | enterQueue (thread : Nat)
  | leaveQueue (thread : Nat)
  | releaseLock (thread : Nat)
  | fire (thread : Nat)
  deriving DecidableEq, Repr

def lockExclusive (s : System) (thread : Nat) (stage : Stage) : Option System :=
  if s.writer = none ∧ s.readers = [] then
    some ({ s with writer := some thread }.at thread stage)
  else none

def lockShared (s : System) (thread : Nat) (stage : Stage) : Option System :=
  if s.writer = none then some ({ s with readers := thread :: s.readers }.at thread stage) else none

def unlockExclusive (s : System) (thread : Nat) (stage : Stage) : Option System :=
  if s.writer = some thread then some ({ s with writer := none }.at thread stage) else none

def unlockShared (s : System) (thread : Nat) (stage : Stage) : Option System :=
  if thread ∈ s.readers then
    some ({ s with readers := s.readers.erase thread }.at thread stage)
  else none

def step (s : System) : Label → Option System
  | .call t call => if s.stage t = .idle then some (s.at t (.wantsLock call)) else none
  | .takeLock t =>
      match s.stage t with
      | .wantsLock call =>
          if call.reads then lockShared s t (.wantsQueue call)
          else lockExclusive s t (.wantsQueue call)
      | .handlerWantsLock => lockExclusive s t .handlerHoldsLock
      | _ => none
  | .enterQueue t =>
      match s.stage t with
      | .wantsQueue call =>
          if s.queue = none then
            some ({ s with queue := some t, started := call.onQueue s.started }.at t (.onQueue call))
          else none
      | _ => none
  | .leaveQueue t =>
      if s.queue = some t then
        match s.stage t with
        | .onQueue call => some ({ s with queue := none }.at t (.leftQueue call))
        | .handlerDone => some ({ s with queue := none }.at t .idle)
        | _ => none
      else none
  | .releaseLock t =>
      match s.stage t with
      | .leftQueue call =>
          if call.reads then unlockShared s t .idle else unlockExclusive s t .idle
      | .handlerHoldsLock => unlockExclusive s t .handlerDone
      | _ => none
  | .fire t =>
      -- The handler stops the timer before it takes the lock.
      if s.started ∧ s.queue = none ∧ s.stage t = .idle then
        some ({ s with queue := some t, started := false }.at t .handlerWantsLock)
      else none

def HoldsLock (s : System) (t : Nat) : Prop := s.writer = some t ∨ t ∈ s.readers

def HandlerWaits (s : System) (h : Nat) : Prop :=
  s.queue = some h ∧ s.stage h = .handlerWantsLock

def CallWaits (s : System) (t : Nat) : Prop := HoldsLock s t ∧ ∃ call, s.stage t = .wantsQueue call

def Deadlock (s : System) : Prop := ∃ h t, HandlerWaits s h ∧ CallWaits s t

/-- The timer does not expire while a call is about to enter the queue, and no call takes the
    lock that the handler is about to take. -/
def Orderly (s : System) : Label → Prop
  | .fire _ => ∀ t, ¬ CallWaits s t
  | .takeLock t => (∃ call, s.stage t = .wantsLock call) → ∀ h, ¬ HandlerWaits s h
  | _ => True

@[simp] theorem at_stage (s : System) (t u : Nat) (stage : Stage) :
    (s.at t stage).stage u = if u = t then stage else s.stage u := rfl

@[simp] theorem at_writer (s : System) (t : Nat) (stage : Stage) :
    (s.at t stage).writer = s.writer := rfl

@[simp] theorem at_readers (s : System) (t : Nat) (stage : Stage) :
    (s.at t stage).readers = s.readers := rfl

@[simp] theorem at_queue (s : System) (t : Nat) (stage : Stage) :
    (s.at t stage).queue = s.queue := rfl

/-! ### What a step can do -/

structure Locked (s s' : System) (t : Nat) (stage : Stage) : Prop where
  stage : ∀ u, s'.stage u = if u = t then stage else s.stage u
  queue : s'.queue = s.queue
  holds : HoldsLock s' t
  others : ∀ u, u ≠ t → HoldsLock s' u → HoldsLock s u

theorem lockExclusive_locked {s s' : System} {t : Nat} {stage : Stage}
    (h : lockExclusive s t stage = some s') : Locked s s' t stage := by
  unfold lockExclusive at h
  split at h
  · rw [← Option.some.inj h]
    refine ⟨fun _ => rfl, rfl, .inl rfl, ?_⟩
    rintro u other (writer | reader)
    · exact absurd (Option.some.inj writer).symm other
    · exact .inr reader
  · cases h

theorem lockShared_locked {s s' : System} {t : Nat} {stage : Stage}
    (h : lockShared s t stage = some s') : Locked s s' t stage := by
  unfold lockShared at h
  split at h
  · rw [← Option.some.inj h]
    refine ⟨fun _ => rfl, rfl, .inr List.mem_cons_self, ?_⟩
    rintro u other (writer | reader)
    · exact .inl writer
    · exact .inr ((List.mem_cons.mp reader).resolve_left other)
  · cases h

structure Unlocked (s s' : System) (t : Nat) (stage : Stage) : Prop where
  stage : ∀ u, s'.stage u = if u = t then stage else s.stage u
  queue : s'.queue = s.queue
  fewer : ∀ u, HoldsLock s' u → HoldsLock s u
  others : ∀ u, u ≠ t → HoldsLock s u → HoldsLock s' u

theorem unlockExclusive_unlocked {s s' : System} {t : Nat} {stage : Stage}
    (h : unlockExclusive s t stage = some s') : Unlocked s s' t stage := by
  unfold unlockExclusive at h
  split at h
  · rename_i mine
    rw [← Option.some.inj h]
    refine ⟨fun _ => rfl, rfl, ?_, ?_⟩
    · rintro u (writer | reader)
      · cases writer
      · exact .inr reader
    · rintro u other (writer | reader)
      · exact absurd (Option.some.inj (writer.symm.trans mine)) other
      · exact .inr reader
  · cases h

theorem unlockShared_unlocked {s s' : System} {t : Nat} {stage : Stage}
    (h : unlockShared s t stage = some s') : Unlocked s s' t stage := by
  unfold unlockShared at h
  split at h
  · rw [← Option.some.inj h]
    refine ⟨fun _ => rfl, rfl, ?_, ?_⟩
    · rintro u (writer | reader)
      · exact .inl writer
      · exact .inr (List.mem_of_mem_erase reader)
    · rintro u other (writer | reader)
      · exact .inl writer
      · exact .inr ((List.mem_erase_of_ne other).mpr reader)
  · cases h

theorem takeLock_cases {s s' : System} {t : Nat} (h : step s (.takeLock t) = some s') :
    (∃ call, s.stage t = .wantsLock call ∧ Locked s s' t (.wantsQueue call)) ∨
      (s.stage t = .handlerWantsLock ∧ Locked s s' t .handlerHoldsLock) := by
  simp only [step] at h
  split at h
  · rename_i call wants
    refine .inl ⟨call, wants, ?_⟩
    split at h
    · exact lockShared_locked h
    · exact lockExclusive_locked h
  · rename_i wants
    exact .inr ⟨wants, lockExclusive_locked h⟩
  · cases h

theorem releaseLock_cases {s s' : System} {t : Nat} (h : step s (.releaseLock t) = some s') :
    ((∃ call, s.stage t = .leftQueue call) ∧ Unlocked s s' t .idle) ∨
      (s.stage t = .handlerHoldsLock ∧ Unlocked s s' t .handlerDone) := by
  simp only [step] at h
  split at h
  · rename_i call left
    refine .inl ⟨⟨call, left⟩, ?_⟩
    split at h
    · exact unlockShared_unlocked h
    · exact unlockExclusive_unlocked h
  · rename_i holds
    exact .inr ⟨holds, unlockExclusive_unlocked h⟩
  · cases h

/-! ### Deadlocks -/

theorem deadlock_step {s s' : System} {l : Label} (free : ¬ Deadlock s) (orderly : Orderly s l)
    (h : step s l = some s') : ¬ Deadlock s' := by
  rintro ⟨u, v, ⟨queue, wants⟩, holds, call, waits⟩
  cases l with
  | call t _ =>
    simp only [step] at h
    split at h
    · rw [← Option.some.inj h] at queue wants holds waits
      simp only [at_stage] at wants waits
      split at wants
      · cases wants
      · split at waits
        · cases waits
        · exact free ⟨u, v, ⟨queue, wants⟩, holds, call, waits⟩
    · cases h
  | takeLock t =>
    rcases takeLock_cases h with ⟨taken, before, locked⟩ | ⟨before, locked⟩
    · rw [locked.queue] at queue
      rw [locked.stage] at wants waits
      split at wants
      · cases wants
      · split at waits
        · exact orderly ⟨taken, before⟩ u ⟨queue, wants⟩
        · rename_i other
          exact free ⟨u, v, ⟨queue, wants⟩, locked.others v other holds, call, waits⟩
    · rw [locked.queue] at queue
      rw [locked.stage] at wants waits
      split at wants
      · cases wants
      · split at waits
        · cases waits
        · rename_i other
          exact free ⟨u, v, ⟨queue, wants⟩, locked.others v other holds, call, waits⟩
  | enterQueue t =>
    simp only [step] at h
    split at h
    · split at h
      · rw [← Option.some.inj h] at queue wants
        have same : t = u := Option.some.inj queue
        simp only [at_stage, same, if_true] at wants
        cases wants
      · cases h
    · cases h
  | leaveQueue t =>
    simp only [step] at h
    split at h
    · split at h
      · rw [← Option.some.inj h] at queue
        cases queue
      · rw [← Option.some.inj h] at queue
        cases queue
      · cases h
    · cases h
  | releaseLock t =>
    have unlocked : ∃ stage, (stage = .idle ∨ stage = .handlerDone) ∧ Unlocked s s' t stage := by
      rcases releaseLock_cases h with ⟨-, unlocked⟩ | ⟨-, unlocked⟩
      · exact ⟨_, .inl rfl, unlocked⟩
      · exact ⟨_, .inr rfl, unlocked⟩
    obtain ⟨stage, which, unlocked⟩ := unlocked
    rw [unlocked.queue] at queue
    rw [unlocked.stage] at wants waits
    split at wants
    · rw [wants] at which
      rcases which with same | same <;> cases same
    · split at waits
      · rw [waits] at which
        rcases which with same | same <;> cases same
      · exact free ⟨u, v, ⟨queue, wants⟩, unlocked.fewer v holds, call, waits⟩
  | fire t =>
    simp only [step] at h
    split at h
    · rw [← Option.some.inj h] at holds waits
      simp only [at_stage] at waits
      split at waits
      · cases waits
      · exact orderly v ⟨holds, call, waits⟩
    · cases h

theorem deadlock_of_disorder {s s' : System} {l : Label} (disorder : ¬ Orderly s l)
    (h : step s l = some s') : Deadlock s' := by
  cases l with
  | fire t =>
    simp only [Orderly, Classical.not_forall, Classical.not_not] at disorder
    obtain ⟨v, holds, call, waits⟩ := disorder
    simp only [step] at h
    split at h
    · rename_i ready
      rw [← Option.some.inj h]
      refine ⟨t, v, ⟨rfl, if_pos rfl⟩, holds, call, ?_⟩
      rw [at_stage, if_neg]
      · exact waits
      · rintro rfl
        rw [ready.2.2] at waits
        cases waits
    · cases h
  | takeLock t =>
    simp only [Orderly, Classical.not_forall, Classical.not_not] at disorder
    obtain ⟨⟨call, wants⟩, u, queue, waits⟩ := disorder
    rcases takeLock_cases h with ⟨call', before, locked⟩ | ⟨before, -⟩
    · refine ⟨u, t, ⟨locked.queue.trans queue, ?_⟩, locked.holds, call', ?_⟩
      · rw [locked.stage, if_neg]
        · exact waits
        · rintro rfl
          rw [waits] at wants
          cases wants
      · rw [locked.stage, if_pos rfl]
    · rw [wants] at before
      cases before
  | call t call => exact absurd trivial disorder
  | enterQueue t => exact absurd trivial disorder
  | leaveQueue t => exact absurd trivial disorder
  | releaseLock t => exact absurd trivial disorder

/-- No deadlock is reached exactly in the orderly runs. -/
theorem no_deadlock_iff (started : Bool) (ls : List Label) :
    Runs.Always step (fun s => ¬ Deadlock s) (.start started) ls ↔
      Runs.Meets step Orderly (.start started) ls := by
  refine Runs.always_iff_meets (fun s => ¬ Deadlock s) (fun _ free => free)
    (fun _ _ _ => deadlock_step) ?_ ?_ ls
  · intro s l t _ disorder h free
    exact free (deadlock_of_disorder disorder h)
  · rintro ⟨u, v, ⟨queue, -⟩, -⟩
    cases queue

/-- The timer expires while a cancellation holds the lock. -/
theorem cancel_meets_expiry :
    ¬ Runs.Always step (fun s => ¬ Deadlock s) (.start true)
      [.call 1 .cancel, .takeLock 1, .fire 2] := by
  intro always
  refine ((always.2 _ rfl).2 _ rfl).2 _ rfl |> Runs.always_head |> fun free => free ?_
  exact ⟨2, 1, ⟨rfl, rfl⟩, .inl rfl, .cancel, rfl⟩

/-! ### A deadlock is for ever -/

def Stuck (h t : Nat) (s : System) : Prop := HandlerWaits s h ∧ CallWaits s t

theorem stuck_of_moved {h t u : Nat} {s s' : System} {stage : Stage} (stuck : Stuck h t s)
    (not_handler : s.stage u ≠ .handlerWantsLock) (not_call : ∀ call, s.stage u ≠ .wantsQueue call)
    (queue : s'.queue = s.queue) (moved : ∀ v, s'.stage v = if v = u then stage else s.stage v)
    (holds : u ≠ t → HoldsLock s t → HoldsLock s' t) : Stuck h t s' := by
  obtain ⟨⟨here, wants⟩, held, call, waits⟩ := stuck
  have not_h : h ≠ u := by
    rintro rfl
    exact not_handler wants
  have not_t : t ≠ u := by
    rintro rfl
    exact not_call call waits
  refine ⟨⟨queue.trans here, ?_⟩, holds not_t.symm held, call, ?_⟩
  · rw [moved, if_neg not_h, wants]
  · rw [moved, if_neg not_t, waits]

theorem lockExclusive_held {s : System} {t u : Nat} (held : HoldsLock s t) (stage : Stage) :
    lockExclusive s u stage = none := by
  apply if_neg
  rintro ⟨no_writer, no_readers⟩
  rcases held with writer | reader
  · rw [no_writer] at writer
    cases writer
  · rw [no_readers] at reader
    cases reader

theorem stuck_step {h t : Nat} {s s' : System} {l : Label} (stuck : Stuck h t s)
    (next : step s l = some s') : Stuck h t s' := by
  obtain ⟨⟨queue, wants⟩, held, call, waits⟩ := stuck
  have stuck : Stuck h t s := ⟨⟨queue, wants⟩, held, call, waits⟩
  cases l with
  | call u _ =>
    simp only [step] at next
    split at next
    · rename_i idle
      rw [← Option.some.inj next]
      exact stuck_of_moved stuck (by rw [idle]; nofun) (by rw [idle]; nofun) rfl (fun _ => rfl)
        fun _ held => held
    · cases next
  | takeLock u =>
    simp only [step] at next
    split at next
    · rename_i wanted
      split at next
      · obtain ⟨moved, same, -, -⟩ := lockShared_locked next
        refine stuck_of_moved stuck (by rw [wanted]; nofun) (by rw [wanted]; nofun) same moved ?_
        intro _ held
        unfold lockShared at next
        split at next
        · rw [← Option.some.inj next]
          exact held.imp id fun reader => List.mem_cons_of_mem _ reader
        · cases next
      · rw [lockExclusive_held held] at next
        cases next
    · rw [lockExclusive_held held] at next
      cases next
    · cases next
  | enterQueue u =>
    simp only [step] at next
    split at next
    · rw [if_neg (by rw [queue]; nofun)] at next
      cases next
    · cases next
  | leaveQueue u =>
    simp only [step] at next
    split at next
    · rename_i mine
      obtain rfl : h = u := Option.some.inj (queue.symm.trans mine)
      rw [wants] at next
      cases next
    · cases next
  | releaseLock u =>
    rcases releaseLock_cases next with ⟨⟨call', left⟩, unlocked⟩ | ⟨holds, unlocked⟩
    · exact stuck_of_moved stuck (by rw [left]; nofun) (by rw [left]; nofun) unlocked.queue
        unlocked.stage fun other => unlocked.others t other.symm
    · exact stuck_of_moved stuck (by rw [holds]; nofun) (by rw [holds]; nofun) unlocked.queue
        unlocked.stage fun other => unlocked.others t other.symm
  | fire u =>
    simp only [step] at next
    rw [if_neg (by rw [queue]; rintro ⟨-, free, -⟩; cases free)] at next
    cases next

/-- Neither of the two ever goes on. -/
theorem stuck_for_ever {h t : Nat} {s : System} (stuck : Stuck h t s) (ls : List Label) :
    Runs.Always step (Stuck h t) s ls :=
  Runs.always_of_keep (Stuck h t) (fun _ _ _ => stuck_step) stuck ls

end SantaMonitorModeLocks
