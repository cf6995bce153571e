import Santa.Library.Runs

/-!
Answering before the deadline. Every message that a client may have to think
about is given to two blocks: the handler block, which answers inside the
message handler and takes the processing semaphore once that has returned, and
the deadline block, which takes the semaphore when the budget has run out and
answers then. The semaphore is taken by one of them only. The answers are
sent outside it, and this file says which orders of the steps send just one.
-/
namespace SantaDeadlines
open Runs

/-! ### The budget -/

/-- What the budget of a message is computed from. `defaultBudget` is the product with the
    client's fraction, a floating-point number; the timebase is the machine's. -/
structure Client where
  defaultBudget : Int → Int
  minAllowedHeadroom : Int
  maxAllowedHeadroom : Int
  numer : UInt64
  denom : UInt64

def MachTimeToNanos (client : Client) (machTime : UInt64) : UInt64 :=
  machTime * client.numer / client.denom

def nanosUntilDeadline (client : Client) (deadline currentTime : UInt64) : Int :=
  (MachTimeToNanos client (deadline - currentTime)).toInt64.toInt

def clamp (value low high : Int) : Int :=
  if value < low then low else if high < value then high else value

def computeBudgetForDeadline (client : Client) (deadline currentTime : UInt64) : Int :=
  let nanos := nanosUntilDeadline client deadline currentTime
  let budget := client.defaultBudget nanos
  let headroom := nanos - budget
  nanos - clamp headroom client.minAllowedHeadroom client.maxAllowedHeadroom

theorem clamp_mem (value : Int) {low high : Int} (ordered : low ≤ high) :
    low ≤ clamp value low high ∧ clamp value low high ≤ high := by
  unfold clamp
  split
  · exact ⟨Int.le_refl _, ordered⟩
  · split <;> omega

theorem budget_headroom (client : Client) (deadline currentTime : UInt64)
    (ordered : client.minAllowedHeadroom ≤ client.maxAllowedHeadroom) :
    nanosUntilDeadline client deadline currentTime - client.maxAllowedHeadroom ≤
        computeBudgetForDeadline client deadline currentTime ∧
      computeBudgetForDeadline client deadline currentTime ≤
        nanosUntilDeadline client deadline currentTime - client.minAllowedHeadroom := by
  obtain ⟨low, high⟩ := clamp_mem (nanosUntilDeadline client deadline currentTime -
    client.defaultBudget (nanosUntilDeadline client deadline currentTime)) ordered
  simp only [computeBudgetForDeadline]
  omega

/-! ### The two blocks -/

inductive AuthResult where
  | allow
  | deny
deriving DecidableEq

inductive Block where
  | handler
  | deadline
deriving DecidableEq

structure Response where
  sender : Block
  result : AuthResult
  cacheable : Bool
deriving DecidableEq

/-- Where the handler block is: queued or in the message handler, past its answer, waiting for
    the deadline block, or at its end. -/
inductive HandlerAt where
  | running
  | answered
  | waiting
  | done
deriving DecidableEq

/-- Where the deadline block is: not started, holding the semaphore, past its answer, or at its
    end. -/
inductive DeadlineAt where
  | scheduled
  | responding
  | signalling
  | done
deriving DecidableEq

structure State where
  handler : HandlerAt
  deadline : DeadlineAt
  processingSema : Nat
  deadlineExpiredSema : Nat
  elapsed : Nat
  responses : List Response
deriving DecidableEq

def scheduled : State where
  handler := .running
  deadline := .scheduled
  processingSema := 1
  deadlineExpiredSema := 0
  elapsed := 0
  responses := []

inductive Label where
  | passes (nanos : Nat)
  | handlerAnswers (result : AuthResult) (cacheable : Bool)
  | handlerReturns
  | handlerWakes
  | budgetExpires
  | deadlineResponds (failClosed : Bool)
  | deadlineSignals
deriving DecidableEq

def expiredResult (failClosed : Bool) : AuthResult := if failClosed then .deny else .allow

/-- One step of either block. A wait with `DISPATCH_TIME_NOW` takes the semaphore or gives up;
    one with `DISPATCH_TIME_FOREVER` is a step only when the semaphore can be taken. -/
def step (budget : Int) (σ : State) : Label → Option State
  | .passes nanos => some { σ with elapsed := σ.elapsed + nanos }
  | .handlerAnswers result cacheable =>
      if σ.handler = .running then
        some { σ with
          handler := .answered
          responses := σ.responses ++ [⟨.handler, result, cacheable⟩] }
      else none
  | .handlerReturns =>
      if σ.handler = .answered then
        if 0 < σ.processingSema then
          some { σ with handler := .done, processingSema := σ.processingSema - 1 }
        else some { σ with handler := .waiting }
      else none
  | .handlerWakes =>
      if σ.handler = .waiting ∧ 0 < σ.deadlineExpiredSema then
        some { σ with handler := .done, deadlineExpiredSema := σ.deadlineExpiredSema - 1 }
      else none
  | .budgetExpires =>
      if σ.deadline = .scheduled ∧ budget ≤ σ.elapsed then
        if 0 < σ.processingSema then
          some { σ with deadline := .responding, processingSema := σ.processingSema - 1 }
        else some { σ with deadline := .done }
      else none
  | .deadlineResponds failClosed =>
      if σ.deadline = .responding then
        some { σ with
          deadline := .signalling
          responses := σ.responses ++ [⟨.deadline, expiredResult failClosed, false⟩] }
      else none
  | .deadlineSignals =>
      if σ.deadline = .signalling then
        some { σ with
          deadline := .done
          deadlineExpiredSema := σ.deadlineExpiredSema + 1 }
      else none

def Finished (σ : State) : Prop := σ.handler = .done ∧ σ.deadline = .done

instance : DecidablePred Finished := fun _ => inferInstanceAs (Decidable (_ ∧ _))

/-! ### Who took the semaphore -/

structure Undecided (σ : State) : Prop where
  free : σ.processingSema = 1
  scheduled : σ.deadline = .scheduled
  unsignalled : σ.deadlineExpiredSema = 0
  sent : (σ.handler = .running ∧ σ.responses.length = 0) ∨
    (σ.handler = .answered ∧ σ.responses.length = 1)

structure HandlerTook (σ : State) : Prop where
  taken : σ.processingSema = 0
  done : σ.handler = .done
  idle : σ.deadline = .scheduled ∨ σ.deadline = .done
  sent : σ.responses.length = 1

def handlerSent (σ : State) : Nat := if σ.handler = .running then 0 else 1
def deadlineSent (σ : State) : Nat := if σ.deadline = .responding then 0 else 1
def handlerWoken (σ : State) : Nat := if σ.handler = .done then 1 else 0
def deadlineSignalled (σ : State) : Nat := if σ.deadline = .done then 1 else 0

/-- The handler still answers when its message handler comes to that, before or after the
    deadline block does. -/
structure DeadlineTook (σ : State) : Prop where
  taken : σ.processingSema = 0
  started : σ.deadline ≠ .scheduled
  sent : σ.responses.length = handlerSent σ + deadlineSent σ
  signalled : σ.deadlineExpiredSema + handlerWoken σ = deadlineSignalled σ

theorem scheduled_undecided : Undecided scheduled where
  free := rfl
  scheduled := rfl
  unsignalled := rfl
  sent := .inl ⟨rfl, rfl⟩

theorem undecided_step {budget : Int} {σ τ : State} {l : Label} (open_ : Undecided σ)
    (first : step budget σ l = some τ) :
    (l ≠ .budgetExpires ∧ (Undecided τ ∨ HandlerTook τ)) ∨
      (l = .budgetExpires ∧ τ.deadline = .responding ∧ DeadlineTook τ) := by
  obtain ⟨free, idle, unsignalled, sent⟩ := open_
  cases l with
  | passes nanos =>
    simp only [step, Option.some.injEq] at first
    subst first
    exact .inl ⟨by simp, .inl ⟨free, idle, unsignalled, sent⟩⟩
  | handlerAnswers result cacheable =>
    simp only [step] at first
    split at first
    · rename_i running
      have none : σ.responses.length = 0 := by simpa [running] using sent
      cases first
      exact .inl ⟨by simp, .inl ⟨free, idle, unsignalled, .inr ⟨rfl, by simp [none]⟩⟩⟩
    · cases first
  | handlerReturns =>
    simp only [step, free, Nat.lt_add_one, if_true] at first
    split at first
    · rename_i answered
      have one : σ.responses.length = 1 := by simpa [answered] using sent
      cases first
      exact .inl ⟨by simp, .inr ⟨rfl, rfl, .inl idle, one⟩⟩
    · cases first
  | handlerWakes => simp [step, unsignalled] at first
  | budgetExpires =>
    simp only [step, idle, free, Nat.lt_add_one, if_true, true_and] at first
    split at first
    · cases first
      refine .inr ⟨rfl, rfl, rfl, by simp, ?_, ?_⟩
      · rcases sent with ⟨running, none⟩ | ⟨answered, one⟩
        · simp [handlerSent, deadlineSent, running, none]
        · simp [handlerSent, deadlineSent, answered, one]
      · rcases sent with ⟨running, _⟩ | ⟨answered, _⟩
        · simp [handlerWoken, deadlineSignalled, unsignalled, running]
        · simp [handlerWoken, deadlineSignalled, unsignalled, answered]
    · cases first
  | deadlineResponds failClosed => simp [step, idle] at first
  | deadlineSignals => simp [step, idle] at first

theorem handlerTook_step {budget : Int} {σ τ : State} {l : Label} (took : HandlerTook σ)
    (first : step budget σ l = some τ) : HandlerTook τ := by
  obtain ⟨taken, done, idle, sent⟩ := took
  cases l with
  | passes nanos =>
    simp only [step, Option.some.injEq] at first
    subst first
    exact ⟨taken, done, idle, sent⟩
  | handlerAnswers result cacheable => simp [step, done] at first
  | handlerReturns => simp [step, done] at first
  | handlerWakes => simp [step, done] at first
  | budgetExpires =>
    simp only [step, taken, Nat.lt_irrefl, if_false] at first
    split at first
    · cases first
      exact ⟨rfl, done, .inr rfl, sent⟩
    · cases first
  | deadlineResponds failClosed => rcases idle with idle | idle <;> simp [step, idle] at first
  | deadlineSignals => rcases idle with idle | idle <;> simp [step, idle] at first

theorem deadlineTook_step {budget : Int} {σ τ : State} {l : Label} (took : DeadlineTook σ)
    (first : step budget σ l = some τ) : DeadlineTook τ := by
  obtain ⟨taken, started, sent, signalled⟩ := took
  cases l with
  | passes nanos =>
    simp only [step, Option.some.injEq] at first
    subst first
    exact ⟨taken, started, sent, signalled⟩
  | handlerAnswers result cacheable =>
    simp only [step] at first
    split at first
    · rename_i running
      cases first
      simp only [handlerSent, handlerWoken, running, if_true] at sent signalled
      refine ⟨taken, started, ?_, ?_⟩
      · simp only [List.length_append, List.length_singleton, sent, handlerSent, deadlineSent]
        simp [Nat.add_comm]
      · simpa [handlerWoken, deadlineSignalled] using signalled
    · cases first
  | handlerReturns =>
    simp only [step, taken, Nat.lt_irrefl, if_false] at first
    split at first
    · rename_i answered
      cases first
      refine ⟨rfl, started, ?_, ?_⟩
      · simpa [handlerSent, deadlineSent, answered] using sent
      · simpa [handlerWoken, deadlineSignalled, answered] using signalled
    · cases first
  | handlerWakes =>
    simp only [step] at first
    split at first
    · rename_i woken
      cases first
      refine ⟨taken, started, ?_, ?_⟩
      · simpa [handlerSent, deadlineSent, woken.1] using sent
      · simp only [handlerWoken, deadlineSignalled, woken.1] at signalled ⊢
        have := woken.2
        simp at signalled ⊢
        omega
    · cases first
  | budgetExpires => simp [step, started] at first
  | deadlineResponds failClosed =>
    simp only [step] at first
    split at first
    · rename_i responding
      cases first
      refine ⟨taken, by simp, ?_, ?_⟩
      · simp only [List.length_append, List.length_singleton, sent]
        simp [handlerSent, deadlineSent, responding]
      · simpa [handlerWoken, deadlineSignalled, responding] using signalled
    · cases first
  | deadlineSignals =>
    simp only [step] at first
    split at first
    · rename_i signalling
      cases first
      refine ⟨taken, by simp, ?_, ?_⟩
      · simpa [handlerSent, deadlineSent, signalling] using sent
      · simp only [handlerWoken, deadlineSignalled, signalling] at signalled ⊢
        simp at signalled
        simp [signalled]
    · cases first

/-! ### Whole runs -/

def HandlerFirst (σ : State) (l : Label) : Prop := l = .budgetExpires → σ.handler = .done

theorem handlerTook_run {budget : Int} {σ τ : State} {ls : List Label} (took : HandlerTook σ)
    (ends : run (step budget) σ ls = some τ) : HandlerTook τ :=
  always_last (always_of_keep HandlerTook
    (fun _ _ _ holds next => handlerTook_step holds next) took ls) ends

theorem handlerTook_meets {budget : Int} {σ : State} (took : HandlerTook σ) (ls : List Label) :
    Meets (step budget) HandlerFirst σ ls :=
  meets_of_meets (fun _ _ holds _ _ => holds.done)
    (fun _ _ _ holds _ next => handlerTook_step holds next) took
    (meets_true (step budget) σ ls)

/-- A run from the start sends one answer or two, depending on whether the budget expired before
    the handler block had come back from its message handler. -/
theorem undecided_run {budget : Int} {σ τ : State} {ls : List Label} (open_ : Undecided σ)
    (ends : run (step budget) σ ls = some τ) :
    (Meets (step budget) HandlerFirst σ ls ∧ (Undecided τ ∨ HandlerTook τ)) ∨
      (¬ Meets (step budget) HandlerFirst σ ls ∧ DeadlineTook τ) := by
  induction ls generalizing σ with
  | nil =>
    simp only [run, Option.some.injEq] at ends
    subst ends
    exact .inl ⟨trivial, .inl open_⟩
  | cons l ls ih =>
    simp only [run, Option.bind_eq_some_iff] at ends
    obtain ⟨m, first, rest⟩ := ends
    rcases undecided_step open_ first with ⟨other, stays | took⟩ | ⟨expires, _, took⟩
    · have met : HandlerFirst σ l := fun same => absurd same other
      rw [← meets_cons first]
      rcases ih stays rest with ⟨meets, decided⟩ | ⟨fails, decided⟩
      · exact .inl ⟨⟨met, meets⟩, decided⟩
      · exact .inr ⟨fun both => fails both.2, decided⟩
    · have met : HandlerFirst σ l := fun same => absurd same other
      rw [← meets_cons first]
      exact .inl ⟨⟨met, handlerTook_meets took ls⟩, .inr (handlerTook_run took rest)⟩
    · rw [← meets_cons first]
      refine .inr ⟨?_, always_last (always_of_keep DeadlineTook
        (fun _ _ _ holds next => deadlineTook_step holds next) took ls) rest⟩
      rintro ⟨met, _⟩
      have answered : σ.handler = .done := met expires
      rcases open_.sent with ⟨running, _⟩ | ⟨before, _⟩
      · simp [running] at answered
      · simp [before] at answered

theorem responses_kept {budget : Int} {σ τ : State} {l : Label} {response : Response}
    (first : step budget σ l = some τ) (sent : response ∈ σ.responses) :
    response ∈ τ.responses := by
  cases l <;> simp only [step, Option.some.injEq] at first
  case passes nanos => exact first ▸ sent
  case handlerAnswers result cacheable =>
    split at first <;> cases first
    exact List.mem_append_left _ sent
  case handlerReturns =>
    split at first
    · split at first <;> cases first <;> exact sent
    · cases first
  case handlerWakes =>
    split at first <;> cases first
    exact sent
  case budgetExpires =>
    split at first
    · split at first <;> cases first <;> exact sent
    · cases first
  case deadlineResponds failClosed =>
    split at first <;> cases first
    exact List.mem_append_left _ sent
  case deadlineSignals =>
    split at first <;> cases first
    exact sent

theorem responding_step {budget : Int} {σ τ : State} {l : Label}
    (responding : σ.deadline = .responding) (first : step budget σ l = some τ) :
    τ.deadline = .responding ∨ ∃ failClosed, l = .deadlineResponds failClosed ∧
      ⟨.deadline, expiredResult failClosed, false⟩ ∈ τ.responses := by
  cases l <;> simp only [step, Option.some.injEq, responding] at first
  case passes nanos =>
    subst first
    exact .inl rfl
  case handlerAnswers result cacheable =>
    split at first <;> cases first
    exact .inl rfl
  case handlerReturns =>
    split at first
    · split at first <;> cases first <;> exact .inl rfl
    · cases first
  case handlerWakes =>
    split at first <;> cases first
    exact .inl rfl
  case budgetExpires => simp at first
  case deadlineResponds failClosed =>
    simp only [if_true] at first
    cases first
    exact .inr ⟨failClosed, rfl, List.mem_append_right _ List.mem_cons_self⟩
  case deadlineSignals => simp at first

theorem responding_run {budget : Int} {σ τ : State} {ls : List Label}
    (responding : σ.deadline = .responding) (ends : run (step budget) σ ls = some τ)
    (done : τ.deadline = .done) :
    ∃ failClosed, .deadlineResponds failClosed ∈ ls ∧
      ⟨.deadline, expiredResult failClosed, false⟩ ∈ τ.responses := by
  let answers (past : List Label) (s : State) : Prop := s.deadline = .responding ∨
    ∃ failClosed, .deadlineResponds failClosed ∈ past ∧
      ⟨.deadline, expiredResult failClosed, false⟩ ∈ s.responses
  have keep : ∀ past s l t, answers past s → step budget s l = some t →
      answers (past ++ [l]) t := by
    rintro past s l t (pending | ⟨failClosed, label, sent⟩) first
    · rcases responding_step pending first with still | ⟨failClosed, same, sent⟩
      · exact .inl still
      · exact .inr ⟨failClosed, List.mem_append_right _ (same ▸ List.mem_cons_self), sent⟩
    · exact .inr ⟨failClosed, List.mem_append_left _ label, responses_kept first sent⟩
  rcases history_of_keep answers keep (.inl responding) ends with pending | answered
  · rw [done] at pending
    cases pending
  · exact answered

/-- One answer, and that of the deadline block when the handler has none yet as the budget
    expires. -/
structure AnsweredOnce (budget : Int) (ls : List Label) (last : State) : Prop where
  once : last.responses.length = 1
  expired : ∀ before after σ, ls = before ++ .budgetExpires :: after →
    run (step budget) scheduled before = some σ → σ.handler = .running →
    ∃ failClosed, .deadlineResponds failClosed ∈ after ∧
      ⟨.deadline, expiredResult failClosed, false⟩ ∈ last.responses

theorem run_append {budget : Int} {σ τ : State} {before after : List Label}
    (ends : run (step budget) σ (before ++ after) = some τ) :
    ∃ m, run (step budget) σ before = some m ∧ run (step budget) m after = some τ := by
  rw [← run_eq_foldlM, List.foldlM_append, Option.bind_eq_bind, Option.bind_eq_some_iff] at ends
  obtain ⟨m, first, rest⟩ := ends
  exact ⟨m, run_eq_foldlM _ _ before ▸ first, run_eq_foldlM _ _ after ▸ rest⟩

/-- The second half holds in every order: a handler without an answer does not have the
    semaphore. -/
theorem expired_answers {budget : Int} {before after : List Label} {σ last : State}
    (ends : run (step budget) scheduled (before ++ .budgetExpires :: after) = some last)
    (done : last.deadline = .done) (reached : run (step budget) scheduled before = some σ)
    (running : σ.handler = .running) :
    ∃ failClosed, .deadlineResponds failClosed ∈ after ∧
      ⟨.deadline, expiredResult failClosed, false⟩ ∈ last.responses := by
  obtain ⟨m, first, rest⟩ := run_append ends
  rw [reached, Option.some.injEq] at first
  subst first
  simp only [run, Option.bind_eq_some_iff] at rest
  obtain ⟨τ, expires, rest⟩ := rest
  rcases undecided_run scheduled_undecided reached with ⟨_, open_ | took⟩ | ⟨_, took⟩
  · rcases undecided_step open_ expires with ⟨other, _⟩ | ⟨_, responding, _⟩
    · exact absurd rfl other
    · exact responding_run responding rest done
  · rw [took.done] at running
    cases running
  · simp [step, took.started] at expires

/-! ### Neither block waits for ever -/

def handlerLeft : HandlerAt → Nat
  | .running => 3
  | .answered => 2
  | .waiting => 1
  | .done => 0

def deadlineLeft : DeadlineAt → Nat
  | .scheduled => 3
  | .responding => 2
  | .signalling => 1
  | .done => 0

def stepsLeft (σ : State) : Nat := handlerLeft σ.handler + deadlineLeft σ.deadline

theorem waiting_signalled {σ : State} (phase : Undecided σ ∨ HandlerTook σ ∨ DeadlineTook σ)
    (waiting : σ.handler = .waiting) (done : σ.deadline = .done) : σ.deadlineExpiredSema = 1 := by
  rcases phase with open_ | took | took
  · rcases open_.sent with ⟨running, _⟩ | ⟨answered, _⟩
    · simp [running] at waiting
    · simp [answered] at waiting
  · simp [took.done] at waiting
  · simpa [handlerWoken, deadlineSignalled, waiting, done] using took.signalled

theorem not_stuck {budget : Int} {σ : State} (due : budget ≤ σ.elapsed)
    (phase : Undecided σ ∨ HandlerTook σ ∨ DeadlineTook σ) (unfinished : ¬ Finished σ) :
    ∃ l τ, step budget σ l = some τ ∧ stepsLeft τ < stepsLeft σ ∧ budget ≤ τ.elapsed := by
  have deadlineGoes (still : σ.deadline ≠ .done) :
      ∃ l τ, step budget σ l = some τ ∧ stepsLeft τ < stepsLeft σ ∧ budget ≤ τ.elapsed := by
    cases at_ : σ.deadline with
    | scheduled =>
      by_cases free : 0 < σ.processingSema
      · exact ⟨.budgetExpires, _, (if_pos ⟨at_, due⟩).trans (if_pos free),
          by simp [stepsLeft, deadlineLeft, at_], due⟩
      · exact ⟨.budgetExpires, _, (if_pos ⟨at_, due⟩).trans (if_neg free),
          by simp [stepsLeft, deadlineLeft, at_], due⟩
    | responding =>
      exact ⟨.deadlineResponds false, _, if_pos at_,
        by simp [stepsLeft, deadlineLeft, at_], due⟩
    | signalling =>
      exact ⟨.deadlineSignals, _, if_pos at_,
        by simp [stepsLeft, deadlineLeft, at_], due⟩
    | done => exact absurd at_ still
  cases at_ : σ.handler with
  | running =>
    exact ⟨.handlerAnswers .allow true, _, if_pos at_,
      by simp [stepsLeft, handlerLeft, at_], due⟩
  | answered =>
    by_cases free : 0 < σ.processingSema
    · exact ⟨.handlerReturns, _, (if_pos at_).trans (if_pos free),
        by simp [stepsLeft, handlerLeft, at_], due⟩
    · exact ⟨.handlerReturns, _, (if_pos at_).trans (if_neg free),
        by simp [stepsLeft, handlerLeft, at_], due⟩
  | waiting =>
    by_cases done : σ.deadline = .done
    · have signalled := waiting_signalled phase at_ done
      exact ⟨.handlerWakes, _, if_pos ⟨at_, by omega⟩,
        by simp [stepsLeft, handlerLeft, at_], due⟩
    · exact deadlineGoes done
  | done => exact deadlineGoes fun done => unfinished ⟨at_, done⟩

theorem phase_step {budget : Int} {σ τ : State} {l : Label}
    (phase : Undecided σ ∨ HandlerTook σ ∨ DeadlineTook σ) (first : step budget σ l = some τ) :
    Undecided τ ∨ HandlerTook τ ∨ DeadlineTook τ := by
  rcases phase with open_ | took | took
  · rcases undecided_step open_ first with ⟨_, stays | took⟩ | ⟨_, _, took⟩
    · exact .inl stays
    · exact .inr (.inl took)
    · exact .inr (.inr took)
  · exact .inr (.inl (handlerTook_step took first))
  · exact .inr (.inr (deadlineTook_step took first))

theorem finishes_when_due {budget : Int} (left : Nat) {σ : State} (enough : stepsLeft σ ≤ left)
    (due : budget ≤ σ.elapsed) (phase : Undecided σ ∨ HandlerTook σ ∨ DeadlineTook σ) :
    ∃ ls τ, run (step budget) σ ls = some τ ∧ Finished τ := by
  induction left generalizing σ with
  | zero =>
    refine ⟨[], σ, rfl, ?_⟩
    by_cases finished : Finished σ
    · exact finished
    · obtain ⟨_, _, _, less, _⟩ := not_stuck due phase finished
      omega
  | succ left ih =>
    by_cases finished : Finished σ
    · exact ⟨[], σ, rfl, finished⟩
    · obtain ⟨l, τ, first, less, due⟩ := not_stuck due phase finished
      obtain ⟨ls, υ, rest, ended⟩ := ih (by omega) due (phase_step phase first)
      exact ⟨l :: ls, υ, by rw [run, first]; exact rest, ended⟩

/-- From every state that a run reaches both blocks can still come to their ends: neither
    semaphore is ever waited for in vain. -/
theorem can_finish {budget : Int} {σ : State} {ls : List Label}
    (reached : run (step budget) scheduled ls = some σ) :
    ∃ more τ, run (step budget) σ more = some τ ∧ Finished τ := by
  have phase : Undecided σ ∨ HandlerTook σ ∨ DeadlineTook σ := by
    rcases undecided_run scheduled_undecided reached with ⟨_, open_ | took⟩ | ⟨_, took⟩
    · exact .inl open_
    · exact .inr (.inl took)
    · exact .inr (.inr took)
  have waits : step budget σ (.passes budget.toNat) =
      some { σ with elapsed := σ.elapsed + budget.toNat } := rfl
  have due : budget ≤ ((σ.elapsed + budget.toNat : Nat) : Int) := by omega
  have later := phase_step phase waits
  obtain ⟨more, τ, rest, finished⟩ := finishes_when_due _ (Nat.le_refl _) due later
  exact ⟨.passes budget.toNat :: more, τ, by rw [run, waits]; exact rest, finished⟩

/-! ### One answer -/

/-- A message is answered once exactly in the runs where the deadline block starts after the
    handler block is through with the semaphore. -/
theorem single_response_iff (client : Client) (deadline currentTime : UInt64) {ls : List Label}
    {last : State}
    (ends : run (step (computeBudgetForDeadline client deadline currentTime)) scheduled ls =
      some last) (finished : Finished last) :
    AnsweredOnce (computeBudgetForDeadline client deadline currentTime) ls last ↔
      Meets (step (computeBudgetForDeadline client deadline currentTime)) HandlerFirst
        scheduled ls := by
  have expired : ∀ before after σ, ls = before ++ .budgetExpires :: after →
      run (step (computeBudgetForDeadline client deadline currentTime)) scheduled before =
        some σ → σ.handler = .running →
      ∃ failClosed, .deadlineResponds failClosed ∈ after ∧
        ⟨.deadline, expiredResult failClosed, false⟩ ∈ last.responses := by
    intro before after σ split_ reached running
    subst split_
    exact expired_answers ends finished.2 reached running
  rcases undecided_run scheduled_undecided ends with ⟨meets, open_ | took⟩ | ⟨fails, took⟩
  · have idle : DeadlineAt.scheduled = .done := open_.scheduled ▸ finished.2
    cases idle
  · exact iff_of_true ⟨took.sent, expired⟩ meets
  · refine iff_of_false ?_ fails
    intro answered
    have both := answered.once
    rw [took.sent, handlerSent, deadlineSent, finished.1, finished.2] at both
    exact absurd both (by decide)

def defaultClient : Client where
  defaultBudget := fun nanos => nanos * 8 / 10
  minAllowedHeadroom := 1000000000
  maxAllowedHeadroom := 5000000000
  numer := 1
  denom := 1

/-- The handler is through in a second of the forty that it has. -/
theorem quick_handler_once :
    let budget := computeBudgetForDeadline defaultClient 45000000000 0
    let ls : List Label := [.passes 1000000000, .handlerAnswers .allow true, .handlerReturns,
      .passes 39000000000, .budgetExpires]
    ∃ last, run (step budget) scheduled ls = some last ∧
      (AnsweredOnce budget ls last ↔ Meets (step budget) HandlerFirst scheduled ls) :=
  ⟨⟨.done, .done, 0, 0, 40000000000, [⟨.handler, .allow, true⟩]⟩, by decide +kernel,
    single_response_iff defaultClient 45000000000 0 (by decide +kernel) (by decide)⟩

/-- The budget expires between the handler's answer and its wait: both blocks answer, here with
    opposite results. -/
theorem answer_at_expiry_twice :
    let budget := computeBudgetForDeadline defaultClient 45000000000 0
    let ls : List Label := [.passes 40000000000, .handlerAnswers .allow true, .budgetExpires,
      .deadlineResponds true, .deadlineSignals, .handlerReturns, .handlerWakes]
    ∃ last, run (step budget) scheduled ls = some last ∧ Finished last ∧
      last.responses = [⟨.handler, .allow, true⟩, ⟨.deadline, .deny, false⟩] ∧
      ¬ AnsweredOnce budget ls last := by
  refine ⟨⟨.done, .done, 0, 0, 40000000000, [⟨.handler, .allow, true⟩, ⟨.deadline, .deny, false⟩]⟩,
    by decide +kernel, by decide, rfl, ?_⟩
  intro answered
  exact absurd answered.once (by decide)

end SantaDeadlines
