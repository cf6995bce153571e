import Santa.Auth.CachedAnswers

/-!
What Endpoint Security is told to keep. A response is a step of its own, after
the check or the post that it answers for; a flush of all caches queues a clear
of the cache of Endpoint Security, which runs later. Recorded for the statements
only: how often the rules have changed, how each execution was decided and at which
count, and who was under way at each flush. Messages of other kinds are left out.
-/
namespace SantaESCache
open SantaPolicy SantaAuthCache SantaExec SantaExecRuns SantaCachedAnswers

/-- How an execution was decided: the count of rule changes when the rules were looked up, if
    they were, and whether the file could not be read. -/
structure Decided where
  version : Option Nat
  unread : Bool
  deriving DecidableEq, Repr

/-- What a response answers for. With an action: the execution that decided it, and how. -/
inductive Origin where
  | ignoredClient
  | deadline
  | action (action : SNTAction) (decided : Option (Nat × Decided))
  deriving DecidableEq, Repr

structure Answer where
  origin : Origin
  response : Response
  deriving DecidableEq, Repr

/-- A flush of all caches: the count of rule changes, and the executions that were under way. -/
structure Flush where
  version : Nat
  underWay : Nat → Bool

/-- A response with the flushes whose clear had run when it was sent. -/
structure Sent where
  id : Nat
  answer : Answer
  after : List Flush

structure Authorizer where
  daemon : System
  version : Nat
  decided : Nat → Option Decided
  waiting : Nat → Option Answer
  queued : List Flush
  cleared : List Flush
  ignoreOtherEndpointSecurityClients : Bool
  sent : List Sent

inductive Label where
  | message (id : Nat) (esMsg : ExecMessage) (isESClient : Bool)
  | daemon (l : SantaExecRuns.Label) (interested : Bool)
  | respond (id : Nat)
  | deadline (id : Nat)
  | clearCache
  | configure (ignoreOtherEndpointSecurityClients : Bool)

namespace Authorizer

def start (rootDevno cacheDenyTimeMs : Nat) (world : World) : Authorizer :=
  ⟨.start rootDevno cacheDenyTimeMs world, 0, fun _ => none, fun _ => none, [], [], false, []⟩

def flushes (s : Authorizer) : List Flush := s.queued ++ s.cleared

def postsAnswer : Effect → Bool
  | .post .holdAllowed | .post .holdDenied => false
  | .post _ => true
  | _ => false

def underWay (s : Authorizer) (id : Nat) : Bool :=
  (s.waiting id).isSome ||
    match s.daemon.execs id with
    | some ⟨_, .acting todo, _, _, _⟩ => todo.any postsAnswer
    | _ => false

/-- How the daemon decides an execution: without a decision no rule is looked up. -/
def decidedNow (s : Authorizer) (id : Nat) (stoppedProc : Bool) : Option Decided :=
  (s.daemon.execs id).map fun e =>
    ⟨(validateExecEvent s.daemon.world e.message stoppedProc).1.map fun _ => s.version,
      (s.daemon.world.file e.message.vnode).isNone⟩

def answerOf (s : Authorizer) (daemon : System) (interested : Bool) :
    SantaExecRuns.Label → Option (Nat × Answer)
  | .check id _ =>
      match daemon.execs id with
      | some ⟨esMsg, .answered action, _, _, _⟩ =>
          match processChecked action interested with
          | .respond _ response =>
              some (id, ⟨.action action ((daemon.author esMsg.vnode).bind fun author =>
                (s.decided author).map fun how => (author, how)), response⟩)
          | _ => none
      | _ => none
  | .act id currentUptime interested =>
      match s.daemon.execs id with
      | some ⟨esMsg, .acting (.post action :: _), _, _, _⟩ =>
          ((postAction s.daemon.cache esMsg.vnode action currentUptime interested).bind
            Posted.response).map fun response =>
              (id, ⟨.action action ((s.decided id).map fun how => (id, how)), response⟩)
      | _ => none
  | _ => none

def advance (s : Authorizer) (l : SantaExecRuns.Label) (interested : Bool) (daemon : System) :
    Authorizer :=
  { s with
    daemon := daemon
    version := match l with
      | .change _ => s.version + 1
      | _ => s.version
    decided := match l with
      | .decide id stoppedProc =>
          fun i => if i = id then s.decidedNow id stoppedProc else s.decided i
      | _ => s.decided
    waiting := match s.answerOf daemon interested l with
      | some (id, answer) => fun i => if i = id then some answer else s.waiting i
      | none => s.waiting
    queued := match l with
      | .flush .allCaches => s.queued ++ [⟨s.version, s.underWay⟩]
      | _ => s.queued }

def send (s : Authorizer) (id : Nat) (answer : Answer) : Authorizer :=
  { s with sent := ⟨id, answer, s.cleared⟩ :: s.sent }

def accepts (s : Authorizer) : SantaExecRuns.Label → Bool
  | .exec _ _ => false
  | .act id _ _ => (s.waiting id).isNone
  | _ => true

def deadlineResponse (failClosed : Bool) : Response :=
  ⟨if failClosed then .deny else .allow, false⟩

end Authorizer

open Authorizer

def step (s : Authorizer) : Label → Option Authorizer
  | .message id esMsg isESClient =>
      if isESClient && s.ignoreOtherEndpointSecurityClients then
        some (s.send id ⟨.ignoredClient, ⟨.allow, true⟩⟩)
      else (SantaExecRuns.step s.daemon (.exec id esMsg)).map (s.advance (.exec id esMsg) false)
  | .daemon l interested =>
      if s.accepts l then (SantaExecRuns.step s.daemon l).map (s.advance l interested) else none
  | .respond id =>
      (s.waiting id).map fun answer =>
        { s.send id answer with waiting := fun i => if i = id then none else s.waiting i }
  | .deadline id =>
      (s.daemon.execs id).map fun _ =>
        s.send id ⟨.deadline, deadlineResponse s.daemon.world.config.failClosed⟩
  | .clearCache =>
      match s.queued with
      | flush :: queued => some { s with queued := queued, cleared := flush :: s.cleared }
      | [] => none
  | .configure ignore => some { s with ignoreOtherEndpointSecurityClients := ignore }

/-- A response that Endpoint Security keeps until its next clear. -/
def kept : Response := ⟨.allow, true⟩

/-- What is kept after a clear is for a plain allow, decided by the rules in force after the
    changes before it. -/
def KeepsCurrent (s : Authorizer) : Prop :=
  ∀ r ∈ s.sent, r.answer.response = kept → r.after ≠ [] →
    ∃ author how version, r.answer.origin = .action .respondAllow (some (author, how)) ∧
      how.version = some version ∧ ∀ flush ∈ r.after, flush.version ≤ version

/-- Where the author could read its file, it looked up the rules, and these are the rules of each
    flush at which neither it nor the execution that it answers was under way. -/
def Covers (flushes : List Flush) (id author : Nat) (how : Decided) : Prop :=
  how.unread = false → ∃ version, how.version = some version ∧
    ∀ flush ∈ flushes, flush.underWay author = false → flush.underWay id = false →
      flush.version ≤ version

def Answer.Accounted (answer : Answer) (flushes : List Flush) (id : Nat) : Prop :=
  ∃ author how, answer.origin = .action .respondAllow (some (author, how)) ∧
    Covers flushes id author how

/-- What is kept answers a message of an ignored client, or is a plain allow that is accounted
    for. -/
def KeepsAccounted (s : Authorizer) : Prop :=
  ∀ r ∈ s.sent, r.answer.response = kept →
    r.answer.origin = .ignoredClient ∨ r.answer.Accounted r.after r.id

/-! ### Only a plain allow is kept -/

theorem respondToMessage_kept {interested forcePreventCache : Bool} {result : AuthResult}
    (keeps : respondToMessage interested result forcePreventCache = kept) :
    result = .allow ∧ forcePreventCache = false := by
  unfold respondToMessage kept at keeps
  simp only [Response.mk.injEq, Bool.and_eq_true, Bool.not_eq_true'] at keeps
  exact ⟨keeps.1, keeps.2.1.2⟩

theorem processChecked_kept {action : SNTAction} {interested isCompiler : Bool}
    (keeps : processChecked action interested = .respond isCompiler kept) :
    action = .respondAllow := by
  unfold processChecked at keeps
  split at keeps
  · exact nomatch (respondToMessage_kept (Checked.respond.inj keeps).2).2
  · rfl
  · exact nomatch (respondToMessage_kept (Checked.respond.inj keeps).2).1
  · exact nomatch (Checked.respond.inj keeps).2
  · exact nomatch keeps
  · exact nomatch keeps

theorem postAction_kept {cache : AuthResultCache} {vnode : SantaVnode} {action : SNTAction}
    {currentUptime : Nat} {interested : Bool} {posted : Posted}
    (h : postAction cache vnode action currentUptime interested = some posted)
    (keeps : posted.response = some kept) : action = .respondAllow := by
  cases action with
  | respondAllow => rfl
  | unset => exact nomatch h
  | requestBinary => exact nomatch h
  | holdAllowed =>
    rw [← Option.some.inj h] at keeps
    exact nomatch keeps
  | holdDenied =>
    rw [← Option.some.inj h] at keeps
    exact nomatch keeps
  | respondDeny =>
    rw [← Option.some.inj h] at keeps
    exact nomatch (respondToMessage_kept (Option.some.inj keeps)).1
  | _ =>
    rw [← Option.some.inj h] at keeps
    exact nomatch (respondToMessage_kept (Option.some.inj keeps)).2

/-! ### What the daemon's steps do to answers -/

section
variable {s t : System} {l : SantaExecRuns.Label} {id : Nat}

theorem check_answered {currentUptime : Nat} {e : Exec} {action : SNTAction}
    (h : SantaExecRuns.step s (.check id currentUptime) = some t) (here : t.execs id = some e)
    (answered : e.phase = .answered action) :
    (s.cache.get e.message.vnode).action = action ∧ t.author = s.author := by
  simp only [SantaExecRuns.step] at h
  split at h
  · rw [← Option.some.inj h, System.setExec_self, Option.some.injEq] at here
    subst here
    refine ⟨?_, by rw [← Option.some.inj h]; rfl⟩
    simp only at answered ⊢
    split at answered
    · cases answered
    · rename_i found
      unfold AuthResultCache.lookup at found
      simp only at found
      split at found
      · cases found
      · split at answered
        · rw [AuthResultCache.Lookup.found.inj found]
          exact Phase.answered.inj answered
        · cases answered
        · cases answered
  · cases h

theorem act_stored {currentUptime : Nat} {interested : Bool} {e : Exec} {action : SNTAction}
    {todo : List Effect} (h : SantaExecRuns.step s (.act id currentUptime interested) = some t)
    (here : s.execs id = some e) (acting : e.phase = .acting (.post action :: todo))
    (answers : RESPONSE_VALID action = true)
    (waiting : s.cache.get e.message.vnode = AuthResultCache.placeholder) :
    (t.cache.get e.message.vnode).action = action := by
  obtain ⟨e', effect, rest, m, there, acting', performed, same⟩ := step_act h
  rw [here, Option.some.injEq] at there
  subst there
  rw [acting, Phase.acting.injEq, List.cons.injEq] at acting'
  rw [← acting'.1] at performed
  obtain ⟨posted, accepted, result⟩ := Option.map_eq_some_iff.mp performed
  have cache := congrArg Prod.snd (postAction_answer answers accepted)
  simp only at cache
  rw [same, System.setExec_cache, ← result]
  simp only [cache]
  rw [AuthResultCache.get_store_self waiting]
  rfl

theorem allow_cases {e' : Exec} {todo' : List Effect} (h : SantaExecRuns.step s l = some t)
    (here' : t.execs id = some e') (acting' : e'.phase = .acting todo')
    (allows : .post .respondAllow ∈ todo') :
    (∃ e stoppedProc, l = .decide id stoppedProc ∧ s.execs id = some e ∧
        .post .respondAllow ∈ (validateExecEvent s.world e.message stoppedProc).2) ∨
      ∃ e todo, s.execs id = some e ∧ e.phase = .acting todo ∧ .post .respondAllow ∈ todo := by
  by_cases own : l.execution = some id
  · rcases acting_from h here' acting' own with denied | ⟨e, stoppedProc, label, here, decides⟩ |
      ⟨e, effect, here, acting⟩ | ⟨_, _, _, _, _, _, replied⟩
    · rw [denied, List.mem_singleton] at allows
      cases allows
    · exact .inl ⟨e, stoppedProc, label, here, decides ▸ allows⟩
    · exact .inr ⟨e, effect :: todo', here, acting, List.mem_cons_of_mem _ allows⟩
    · rw [replied] at allows
      rcases (mem_replyEffects allows).1 _ rfl with hold | hold
      · cases hold
      · cases hold
  · exact .inr ⟨e', todo', (step_other h own).symm.trans here', acting', allows⟩

theorem allow_evaluated {world : World} {esMsg : ExecMessage} {stoppedProc : Bool}
    (allows : .post .respondAllow ∈ (validateExecEvent world esMsg stoppedProc).2)
    (reads : (world.file esMsg.vnode).isNone = false) :
    ((validateExecEvent world esMsg stoppedProc).1).isSome = true := by
  unfold validateExecEvent at allows ⊢
  split at allows
  · rename_i unread
    rw [unread] at reads
    exact nomatch reads
  · split at allows
    · cases List.mem_singleton.mp allows
    · rename_i proxy
      rw [if_neg proxy]
      rfl

theorem decided_acting {a : Authorizer} {interested : Bool} {e : Exec} {todo : List Effect}
    (h : SantaExecRuns.step s l = some t) (here : s.execs id = some e)
    (acting : e.phase = .acting todo) :
    (a.advance l interested t).decided id = a.decided id := by
  cases l with
  | decide id' stoppedProc =>
    obtain ⟨e', there, placed, _⟩ := step_decide h
    refine if_neg ?_
    intro same
    rw [← same, here, Option.some.injEq] at there
    rw [← there, acting] at placed
    exact nomatch placed
  | _ => rfl

end

/-! ### Every answer is accounted for -/

section
variable {s : Authorizer} {l : SantaExecRuns.Label} {interested : Bool} {t : System}

theorem Covers.extend {before after : List Flush} {id author : Nat} {how : Decided}
    (covers : Covers before id author how)
    (more : ∀ flush ∈ after, flush ∈ before ∨ flush.underWay author = true ∨
      flush.underWay id = true) : Covers after id author how := by
  intro read
  obtain ⟨version, lookedUp, current⟩ := covers read
  refine ⟨version, lookedUp, ?_⟩
  intro flush member author idle
  rcases more flush member with old | straddled | straddled
  · exact current flush old author idle
  · rw [author] at straddled
    exact nomatch straddled
  · rw [idle] at straddled
    exact nomatch straddled

theorem Covers.hit {flushes : List Flush} {author : Nat} {how : Decided}
    (covers : Covers flushes author author how) (id : Nat) : Covers flushes id author how := by
  intro read
  obtain ⟨version, lookedUp, current⟩ := covers read
  exact ⟨version, lookedUp, fun flush member idle _ => current flush member idle idle⟩

theorem Answer.Accounted.extend {answer : Answer} {before after : List Flush} {id : Nat}
    (accounted : answer.Accounted before id)
    (more : ∀ flush ∈ after, flush ∈ before ∨ flush.underWay id = true) :
    answer.Accounted after id := by
  obtain ⟨author, how, origin, covers⟩ := accounted
  refine ⟨author, how, origin, covers.extend ?_⟩
  exact fun flush member => (more flush member).imp_right .inr

theorem mem_flushes_advance {flush : Flush} (member : flush ∈ (s.advance l interested t).flushes) :
    flush ∈ s.flushes ∨ (l = .flush .allCaches ∧ flush = ⟨s.version, s.underWay⟩) := by
  rcases List.mem_append.mp member with queued | cleared
  · simp only [advance] at queued
    split at queued
    · rcases List.mem_append.mp queued with old | new
      · exact .inl (List.mem_append.mpr (.inl old))
      · exact .inr ⟨rfl, List.mem_singleton.mp new⟩
    · exact .inl (List.mem_append.mpr (.inl queued))
  · exact .inl (List.mem_append.mpr (.inr cleared))

theorem mem_flushes_unflushed {flush : Flush} (unflushed : l ≠ .flush .allCaches)
    (member : flush ∈ (s.advance l interested t).flushes) : flush ∈ s.flushes := by
  rcases mem_flushes_advance member with old | ⟨flushing, _⟩
  · exact old
  · exact absurd flushing unflushed

structure ESInv (s : Authorizer) : Prop where
  versions : ∀ flush ∈ s.flushes, flush.version ≤ s.version
  stored : ∀ v, (s.daemon.cache.get v).action = .respondAllow →
    ∃ id e todo how, s.daemon.author v = some id ∧ s.daemon.execs id = some e ∧
      e.phase = .acting todo ∧ s.decided id = some how ∧ Covers s.flushes id id how
  todo : ∀ id e todo, s.daemon.execs id = some e → e.phase = .acting todo →
    .post .respondAllow ∈ todo → ∃ how, s.decided id = some how ∧ Covers s.flushes id id how
  waiting : ∀ id answer, s.waiting id = some answer → answer.response = kept →
    answer.Accounted s.flushes id
  sent : KeepsAccounted s

theorem underWay_todo {id : Nat} {e : Exec} {todo : List Effect}
    (here : s.daemon.execs id = some e) (acting : e.phase = .acting todo)
    (allows : .post .respondAllow ∈ todo) : s.underWay id = true := by
  obtain ⟨esMsg, phase, epoch, decision, reply⟩ := e
  simp only at acting
  subst acting
  simp only [underWay, here, Bool.or_eq_true]
  exact .inr (List.any_eq_true.mpr ⟨_, allows, rfl⟩)

theorem versions_advance (inv : ESInv s) :
    ∀ flush ∈ (s.advance l interested t).flushes,
      flush.version ≤ (s.advance l interested t).version := by
  have later : s.version ≤ (s.advance l interested t).version := by
    simp only [advance]
    split
    · exact Nat.le_succ _
    · exact Nat.le_refl _
  intro flush member
  rcases mem_flushes_advance member with old | ⟨_, new⟩
  · exact Nat.le_trans (inv.versions flush old) later
  · rw [new]
    exact later

theorem decidedNow_covers (inv : ESInv s) {id : Nat} {e : Exec} {stoppedProc : Bool}
    (here : s.daemon.execs id = some e)
    (allows : .post .respondAllow ∈ (validateExecEvent s.daemon.world e.message stoppedProc).2) :
    ∃ how, s.decidedNow id stoppedProc = some how ∧ Covers s.flushes id id how := by
  refine ⟨_, by rw [decidedNow, here]; rfl, ?_⟩
  intro read
  obtain ⟨cd, evaluated⟩ := Option.isSome_iff_exists.mp (allow_evaluated allows read)
  refine ⟨s.version, by simp only [evaluated, Option.map_some], ?_⟩
  exact fun flush member _ _ => inv.versions flush member

theorem todo_advance (inv : ESInv s) (h : SantaExecRuns.step s.daemon l = some t) {id : Nat}
    {e : Exec} {todo : List Effect} (here : t.execs id = some e) (acting : e.phase = .acting todo)
    (allows : .post .respondAllow ∈ todo) :
    ∃ how, (s.advance l interested t).decided id = some how ∧
      Covers (s.advance l interested t).flushes id id how := by
  rcases allow_cases h here acting allows with ⟨e₀, stoppedProc, decides, before, allowed⟩ |
    ⟨e₀, todo₀, before, acted, allowed⟩
  · obtain ⟨how, decided, covers⟩ := decidedNow_covers inv before allowed
    refine ⟨how, ?_, covers.extend ?_⟩
    · rw [decides]
      exact (if_pos rfl).trans decided
    · have unflushed : l ≠ .flush .allCaches := by rw [decides]; exact nofun
      exact fun flush member => .inl (mem_flushes_unflushed unflushed member)
  · obtain ⟨how, decided, covers⟩ := inv.todo id e₀ todo₀ before acted allowed
    refine ⟨how, (decided_acting h before acted).trans decided, covers.extend ?_⟩
    intro flush member
    rcases mem_flushes_advance member with old | ⟨_, new⟩
    · exact .inl old
    · rw [new]
      exact .inr (.inl (underWay_todo before acted allowed))

theorem flush_unanswered (h : SantaExecRuns.step s.daemon (.flush .allCaches) = some t)
    (v : SantaVnode) : (t.cache.get v).action ≠ .respondAllow := by
  rw [← Option.some.inj h]
  simp only [AuthResultCache.get_flushCache]
  rw [if_pos (by rfl)]
  exact nofun

theorem stored_advance (inv : ESInv s) (h : SantaExecRuns.step s.daemon l = some t)
    {v : SantaVnode} (allows : (t.cache.get v).action = .respondAllow) :
    ∃ id e todo how, t.author v = some id ∧ t.execs id = some e ∧ e.phase = .acting todo ∧
      (s.advance l interested t).decided id = some how ∧
      Covers (s.advance l interested t).flushes id id how := by
  have valid : RESPONSE_VALID (t.cache.get v).action = true := by rw [allows]; rfl
  have unflushed : l ≠ .flush .allCaches := by
    intro flushing
    rw [flushing] at h
    exact flush_unanswered h v allows
  have extend : ∀ id how, Covers s.flushes id id how →
      Covers (s.advance l interested t).flushes id id how := fun id how covers =>
    covers.extend fun flush member => .inl (mem_flushes_unflushed unflushed member)
  rcases answer_cases h valid with ⟨value, author, _⟩ | ⟨id, e, stores, vnode, author, _⟩
  · rw [value] at allows
    obtain ⟨id, e, todo, how, wrote, here, acting, decided, covers⟩ := inv.stored v allows
    obtain ⟨e', todo', here', acting', _⟩ := step_acting h here acting
    exact ⟨id, e', todo', how, author.trans wrote, here', acting',
      (decided_acting h here acting).trans decided, extend id how covers⟩
  · obtain ⟨_, _, action, todo, label, here, acting, answers, waiting⟩ := stores
    have posted : action = .respondAllow := by
      rw [label] at h
      rw [← vnode] at allows
      exact (act_stored h here acting answers waiting).symm.trans allows
    rw [posted] at acting
    obtain ⟨how, decided, covers⟩ := inv.todo id e _ here acting List.mem_cons_self
    obtain ⟨e', todo', here', acting', _⟩ := step_acting h here acting
    exact ⟨id, e', todo', how, author, here', acting',
      (decided_acting h here acting).trans decided, extend id how covers⟩

theorem answerOf_accounted (inv : ESInv s) (h : SantaExecRuns.step s.daemon l = some t) {id : Nat}
    {answer : Answer} (answers : s.answerOf t interested l = some (id, answer))
    (keeps : answer.response = kept) : answer.Accounted s.flushes id := by
  cases l with
  | check id' currentUptime =>
    simp only [answerOf] at answers
    split at answers
    · rename_i esMsg action _ _ _ here
      split at answers
      · rename_i isCompiler response checked
        obtain ⟨same, made⟩ := Prod.mk.inj (Option.some.inj answers)
        subst made
        simp only at keeps
        rw [keeps] at checked
        have allows := processChecked_kept checked
        subst allows
        obtain ⟨read, author⟩ := check_answered h here rfl
        obtain ⟨id₁, e, todo, how, wrote, _, _, decided, covers⟩ := inv.stored _ read
        refine ⟨id₁, how, ?_, covers.hit id⟩
        simp only [author, wrote, Option.bind_some, decided, Option.map_some]
      · exact nomatch answers
    · exact nomatch answers
  | act id' currentUptime interested' =>
    simp only [answerOf] at answers
    split at answers
    · rename_i esMsg action todo _ _ _ here
      obtain ⟨response, responds, same⟩ := Option.map_eq_some_iff.mp answers
      obtain ⟨posted, accepted, responded⟩ := Option.bind_eq_some_iff.mp responds
      obtain ⟨mine, made⟩ := Prod.mk.inj same
      subst made
      subst mine
      simp only at keeps
      rw [keeps] at responded
      have allows := postAction_kept accepted responded
      subst allows
      obtain ⟨how, decided, covers⟩ := inv.todo id' _ _ here rfl List.mem_cons_self
      refine ⟨id', how, ?_, covers⟩
      simp only [decided, Option.map_some]
    · exact nomatch answers
  | _ => exact nomatch answers

theorem waiting_advance (inv : ESInv s) (h : SantaExecRuns.step s.daemon l = some t) {id : Nat}
    {answer : Answer} (waits : (s.advance l interested t).waiting id = some answer)
    (keeps : answer.response = kept) :
    answer.Accounted (s.advance l interested t).flushes id := by
  have before : s.waiting id = some answer →
      answer.Accounted (s.advance l interested t).flushes id := by
    intro waited
    refine (inv.waiting id answer waited keeps).extend ?_
    intro flush member
    rcases mem_flushes_advance member with old | ⟨_, new⟩
    · exact .inl old
    · rw [new]
      simp [underWay, waited]
  cases answers : s.answerOf t interested l with
  | none =>
    simp only [advance, answers] at waits
    exact before waits
  | some pair =>
    obtain ⟨id', answer'⟩ := pair
    simp only [advance, answers] at waits
    by_cases mine : id = id'
    · rw [if_pos mine, Option.some.injEq] at waits
      rw [← mine, waits] at answers
      have unflushed : l ≠ .flush .allCaches := by
        intro flushing
        rw [flushing] at answers
        exact nomatch answers
      exact (answerOf_accounted inv h answers keeps).extend fun flush member =>
        .inl (mem_flushes_unflushed unflushed member)
    · rw [if_neg mine] at waits
      exact before waits

theorem esInv_advance (inv : ESInv s) (h : SantaExecRuns.step s.daemon l = some t) :
    ESInv (s.advance l interested t) :=
  ⟨versions_advance inv, fun _ => stored_advance inv h, fun _ _ _ => todo_advance inv h,
    fun _ _ => waiting_advance inv h, inv.sent⟩

end

/-! ### Over whole runs -/

theorem keepsAccounted_send {s : Authorizer} (inv : ESInv s) {id : Nat} {answer : Answer}
    (accounted : answer.response = kept →
      answer.origin = .ignoredClient ∨ answer.Accounted s.flushes id) :
    KeepsAccounted (s.send id answer) := by
  intro r member keeps
  rcases List.mem_cons.mp member with new | old
  · subst new
    rcases accounted keeps with ignored | decided
    · exact .inl ignored
    · exact .inr (decided.extend fun flush member => .inl (List.mem_append.mpr (.inr member)))
  · exact inv.sent r old keeps

theorem esInv_step {s : Authorizer} {l : Label} {t : Authorizer} (inv : ESInv s)
    (h : step s l = some t) : ESInv t := by
  cases l with
  | message id esMsg isESClient =>
    simp only [step] at h
    split at h
    · rw [← Option.some.inj h]
      exact ⟨inv.versions, inv.stored, inv.todo, inv.waiting,
        keepsAccounted_send inv fun _ => .inl rfl⟩
    · obtain ⟨daemon, stepped, same⟩ := Option.map_eq_some_iff.mp h
      rw [← same]
      exact esInv_advance inv stepped
  | daemon l interested =>
    simp only [step] at h
    split at h
    · obtain ⟨daemon, stepped, same⟩ := Option.map_eq_some_iff.mp h
      rw [← same]
      exact esInv_advance inv stepped
    · exact nomatch h
  | respond id =>
    obtain ⟨answer, waits, same⟩ := Option.map_eq_some_iff.mp h
    rw [← same]
    refine ⟨inv.versions, inv.stored, inv.todo, ?_, ?_⟩
    · intro id' answer' waits'
      simp only at waits'
      split at waits'
      · exact nomatch waits'
      · exact inv.waiting id' answer' waits'
    · exact keepsAccounted_send inv fun keeps => .inr (inv.waiting id answer waits keeps)
  | deadline id =>
    obtain ⟨_, _, same⟩ := Option.map_eq_some_iff.mp h
    rw [← same]
    exact ⟨inv.versions, inv.stored, inv.todo, inv.waiting,
      keepsAccounted_send inv fun keeps => nomatch congrArg Response.cacheable keeps⟩
  | clearCache =>
    simp only [step] at h
    split at h
    · rename_i flush queued waits
      have moved : ∀ f, f ∈ queued ++ (flush :: s.cleared) → f ∈ s.flushes := by
        intro f member
        rw [flushes, waits]
        simp only [List.mem_append, List.mem_cons] at member ⊢
        rcases member with queued | new | cleared
        · exact .inl (.inr queued)
        · exact .inl (.inl new)
        · exact .inr cleared
      rw [← Option.some.inj h]
      refine ⟨fun f member => inv.versions f (moved f member), ?_, ?_, ?_, inv.sent⟩
      · intro v allows
        obtain ⟨id, e, todo, how, wrote, here, acting, decided, covers⟩ := inv.stored v allows
        exact ⟨id, e, todo, how, wrote, here, acting, decided,
          covers.extend fun f member => .inl (moved f member)⟩
      · intro id e todo here acting allows
        obtain ⟨how, decided, covers⟩ := inv.todo id e todo here acting allows
        exact ⟨how, decided, covers.extend fun f member => .inl (moved f member)⟩
      · intro id answer waits keeps
        exact (inv.waiting id answer waits keeps).extend fun f member => .inl (moved f member)
    · exact nomatch h
  | configure ignore =>
    rw [← Option.some.inj h]
    exact ⟨inv.versions, inv.stored, inv.todo, inv.waiting, inv.sent⟩

theorem esInv_start (rootDevno cacheDenyTimeMs : Nat) (world : World) :
    ESInv (.start rootDevno cacheDenyTimeMs world) := by
  constructor
  · intro _ member
    cases member
  · intro v allows
    simp only [Authorizer.start, System.start, AuthResultCache.get_create] at allows
    cases allows
  · intro _ _ _ here
    cases here
  · intro _ _ waits
    cases waits
  · intro _ member
    cases member

/-- In every run, from the daemon's start: a response that Endpoint Security keeps answers a
    message of an ignored client, or is a plain allow of an execution, or of a hit on its answer.
    Where that execution could read its file, it looked up the rules; and for each clear before
    the response these were the rules after the change, unless the execution or the one answered
    was under way when the flush ran. -/
theorem kept_answers_accounted (rootDevno cacheDenyTimeMs : Nat) (world : World)
    (run : List Label) :
    Runs.Always step KeepsAccounted (.start rootDevno cacheDenyTimeMs world) run :=
  Runs.always_mono (fun _ inv => inv.sent)
    (Runs.always_of_keep ESInv (fun _ _ _ => esInv_step)
      (esInv_start rootDevno cacheDenyTimeMs world) run)

/-! ### An ignored client -/

def ignoredClientRun : List Label :=
  [.configure true, .daemon (.change (toolWorld blockingSource)) false,
    .daemon (.flush .allCaches) false, .clearCache, .message 1 (toolMessage 100 ["tool"]) true]

def lastSent (s : Authorizer) : Option (Answer × List Nat) :=
  s.sent.head?.map fun r => (r.answer, r.after.map Flush.version)

/-- An allow that nothing evaluated is kept after the clear. -/
theorem ignored_client_kept :
    ¬ Runs.Always step KeepsCurrent (.start 1 1500 (toolWorld emptySource)) ignoredClientRun := by
  intro always
  have facts : (Runs.run step (.start 1 1500 (toolWorld emptySource)) ignoredClientRun).map
      lastSent = some (some (⟨.ignoredClient, kept⟩, [1])) := by
    decide
  obtain ⟨s, ends, last⟩ := Option.map_eq_some_iff.mp facts
  obtain ⟨r, head, same⟩ := Option.map_eq_some_iff.mp last
  obtain ⟨sent, flushes⟩ := Prod.mk.inj same
  have cleared : r.after ≠ [] := by
    intro none
    rw [none] at flushes
    exact nomatch flushes
  obtain ⟨_, _, _, origin, _⟩ := Runs.always_last always ends r (List.mem_of_head? head)
    (by rw [sent]) cleared
  rw [sent] at origin
  exact nomatch origin

end SantaESCache
