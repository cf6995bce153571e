import Santa.Auth.ExecutionController
import Santa.Library.Runs

/-!
Executions under evaluation, interleaved with each other, with changes of rules
and files, with cache flushes and with the answers of users. An execution checks
the cache until it has an answer or finds none; then it stores the placeholder,
decides, and has its effects one by one. The read and the removal of a check
that meets an expired denial are two steps. Some of the state is recorded for
the statements only: how often each vnode was flushed or removed because its
file was written, which execution stored the answer of a vnode, which processes
are marked and which are held.
-/
namespace SantaExecRuns
open SantaPolicy SantaAuthCache SantaExec

inductive Phase where
  | checking
  | expiring
  | missed
  | placed
  | acting (todo : List Effect)
  | answered (action : SNTAction)
  deriving DecidableEq, Repr

/-- `epoch` is the count of flushes and removals of the vnode when the evaluation started. -/
structure Exec where
  message : ExecMessage
  phase : Phase
  epoch : Nat
  decision : Option SNTCachedDecision
  reply : Option ReplyBlock

structure System where
  cache : AuthResultCache
  procSignalCache : SantaCache ProcessId Bool
  world : World
  execs : Nat → Option Exec
  seen : List ProcessId
  epoch : SantaVnode → Nat
  author : SantaVnode → Option Nat
  marked : List ProcessId
  held : List ProcessId

def procSignalCacheSize : Nat := 100000

def System.start (rootDevno cacheDenyTimeMs : Nat) (world : World) : System :=
  ⟨.create rootDevno cacheDenyTimeMs, .new procSignalCacheSize, world, fun _ => none, [],
    fun _ => 0, fun _ => none, [], []⟩

inductive Label where
  | exec (id : Nat) (esMsg : ExecMessage)
  | check (id : Nat) (currentUptime : Nat)
  | expire (id : Nat)
  | place (id : Nat)
  | decide (id : Nat) (stoppedProc : Bool)
  | act (id : Nat) (currentUptime : Nat) (interested : Bool)
  | reply (id : Nat) (authenticated : Bool) (now : Nat)
  | change (world : World)
  | flush (mode : AuthResultCache.FlushCacheMode)
  | writeClosed (vnode : SantaVnode)

namespace System

def setExec (s : System) (id : Nat) (e : Exec) : System :=
  { s with execs := fun i => if i = id then some e else s.execs i }

/-- One effect. What other parts of the daemon do with theirs is not looked at here. -/
def perform (s : System) (id : Nat) (vnode : SantaVnode) (currentUptime : Nat)
    (interested : Bool) : Effect → Option System
  | .post action =>
      (postAction s.cache vnode action currentUptime interested).map fun posted =>
        { s with
          cache := posted.cache
          author := if posted.stored ∧ RESPONSE_VALID action then
              fun v => if v = vnode then some id else s.author v
            else s.author }
  | .setSignal p =>
      some { s with
        procSignalCache := (s.procSignalCache.set p true none).2
        marked := p :: s.marked }
  | .removeSignal p =>
      some { s with
        procSignalCache := s.procSignalCache.remove p
        marked := s.marked.filter (· ≠ p) }
  | .suspend p => some { s with held := p :: s.held }
  | _ => some s

end System

/-- A message whose path is too long is answered at once. -/
def arrivalPhase (esMsg : ExecMessage) : Phase :=
  if synchronousShouldProcessExecEvent esMsg.pathLength esMsg.pathTruncated then .checking
  else .acting [.post .respondDeny]

/-- A process identity names one execution, in the kernel and here. -/
def step (s : System) : Label → Option System
  | .exec id esMsg =>
      match s.execs id with
      | some _ => none
      | none =>
          if esMsg.pidAndVersion ∈ s.seen then none
          else some
            { s.setExec id ⟨esMsg, arrivalPhase esMsg, s.epoch esMsg.vnode, none, none⟩ with
              seen := esMsg.pidAndVersion :: s.seen }
  | .check id currentUptime =>
      match s.execs id with
      | some ⟨esMsg, .checking, _, decision, reply⟩ =>
          let phase := match s.cache.lookup esMsg.vnode currentUptime with
            | .expired => .expiring
            | .found action =>
                match processChecked action false with
                | .respond _ _ => .answered action
                | .poll => .checking
                | .evaluate => .missed
          some (s.setExec id ⟨esMsg, phase, s.epoch esMsg.vnode, decision, reply⟩)
      | _ => none
  | .expire id =>
      match s.execs id with
      | some ⟨esMsg, .expiring, epoch, decision, reply⟩ =>
          some { s.setExec id ⟨esMsg, .missed, epoch, decision, reply⟩ with
            cache := s.cache.removeFromCache esMsg.vnode }
      | _ => none
  | .place id =>
      match s.execs id with
      | some ⟨esMsg, .missed, epoch, decision, reply⟩ =>
          (s.cache.addToCache esMsg.vnode .requestBinary 0).map fun (_, cache) =>
            { s.setExec id ⟨esMsg, .placed, epoch, decision, reply⟩ with cache := cache }
      | _ => none
  | .decide id stoppedProc =>
      match s.execs id with
      | some ⟨esMsg, .placed, epoch, _, _⟩ =>
          let (decision, effects) := validateExecEvent s.world esMsg stoppedProc
          some (s.setExec id ⟨esMsg, .acting effects, epoch, decision, none⟩)
      | _ => none
  | .act id currentUptime interested =>
      match s.execs id with
      | some ⟨esMsg, .acting (effect :: todo), epoch, decision, reply⟩ =>
          (s.perform id esMsg.vnode currentUptime interested effect).map fun s =>
            s.setExec id ⟨esMsg, .acting todo, epoch, decision, effect.reply.or reply⟩
      | _ => none
  | .reply id authenticated now =>
      match s.execs id with
      | some ⟨esMsg, .acting [], epoch, decision, some block⟩ =>
          some { s.setExec id ⟨esMsg, .acting (replyEffects block authenticated now), epoch,
              decision, none⟩ with
            held := s.held.filter (· ≠ block.pidAndVersion) }
      | _ => none
  | .change world => some { s with world := world }
  | .flush mode =>
      some { s with
        cache := (s.cache.flushCache mode).1
        epoch := fun v => if s.cache.flushes mode v then s.epoch v + 1 else s.epoch v }
  | .writeClosed vnode =>
      some { s with
        cache := s.cache.removeFromCache vnode
        epoch := fun v => if v = vnode then s.epoch v + 1 else s.epoch v }

/-! ### What a step can do -/

def Label.execution : Label → Option Nat
  | .exec id _ | .check id _ | .expire id | .place id | .decide id _ | .act id _ _
  | .reply id _ _ => some id
  | .change _ | .flush _ | .writeClosed _ => none

section
variable {s t : System} {id : Nat}

@[simp] theorem System.setExec_self (s : System) (id : Nat) (e : Exec) :
    (s.setExec id e).execs id = some e := if_pos rfl

@[simp] theorem System.setExec_cache (s : System) (id : Nat) (e : Exec) :
    (s.setExec id e).cache = s.cache := rfl

theorem System.setExec_other (s : System) {id id' : Nat} (e : Exec) (other : id' ≠ id) :
    (s.setExec id e).execs id' = s.execs id' := if_neg other

theorem System.setExec_cases {s : System} {id id' : Nat} {e e' : Exec}
    (there : (s.setExec id e).execs id' = some e') :
    (id' = id ∧ e' = e) ∨ (id' ≠ id ∧ s.execs id' = some e') := by
  by_cases same : id' = id
  · rw [same, System.setExec_self, Option.some.injEq] at there
    exact .inl ⟨same, there.symm⟩
  · rw [System.setExec_other s e same] at there
    exact .inr ⟨same, there⟩

theorem step_exec {esMsg : ExecMessage} (h : step s (.exec id esMsg) = some t) :
    s.execs id = none ∧ esMsg.pidAndVersion ∉ s.seen ∧
      t = { s.setExec id ⟨esMsg, arrivalPhase esMsg, s.epoch esMsg.vnode, none, none⟩ with
        seen := esMsg.pidAndVersion :: s.seen } := by
  unfold step at h
  cases here : s.execs id with
  | some e => simp [here] at h
  | none =>
    simp only [here] at h
    split_ifs at h with known
    exact ⟨rfl, known, (Option.some.inj h).symm⟩

theorem step_check {currentUptime : Nat} (h : step s (.check id currentUptime) = some t) :
    ∃ e phase, s.execs id = some e ∧ e.phase = .checking ∧ (∀ todo, phase ≠ .acting todo) ∧
      t = s.setExec id { e with phase := phase, epoch := s.epoch e.message.vnode } := by
  simp only [step] at h
  split at h
  · rename_i here
    refine ⟨_, _, here, rfl, ?_, (Option.some.inj h).symm⟩
    intro todo
    cases s.cache.lookup _ currentUptime with
    | expired => exact nofun
    | found action =>
      simp only
      cases processChecked action false <;> exact nofun
  · exact nomatch h

theorem step_expire (h : step s (.expire id) = some t) :
    ∃ e, s.execs id = some e ∧ e.phase = .expiring ∧
      t = { s.setExec id { e with phase := .missed } with
        cache := s.cache.removeFromCache e.message.vnode } := by
  simp only [step] at h
  split at h
  · rename_i here
    exact ⟨_, here, rfl, (Option.some.inj h).symm⟩
  · exact nomatch h

theorem step_place (h : step s (.place id) = some t) :
    ∃ e, s.execs id = some e ∧ e.phase = .missed ∧
      t = { s.setExec id { e with phase := .placed } with
        cache := (s.cache.store e.message.vnode AuthResultCache.placeholder (some default)).2 } := by
  simp only [step] at h
  split at h
  · rename_i here
    exact ⟨_, here, rfl, (Option.some.inj h).symm⟩
  · exact nomatch h

theorem step_decide {stoppedProc : Bool} (h : step s (.decide id stoppedProc) = some t) :
    ∃ e, s.execs id = some e ∧ e.phase = .placed ∧
      t = s.setExec id { e with
        phase := .acting (validateExecEvent s.world e.message stoppedProc).2
        decision := (validateExecEvent s.world e.message stoppedProc).1
        reply := none } := by
  simp only [step] at h
  split at h
  · rename_i here
    exact ⟨_, here, rfl, (Option.some.inj h).symm⟩
  · exact nomatch h

theorem step_act {currentUptime : Nat} {interested : Bool}
    (h : step s (.act id currentUptime interested) = some t) :
    ∃ e effect todo m, s.execs id = some e ∧ e.phase = .acting (effect :: todo) ∧
      s.perform id e.message.vnode currentUptime interested effect = some m ∧
      t = m.setExec id { e with
        phase := .acting todo
        reply := effect.reply.or e.reply } := by
  simp only [step] at h
  split at h
  · rename_i here
    obtain ⟨m, performed, same⟩ := Option.map_eq_some_iff.mp h
    exact ⟨_, _, _, m, here, rfl, performed, same.symm⟩
  · exact nomatch h

theorem step_reply {authenticated : Bool} {now : Nat}
    (h : step s (.reply id authenticated now) = some t) :
    ∃ e block, s.execs id = some e ∧ e.phase = .acting [] ∧ e.reply = some block ∧
      t = { s.setExec id { e with
          phase := .acting (replyEffects block authenticated now)
          reply := none } with
        held := s.held.filter (· ≠ block.pidAndVersion) } := by
  simp only [step] at h
  split at h
  · rename_i here
    exact ⟨_, _, here, rfl, rfl, (Option.some.inj h).symm⟩
  · exact nomatch h

theorem perform_frame {m : System} {vnode : SantaVnode} {currentUptime : Nat} {interested : Bool}
    {effect : Effect} (h : s.perform id vnode currentUptime interested effect = some m) :
    m.execs = s.execs ∧ m.epoch = s.epoch ∧ m.seen = s.seen := by
  unfold System.perform at h
  split at h
  · obtain ⟨posted, _, same⟩ := Option.map_eq_some_iff.mp h
    rw [← same]
    exact ⟨rfl, rfl, rfl⟩
  all_goals
    rw [← Option.some.inj h]
    exact ⟨rfl, rfl, rfl⟩

theorem step_other {l : Label} (h : step s l = some t) (other : l.execution ≠ some id) :
    t.execs id = s.execs id := by
  cases l with
  | exec id' esMsg =>
    obtain ⟨_, _, same⟩ := step_exec h
    rw [same]
    exact System.setExec_other s _ fun mine => other (by rw [mine]; rfl)
  | check id' currentUptime =>
    obtain ⟨_, _, _, _, _, same⟩ := step_check h
    rw [same]
    exact System.setExec_other s _ fun mine => other (by rw [mine]; rfl)
  | expire id' =>
    obtain ⟨_, _, _, same⟩ := step_expire h
    rw [same]
    exact System.setExec_other s _ fun mine => other (by rw [mine]; rfl)
  | place id' =>
    obtain ⟨_, _, _, same⟩ := step_place h
    rw [same]
    exact System.setExec_other s _ fun mine => other (by rw [mine]; rfl)
  | decide id' stoppedProc =>
    obtain ⟨_, _, _, same⟩ := step_decide h
    rw [same]
    exact System.setExec_other s _ fun mine => other (by rw [mine]; rfl)
  | act id' currentUptime interested =>
    obtain ⟨_, _, _, m, _, _, performed, same⟩ := step_act h
    rw [same, System.setExec_other m _ fun mine => other (by rw [mine]; rfl),
      (perform_frame performed).1]
  | reply id' authenticated now =>
    obtain ⟨_, _, _, _, _, same⟩ := step_reply h
    rw [same]
    exact System.setExec_other s _ fun mine => other (by rw [mine]; rfl)
  | change world | flush mode | writeClosed vnode =>
    rw [← Option.some.inj h]

theorem own_cases {l : Label} (h : step s l = some t) {e : Exec} (here : s.execs id = some e)
    (own : l.execution = some id) :
    (∃ currentUptime, l = .check id currentUptime ∧ e.phase = .checking) ∨
      (l = .expire id ∧ e.phase = .expiring) ∨
      (l = .place id ∧ e.phase = .missed) ∨
      (∃ stoppedProc, l = .decide id stoppedProc ∧ e.phase = .placed) ∨
      (∃ currentUptime interested effect todo, l = .act id currentUptime interested ∧
        e.phase = .acting (effect :: todo)) ∨
      (∃ authenticated now, l = .reply id authenticated now ∧ e.phase = .acting []) := by
  have found : ∀ {e₁ : Exec}, s.execs id = some e₁ → e₁ = e := by
    intro e₁ there
    exact Option.some.inj (there.symm.trans here)
  cases l with
  | exec id' esMsg =>
    obtain ⟨fresh, _⟩ := step_exec h
    cases own
    rw [here] at fresh
    cases fresh
  | check id' currentUptime =>
    obtain ⟨_, _, there, checking, _⟩ := step_check h
    cases own
    rw [found there] at checking
    exact .inl ⟨currentUptime, rfl, checking⟩
  | expire id' =>
    obtain ⟨_, there, expiring, _⟩ := step_expire h
    cases own
    rw [found there] at expiring
    exact .inr (.inl ⟨rfl, expiring⟩)
  | place id' =>
    obtain ⟨_, there, missed, _⟩ := step_place h
    cases own
    rw [found there] at missed
    exact .inr (.inr (.inl ⟨rfl, missed⟩))
  | decide id' stoppedProc =>
    obtain ⟨_, there, placed, _⟩ := step_decide h
    cases own
    rw [found there] at placed
    exact .inr (.inr (.inr (.inl ⟨stoppedProc, rfl, placed⟩)))
  | act id' currentUptime interested =>
    obtain ⟨_, effect, todo, _, there, acting, _⟩ := step_act h
    cases own
    rw [found there] at acting
    exact .inr (.inr (.inr (.inr (.inl ⟨currentUptime, interested, effect, todo, rfl, acting⟩))))
  | reply id' authenticated now =>
    obtain ⟨_, _, there, acting, _⟩ := step_reply h
    cases own
    rw [found there] at acting
    exact .inr (.inr (.inr (.inr (.inr ⟨authenticated, now, rfl, acting⟩))))
  | change world | flush mode | writeClosed vnode => cases own

theorem placed_owns {l : Label} (h : step s l = some t) {e : Exec} (here : s.execs id = some e)
    (placed : e.phase = .placed) (own : l.execution = some id) :
    ∃ stoppedProc, l = .decide id stoppedProc := by
  rcases own_cases h here own with ⟨_, _, phase⟩ | ⟨_, phase⟩ | ⟨_, phase⟩ |
    ⟨stoppedProc, label, _⟩ | ⟨_, _, _, _, _, phase⟩ | ⟨_, _, _, phase⟩
  · cases placed.symm.trans phase
  · cases placed.symm.trans phase
  · cases placed.symm.trans phase
  · exact ⟨stoppedProc, label⟩
  · cases placed.symm.trans phase
  · cases placed.symm.trans phase

theorem acting_owns {l : Label} (h : step s l = some t) {e : Exec} {todo : List Effect}
    (here : s.execs id = some e) (acting : e.phase = .acting todo)
    (own : l.execution = some id) :
    (∃ currentUptime interested, l = .act id currentUptime interested ∧ todo ≠ []) ∨
      ∃ authenticated now, l = .reply id authenticated now ∧ todo = [] := by
  rcases own_cases h here own with ⟨_, _, phase⟩ | ⟨_, phase⟩ | ⟨_, phase⟩ | ⟨_, _, phase⟩ |
    ⟨currentUptime, interested, _, _, label, phase⟩ | ⟨authenticated, now, label, phase⟩
  · cases acting.symm.trans phase
  · cases acting.symm.trans phase
  · cases acting.symm.trans phase
  · cases acting.symm.trans phase
  · cases acting.symm.trans phase
    exact .inl ⟨currentUptime, interested, label, nofun⟩
  · cases acting.symm.trans phase
    exact .inr ⟨authenticated, now, label, rfl⟩

theorem acting_from {l : Label} (h : step s l = some t) {e' : Exec} {todo : List Effect}
    (there : t.execs id = some e') (acting : e'.phase = .acting todo)
    (own : l.execution = some id) :
    todo = [.post .respondDeny] ∨
      (∃ e stoppedProc, l = .decide id stoppedProc ∧ s.execs id = some e ∧
        todo = (validateExecEvent s.world e.message stoppedProc).2) ∨
      (∃ e effect, s.execs id = some e ∧ e.phase = .acting (effect :: todo)) ∨
      ∃ e block authenticated now, s.execs id = some e ∧ e.reply = some block ∧
        todo = replyEffects block authenticated now := by
  have set : ∀ {m : System} {e : Exec}, (m.setExec id e).execs id = some e' →
      e.phase = .acting todo := by
    intro m e there
    rw [System.setExec_self, Option.some.injEq] at there
    rw [there, acting]
  cases l with
  | exec id' esMsg =>
    obtain ⟨_, _, same⟩ := step_exec h
    cases own
    rw [same] at there
    have arrives : arrivalPhase esMsg = .acting todo := set there
    unfold arrivalPhase at arrives
    split at arrives
    · cases arrives
    · exact .inl (Phase.acting.inj arrives).symm
  | check id' currentUptime =>
    obtain ⟨_, _, _, _, idle, same⟩ := step_check h
    cases own
    rw [same] at there
    exact absurd (set there) (idle todo)
  | expire id' =>
    obtain ⟨_, _, _, same⟩ := step_expire h
    cases own
    rw [same] at there
    cases set there
  | place id' =>
    obtain ⟨_, _, _, same⟩ := step_place h
    cases own
    rw [same] at there
    cases set there
  | decide id' stoppedProc =>
    obtain ⟨e, here, _, same⟩ := step_decide h
    cases own
    rw [same] at there
    exact .inr (.inl ⟨e, stoppedProc, rfl, here, (Phase.acting.inj (set there)).symm⟩)
  | act id' currentUptime interested =>
    obtain ⟨e, effect, rest, _, here, acts, _, same⟩ := step_act h
    cases own
    rw [same] at there
    rw [Phase.acting.inj (set there)] at acts
    exact .inr (.inr (.inl ⟨e, effect, here, acts⟩))
  | reply id' authenticated now =>
    obtain ⟨e, block, here, _, waiting, same⟩ := step_reply h
    cases own
    rw [same] at there
    exact .inr (.inr (.inr ⟨e, block, authenticated, now, here, waiting,
      (Phase.acting.inj (set there)).symm⟩))
  | change world | flush mode | writeClosed vnode => cases own

theorem step_acting {l : Label} (h : step s l = some t) {e : Exec} {todo : List Effect}
    (here : s.execs id = some e) (acting : e.phase = .acting todo) :
    ∃ e' todo', t.execs id = some e' ∧ e'.phase = .acting todo' ∧ e'.message = e.message ∧
      e'.epoch = e.epoch ∧ e'.decision = e.decision := by
  by_cases own : l.execution = some id
  · rcases acting_owns h here acting own with ⟨_, _, label, _⟩ | ⟨_, _, label, _⟩
    · subst label
      obtain ⟨e₁, _, rest, m, there, _, _, same⟩ := step_act h
      rw [here, Option.some.injEq] at there
      rw [same, there]
      exact ⟨_, rest, System.setExec_self m id _, rfl, rfl, rfl, rfl⟩
    · subst label
      obtain ⟨e₁, _, there, _, _, same⟩ := step_reply h
      rw [here, Option.some.injEq] at there
      rw [same, there]
      exact ⟨_, _, System.setExec_self s id _, rfl, rfl, rfl, rfl⟩
  · exact ⟨e, todo, (step_other h own).trans here, acting, rfl, rfl, rfl⟩

end

end SantaExecRuns
