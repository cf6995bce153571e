import Santa.Auth.ExecutionRuns
import Santa.Policy.Cacheability

/-!
Whose answers the cache of authorization results holds. An answer is stored only
over a placeholder, but the placeholder does not say whose it is: an evaluation
that started before a flush finds the placeholder of one that started after it.
And what is stored is the action, which for a block does not depend on whether
the decision may be cached.
-/
namespace SantaCachedAnswers
open SantaRule SantaPolicy SantaAuthCache SantaExec SantaExecRuns
open SantaCacheability (toolHash toolInfo toolSource monitorConfiguration secondArgumentRuntime)

/-! ### What posting does to the cache -/

theorem postAction_answer {cache : AuthResultCache} {vnode : SantaVnode} {action : SNTAction}
    {currentUptime : Nat} {interested : Bool} {posted : Posted}
    (valid : RESPONSE_VALID action = true)
    (h : postAction cache vnode action currentUptime interested = some posted) :
    (posted.stored, posted.cache) =
      cache.store vnode (cacheableAction action currentUptime) (some AuthResultCache.placeholder) := by
  cases action with
  | respondAllow => rw [← Option.some.inj h]
  | respondDeny => rw [← Option.some.inj h]
  | respondAllowCompiler => rw [← Option.some.inj h]
  | _ => exact nomatch valid

theorem answer_nonzero {action : SNTAction} (valid : RESPONSE_VALID action = true)
    (currentUptime : Nat) : cacheableAction action currentUptime ≠ default := by
  intro zero
  have unset : action = .unset := congrArg CachedAction.action zero
  rw [unset] at valid
  exact nomatch valid

theorem postAction_other {cache : AuthResultCache} {vnode : SantaVnode} {action : SNTAction}
    {currentUptime : Nat} {interested : Bool} {posted : Posted}
    (invalid : RESPONSE_VALID action = false)
    (h : postAction cache vnode action currentUptime interested = some posted) {v : SantaVnode}
    (valid : RESPONSE_VALID (posted.cache.get v).action = true) :
    posted.cache.get v = cache.get v := by
  have removed : RESPONSE_VALID ((cache.removeFromCache vnode).get v).action = true →
      (cache.removeFromCache vnode).get v = cache.get v := by
    rw [AuthResultCache.get_removeFromCache]
    split_ifs with same
    · exact nofun
    · exact fun _ => rfl
  cases action with
  | unset => exact nomatch h
  | requestBinary => exact nomatch h
  | respondAllow => exact nomatch invalid
  | respondDeny => exact nomatch invalid
  | respondAllowCompiler => exact nomatch invalid
  | respondAllowNoCache =>
    rw [← Option.some.inj h] at valid ⊢
    exact removed valid
  | holdAllowed =>
    rw [← Option.some.inj h] at valid ⊢
    exact removed valid
  | holdDenied =>
    rw [← Option.some.inj h] at valid ⊢
    exact removed valid
  | respondHold =>
    rw [← Option.some.inj h] at valid ⊢
    exact AuthResultCache.get_store_unanswered rfl valid

def Stores (s : System) (l : Label) (id : Nat) (e : Exec) : Prop :=
  ∃ currentUptime interested action todo, l = .act id currentUptime interested ∧
    s.execs id = some e ∧ e.phase = .acting (.post action :: todo) ∧
    RESPONSE_VALID action = true ∧ s.cache.get e.message.vnode = AuthResultCache.placeholder

theorem perform_answer {s m : System} {id : Nat} {vnode : SantaVnode} {currentUptime : Nat}
    {interested : Bool} {effect : Effect}
    (h : s.perform id vnode currentUptime interested effect = some m) {v : SantaVnode}
    (valid : RESPONSE_VALID (m.cache.get v).action = true) :
    (m.cache.get v = s.cache.get v ∧ m.author v = s.author v) ∨
      (v = vnode ∧ m.author v = some id ∧ s.cache.get vnode = AuthResultCache.placeholder ∧
        ∃ action, effect = .post action ∧ RESPONSE_VALID action = true) := by
  cases effect with
  | post action =>
    obtain ⟨posted, accepted, same⟩ := Option.map_eq_some_iff.mp h
    subst same
    cases answers : RESPONSE_VALID action with
    | false =>
      left
      exact ⟨postAction_other answers accepted valid, by simp⟩
    | true =>
      have outcome := postAction_answer answers accepted
      have stored := congrArg Prod.fst outcome
      have cache := congrArg Prod.snd outcome
      simp only at stored cache
      simp only [stored, cache] at valid ⊢
      by_cases waiting : s.cache.get vnode = AuthResultCache.placeholder
      · have success := AuthResultCache.store_accepted (answer_nonzero answers currentUptime) waiting
        by_cases same : v = vnode
        · right
          exact ⟨same, by simp [success, same], waiting, action, rfl, answers⟩
        · left
          refine ⟨?_, by simp [success, same]⟩
          rcases AuthResultCache.get_store_other (cacheableAction action currentUptime)
            (some AuthResultCache.placeholder) same with kept | lost
          · exact kept
          · rw [lost] at valid
            exact nomatch valid
      · left
        rw [AuthResultCache.store_refused waiting]
        exact ⟨AuthResultCache.get_store_refused waiting v, by simp⟩
  | _ =>
    rw [← Option.some.inj h]
    exact .inl ⟨rfl, rfl⟩

theorem answer_cases {s t : System} {l : Label} (h : step s l = some t) {v : SantaVnode}
    (valid : RESPONSE_VALID (t.cache.get v).action = true) :
    (t.cache.get v = s.cache.get v ∧ t.author v = s.author v ∧ t.epoch v = s.epoch v) ∨
      ∃ id e, Stores s l id e ∧ e.message.vnode = v ∧ t.author v = some id ∧ t.epoch = s.epoch := by
  cases l with
  | exec id esMsg =>
    obtain ⟨_, _, same⟩ := step_exec h
    rw [same]
    exact .inl ⟨rfl, rfl, rfl⟩
  | check id currentUptime =>
    obtain ⟨e, phase, _, _, _, same⟩ := step_check h
    rw [same]
    exact .inl ⟨rfl, rfl, rfl⟩
  | expire id =>
    obtain ⟨e, _, _, same⟩ := step_expire h
    rw [same] at valid ⊢
    refine .inl ⟨?_, rfl, rfl⟩
    simp only [AuthResultCache.get_removeFromCache] at valid ⊢
    split_ifs at valid ⊢
    · exact nomatch valid
    · rfl
  | place id =>
    obtain ⟨e, _, _, same⟩ := step_place h
    rw [same] at valid ⊢
    exact .inl ⟨AuthResultCache.get_store_unanswered rfl valid, rfl, rfl⟩
  | decide id stoppedProc =>
    obtain ⟨e, _, _, same⟩ := step_decide h
    rw [same]
    exact .inl ⟨rfl, rfl, rfl⟩
  | act id currentUptime interested =>
    obtain ⟨e, effect, todo, m, here, acting, performed, same⟩ := step_act h
    subst same
    obtain ⟨_, epoch, _⟩ := perform_frame performed
    rcases perform_answer performed valid with ⟨kept, author⟩ |
      ⟨same, author, waiting, action, post, answers⟩
    · exact .inl ⟨kept, author, congrFun epoch v⟩
    · subst post
      exact .inr ⟨id, e,
        ⟨currentUptime, interested, action, todo, rfl, here, acting, answers, waiting⟩,
        same.symm, author, epoch⟩
  | reply id authenticated now =>
    obtain ⟨e, block, _, _, _, same⟩ := step_reply h
    rw [same]
    exact .inl ⟨rfl, rfl, rfl⟩
  | change world =>
    rw [← Option.some.inj h]
    exact .inl ⟨rfl, rfl, rfl⟩
  | flush mode =>
    rw [← Option.some.inj h] at valid ⊢
    have get := AuthResultCache.get_flushCache s.cache mode v
    by_cases flushed : s.cache.flushes mode v = true
    · rw [if_pos flushed] at get
      simp only [get] at valid
      exact nomatch valid
    · rw [if_neg flushed] at get
      exact .inl ⟨get, rfl, if_neg flushed⟩
  | writeClosed vnode =>
    rw [← Option.some.inj h] at valid ⊢
    have get := AuthResultCache.get_removeFromCache s.cache vnode v
    by_cases removed : v = vnode
    · rw [if_pos removed] at get
      simp only [get] at valid
      exact nomatch valid
    · rw [if_neg removed] at get
      exact .inl ⟨get, rfl, if_neg removed⟩

theorem stores_author {s t : System} {l : Label} {id : Nat} {e : Exec} (stores : Stores s l id e)
    (h : step s l = some t) :
    RESPONSE_VALID (t.cache.get e.message.vnode).action = true ∧
      t.author e.message.vnode = some id ∧ t.epoch = s.epoch ∧
      ∃ e', t.execs id = some e' ∧ e'.message = e.message ∧ e'.epoch = e.epoch ∧
        e'.decision = e.decision := by
  obtain ⟨currentUptime, interested, action, todo, label, here, acting, answers, waiting⟩ := stores
  obtain ⟨e', _, here', _, message, epoch, decision⟩ := step_acting h here acting
  subst label
  obtain ⟨e₁, effect, rest, m, there, acting', performed, same⟩ := step_act h
  rw [here, Option.some.injEq] at there
  subst there
  rw [acting, Phase.acting.injEq, List.cons.injEq] at acting'
  obtain ⟨post, _⟩ := acting'
  subst post
  have frame := (perform_frame performed).2.1
  obtain ⟨posted, accepted, result⟩ := Option.map_eq_some_iff.mp performed
  have outcome := postAction_answer answers accepted
  have stored := congrArg Prod.fst outcome
  have cache := congrArg Prod.snd outcome
  simp only at stored cache
  rw [AuthResultCache.store_accepted (answer_nonzero answers currentUptime) waiting] at stored
  refine ⟨?_, ?_, ?_, e', here', message, epoch, decision⟩
  · rw [same, ← result]
    show RESPONSE_VALID (posted.cache.get e.message.vnode).action = true
    rw [cache, AuthResultCache.get_store_self waiting]
    exact answers
  · rw [same, ← result]
    simp [System.setExec, stored, answers]
  · rw [same]
    exact frame

/-! ### No decision from before a flush -/

/-- An answer that a check returns, by any clock, is that of an evaluation which started after
    the vnode's last flush or removal. -/
def AnswersCurrent (s : System) : Prop :=
  ∀ v currentUptime, RESPONSE_VALID (s.cache.checkCache v currentUptime).1 = true →
    ∃ id e, s.author v = some id ∧ s.execs id = some e ∧ e.message.vnode = v ∧
      e.epoch = s.epoch v

def PostsCurrent (s : System) (l : Label) : Prop :=
  ∀ id e, Stores s l id e → e.epoch = s.epoch e.message.vnode

def CurrentInv (s : System) : Prop :=
  ∀ v, RESPONSE_VALID (s.cache.get v).action = true →
    ∃ id e todo, s.author v = some id ∧ s.execs id = some e ∧ e.phase = .acting todo ∧
      e.message.vnode = v ∧ e.epoch = s.epoch v

theorem currentInv_start (rootDevno cacheDenyTimeMs : Nat) (world : World) :
    CurrentInv (.start rootDevno cacheDenyTimeMs world) := by
  intro v valid
  simp only [System.start, AuthResultCache.get_create] at valid
  exact absurd valid Bool.false_ne_true

theorem currentInv_step {s t : System} {l : Label} (inv : CurrentInv s) (met : PostsCurrent s l)
    (h : step s l = some t) : CurrentInv t := by
  intro v valid
  rcases answer_cases h valid with ⟨value, author, epoch⟩ | ⟨id, e, stores, vnode, author, epochs⟩
  · rw [value] at valid
    obtain ⟨id, e, todo, wrote, here, acting, vnode, current⟩ := inv v valid
    obtain ⟨e', todo', here', acting', message, kept, _⟩ := step_acting h here acting
    exact ⟨id, e', todo', author.trans wrote, here', acting', by rw [message, vnode],
      by rw [kept, current, epoch]⟩
  · have current := met id e stores
    obtain ⟨_, _, _, _, _, here, acting, _, _⟩ := stores
    obtain ⟨e', todo', here', acting', message, kept, _⟩ := step_acting h here acting
    refine ⟨id, e', todo', author, here', acting', by rw [message, vnode], ?_⟩
    rw [kept, current, epochs, vnode]

theorem answersCurrent_of_inv {s : System} (inv : CurrentInv s) : AnswersCurrent s := by
  intro v currentUptime valid
  rw [AuthResultCache.checkCache_stored valid] at valid
  obtain ⟨id, e, _, author, here, _, vnode, current⟩ := inv v valid
  exact ⟨id, e, author, here, vnode, current⟩

/-- In every run, from the daemon's start: the cache returns answers of evaluations that
    started after the vnode's last flush or removal only, exactly when no evaluation which
    started before it posts an answer while the cache holds a placeholder for the vnode. -/
theorem answers_current_iff (rootDevno cacheDenyTimeMs : Nat) (world : World) (run : List Label) :
    Runs.Always step AnswersCurrent (.start rootDevno cacheDenyTimeMs world) run ↔
      Runs.Meets step PostsCurrent (.start rootDevno cacheDenyTimeMs world) run := by
  refine Runs.always_iff_meets CurrentInv (fun _ => answersCurrent_of_inv)
    (fun _ _ _ => currentInv_step) ?_ (currentInv_start rootDevno cacheDenyTimeMs world) run
  intro s l t _ unmet h safe
  simp only [PostsCurrent, not_forall] at unmet
  obtain ⟨id, e, stores, stale⟩ := unmet
  obtain ⟨valid, author, epochs, e', here, _, kept, _⟩ := stores_author stores h
  rw [← AuthResultCache.checkCache_zero] at valid
  obtain ⟨id', e'', author', here', _, current⟩ := safe e.message.vnode 0 valid
  rw [author, Option.some.injEq] at author'
  subst author'
  rw [here, Option.some.injEq] at here'
  subst here'
  rw [kept, epochs] at current
  exact stale current

/-! ### An allow decided before a block rule -/

def toolVnode : SantaVnode := ⟨1, 42⟩

def toolWorld (source : RuleSource) : World :=
  ⟨source, monitorConfiguration, ⟨false, false, false, none, none⟩, none,
    fun _ => some ⟨toolInfo, false⟩⟩

def toolMessage (pid : Int) (args : List String) : ExecMessage :=
  ⟨toolVnode, 19, false, ⟨0, "", "", [], false⟩, (pid, 1),
    activationFor secondArgumentRuntime none ⟨args, [], 501, "/"⟩⟩

def emptySource : RuleSource := { toolSource with table := KeyedRows.empty }

def blockingSource : RuleSource :=
  { toolSource with
    table := KeyedRows.empty.put ⟨toolHash, .block, .binary, none, none, 0, none, none⟩ }

/-- The first execution decides by the old rules and posts once the second, which started after
    the flush, has stored its placeholder. -/
def overtakenRun : List Label :=
  [.exec 1 (toolMessage 100 ["tool"]), .check 1 0, .place 1, .decide 1 true,
    .change (toolWorld blockingSource), .flush .allCaches,
    .exec 2 (toolMessage 101 ["tool"]), .check 2 0, .place 2,
    .act 1 0 false, .act 1 0 false]

theorem old_decision_survives_flush :
    ¬ Runs.Always step AnswersCurrent (.start 1 1500 (toolWorld emptySource)) overtakenRun := by
  intro always
  have facts : (Runs.run step (.start 1 1500 (toolWorld emptySource)) overtakenRun).map (fun t =>
      ((t.cache.checkCache toolVnode 0).1, t.author toolVnode, (t.execs 1).map Exec.epoch,
        t.epoch toolVnode)) = some (.respondAllow, some 1, some 0, 1) := by
    decide
  obtain ⟨t, ends, facts⟩ := Option.map_eq_some_iff.mp facts
  simp only [Prod.mk.injEq] at facts
  obtain ⟨answer, author, epoch, now⟩ := facts
  obtain ⟨id, e, author', here, _, current⟩ :=
    Runs.always_last always ends toolVnode 0 (by rw [answer]; rfl)
  rw [author, Option.some.injEq] at author'
  rw [← author'] at here
  rw [here, Option.map_some, Option.some.injEq] at epoch
  omega

/-! ### No decision that may not be cached -/

def Answers (cd : SNTCachedDecision) (action : SNTAction) : Prop :=
  if cd.holdAndAsk then action = .respondHold ∨ action = .holdAllowed ∨ action = .holdDenied
  else action = actionFor cd

theorem mem_decisionEffects {config : EventConfig} {binInfo : BinaryInfo} {cd : SNTCachedDecision}
    {p : ProcessId} {stoppedProc : Bool} {effect : Effect}
    (member : effect ∈ decisionEffects config binInfo cd p stoppedProc) :
    (∀ action, effect = .post action → Answers cd action) ∧
      (effect.reply.isSome → cd.holdAndAsk = true) := by
  obtain ⟨log, shape, rest⟩ := decisionEffects_split config binInfo cd p stoppedProc
  rw [shape] at member
  rcases List.mem_cons.mp member with caches | member
  · rw [caches]
    exact ⟨fun _ => nofun, nofun⟩
  rcases List.mem_append.mp member with answer | logged
  · unfold answerEffects at answer
    split_ifs at answer with holds
    · simp only [List.mem_cons, List.not_mem_nil, or_false] at answer
      rcases answer with signal | suspend | post
      · rw [signal]
        exact ⟨fun _ => nofun, nofun⟩
      · rw [suspend]
        exact ⟨fun _ => nofun, nofun⟩
      · rw [post]
        refine ⟨?_, nofun⟩
        intro action same
        rw [← Effect.post.inj same, Answers, if_pos holds]
        exact .inl rfl
    · rw [List.mem_singleton.mp answer]
      refine ⟨?_, nofun⟩
      intro action same
      rw [← Effect.post.inj same, Answers, if_neg holds]
  · obtain ⟨neutral, asks⟩ := rest effect logged
    constructor
    · intro action same
      rw [same] at neutral
      exact nomatch neutral
    · intro reply
      obtain ⟨block, some⟩ := Option.isSome_iff_exists.mp reply
      exact (asks block some).1

theorem mem_replyEffects {block : ReplyBlock} {authenticated : Bool} {now : Nat} {effect : Effect}
    (member : effect ∈ replyEffects block authenticated now) :
    (∀ action, effect = .post action → action = .holdAllowed ∨ action = .holdDenied) ∧
      effect.reply = none := by
  rcases List.mem_append.mp member with release | after
  · obtain ⟨neutral, silent⟩ := neutral_release release
    refine ⟨?_, silent⟩
    intro action same
    rw [same] at neutral
    exact nomatch neutral
  · simp only [List.mem_cons, List.not_mem_nil, or_false] at after
    rcases after with signal | post
    · rw [signal]
      exact ⟨fun _ => nofun, rfl⟩
    · rw [post]
      refine ⟨?_, rfl⟩
      intro action same
      rw [← Effect.post.inj same]
      cases authenticated
      · exact .inr rfl
      · exact .inl rfl

structure ExecInv (e : Exec) (cd : SNTCachedDecision) : Prop where
  compiler : cd.cacheable = false → cd.decision.isAllowCompiler = false
  posts : ∀ todo action, e.phase = .acting todo → .post action ∈ todo → Answers cd action
  asks : ∀ todo effect, e.phase = .acting todo → effect ∈ todo →
    effect.reply.isSome → cd.holdAndAsk = true
  replies : e.reply.isSome → cd.holdAndAsk = true

def ExecsInv (s : System) : Prop :=
  ∀ id e cd, s.execs id = some e → e.decision = some cd → ExecInv e cd

theorem execInv_decided (world : World) (esMsg : ExecMessage) (stoppedProc : Bool)
    {e : Exec} {cd : SNTCachedDecision}
    (phase : e.phase = .acting (validateExecEvent world esMsg stoppedProc).2)
    (reply : e.reply = none) (decided : (validateExecEvent world esMsg stoppedProc).1 = some cd) :
    ExecInv e cd := by
  unfold validateExecEvent at phase decided
  cases file : world.file esMsg.vnode with
  | none => simp [file] at decided
  | some binInfo =>
    simp only [file] at phase decided
    by_cases proxy : printerProxyWorkaround world.printerProxyFileInfo binInfo.info = true
    · simp [proxy] at decided
    · rw [if_neg proxy] at phase decided
      have same := Option.some.inj decided
      simp only at same phase
      rw [same] at phase
      have acts : ∀ todo, e.phase = .acting todo →
          todo = decisionEffects world.eventConfig binInfo cd esMsg.pidAndVersion stoppedProc :=
        fun todo acting => Phase.acting.inj (acting.symm.trans phase)
      constructor
      · rw [← same]
        exact decisionForFileInfo_compiler
      · intro todo action acting member
        rw [acts todo acting] at member
        exact (mem_decisionEffects member).1 action rfl
      · intro todo effect acting member
        rw [acts todo acting] at member
        exact (mem_decisionEffects member).2
      · rw [reply]
        exact nofun

theorem execsInv_update {s t : System} {id : Nat} (e : Exec) (inv : ExecsInv s)
    (execs : t.execs = (s.setExec id e).execs)
    (new : ∀ cd, e.decision = some cd → ExecInv e cd) : ExecsInv t := by
  intro id' e' cd here decided
  rw [execs] at here
  rcases System.setExec_cases here with ⟨_, same⟩ | ⟨_, here⟩
  · rw [same] at decided ⊢
    exact new cd decided
  · exact inv id' e' cd here decided

theorem execInv_idle {e e' : Exec} {cd : SNTCachedDecision} (inv : ExecInv e cd)
    (reply : e'.reply = e.reply) (idle : ∀ todo, e'.phase ≠ .acting todo) : ExecInv e' cd :=
  ⟨inv.compiler, fun todo _ acting => absurd acting (idle todo),
    fun todo _ acting => absurd acting (idle todo), by rw [reply]; exact inv.replies⟩

theorem execsInv_step {s t : System} {l : Label} (inv : ExecsInv s) (h : step s l = some t) :
    ExecsInv t := by
  cases l with
  | exec id esMsg =>
    obtain ⟨_, _, same⟩ := step_exec h
    rw [same]
    exact execsInv_update _ inv rfl fun _ decided => nomatch decided
  | check id currentUptime =>
    obtain ⟨e, phase, here, _, idle, same⟩ := step_check h
    rw [same]
    exact execsInv_update _ inv rfl fun cd decided =>
      execInv_idle (inv id e cd here decided) rfl idle
  | expire id =>
    obtain ⟨e, here, _, same⟩ := step_expire h
    rw [same]
    exact execsInv_update _ inv rfl fun cd decided =>
      execInv_idle (inv id e cd here decided) rfl fun _ => nofun
  | place id =>
    obtain ⟨e, here, _, same⟩ := step_place h
    rw [same]
    exact execsInv_update _ inv rfl fun cd decided =>
      execInv_idle (inv id e cd here decided) rfl fun _ => nofun
  | decide id stoppedProc =>
    obtain ⟨e, _, _, same⟩ := step_decide h
    rw [same]
    refine execsInv_update _ inv rfl ?_
    intro cd decided
    exact execInv_decided s.world e.message stoppedProc rfl rfl decided
  | act id currentUptime interested =>
    obtain ⟨e, effect, todo, m, here, acting, performed, same⟩ := step_act h
    have execs := (perform_frame performed).1
    have updated : t.execs = (s.setExec id { e with
        phase := .acting todo
        reply := effect.reply.or e.reply }).execs := by
      rw [same]
      simp only [System.setExec, execs]
    refine execsInv_update _ inv updated ?_
    intro cd decided
    have old := inv id e cd here decided
    refine ⟨old.compiler, ?_, ?_, ?_⟩
    · intro rest action phase member
      rw [← Phase.acting.inj phase] at member
      exact old.posts _ action acting (List.mem_cons_of_mem _ member)
    · intro rest effect' phase member
      rw [← Phase.acting.inj phase] at member
      exact old.asks _ effect' acting (List.mem_cons_of_mem _ member)
    · intro asked
      cases reply : effect.reply with
      | some block => exact old.asks _ effect acting List.mem_cons_self (by rw [reply]; rfl)
      | none =>
        rw [reply, Option.none_or] at asked
        exact old.replies asked
  | reply id authenticated now =>
    obtain ⟨e, block, here, _, waiting, same⟩ := step_reply h
    rw [same]
    refine execsInv_update _ inv rfl ?_
    intro cd decided
    have old := inv id e cd here decided
    have holds := old.replies (by rw [waiting]; rfl)
    refine ⟨old.compiler, ?_, ?_, fun asked => nomatch asked⟩
    · intro todo action phase member
      rw [← Phase.acting.inj phase] at member
      rw [Answers, if_pos holds]
      exact .inr ((mem_replyEffects member).1 action rfl)
    · exact fun _ _ _ _ _ => holds
  | change world =>
    rw [← Option.some.inj h]
    exact inv
  | flush mode =>
    rw [← Option.some.inj h]
    exact inv
  | writeClosed vnode =>
    rw [← Option.some.inj h]
    exact inv

/-- An answer that a check returns was not stored for a decision marked not cacheable. -/
def AnswersCacheable (s : System) : Prop :=
  ∀ v currentUptime, RESPONSE_VALID (s.cache.checkCache v currentUptime).1 = true →
    ∀ id e cd, s.author v = some id → s.execs id = some e → e.decision = some cd →
      cd.cacheable = true

def PostsOver (s : System) (l : Label) (e : Exec) : Prop :=
  ∃ id currentUptime interested action todo, l = .act id currentUptime interested ∧
    s.execs id = some e ∧ e.phase = .acting (.post action :: todo) ∧
    s.cache.get e.message.vnode = AuthResultCache.placeholder

def NoPlainBlock (s : System) (l : Label) : Prop :=
  ∀ e cd, PostsOver s l e → e.decision = some cd → cd.cacheable = false →
    cd.decision.isAllow = true ∨ cd.holdAndAsk = true

structure CacheableInv (s : System) : Prop where
  execs : ExecsInv s
  stored : ∀ v, RESPONSE_VALID (s.cache.get v).action = true →
    ∃ id e todo, s.author v = some id ∧ s.execs id = some e ∧ e.phase = .acting todo ∧
      ∀ cd, e.decision = some cd → cd.cacheable = true

theorem actionFor_uncacheable {cd : SNTCachedDecision} (compiler : cd.decision.isAllowCompiler = false)
    (uncacheable : cd.cacheable = false) :
    actionFor cd = if cd.decision.isAllow then .respondAllowNoCache else .respondDeny := by
  simp [actionFor, compiler, uncacheable]

theorem cacheableInv_step {s t : System} {l : Label} (inv : CacheableInv s)
    (met : NoPlainBlock s l) (h : step s l = some t) : CacheableInv t := by
  refine ⟨execsInv_step inv.execs h, ?_⟩
  intro v valid
  rcases answer_cases h valid with ⟨value, author, _⟩ | ⟨id, e, stores, vnode, author, _⟩
  · rw [value] at valid
    obtain ⟨id, e, todo, wrote, here, acting, cacheable⟩ := inv.stored v valid
    obtain ⟨e', todo', here', acting', _, _, decision⟩ := step_acting h here acting
    exact ⟨id, e', todo', author.trans wrote, here', acting', by rw [decision]; exact cacheable⟩
  · obtain ⟨currentUptime, interested, action, todo, label, here, acting, answers, waiting⟩ := stores
    obtain ⟨e', todo', here', acting', _, _, decision⟩ := step_acting h here acting
    refine ⟨id, e', todo', author, here', acting', ?_⟩
    rw [decision]
    intro cd decided
    by_contra uncacheable
    rw [Bool.not_eq_true] at uncacheable
    have exec := inv.execs id e cd here decided
    have posted := exec.posts _ action acting List.mem_cons_self
    have allowed := met e cd ⟨id, currentUptime, interested, action, todo, label, here, acting,
      waiting⟩ decided uncacheable
    unfold Answers at posted
    split_ifs at posted with holds
    · rcases posted with post | post | post <;> rw [post] at answers <;> exact nomatch answers
    · rw [actionFor_uncacheable (exec.compiler uncacheable) uncacheable] at posted
      rw [if_pos (allowed.resolve_right holds)] at posted
      rw [posted] at answers
      exact nomatch answers

theorem answersCacheable_of_inv {s : System} (inv : CacheableInv s) : AnswersCacheable s := by
  intro v currentUptime valid id e cd author here decided
  rw [AuthResultCache.checkCache_stored valid] at valid
  obtain ⟨id', e', _, author', here', _, cacheable⟩ := inv.stored v valid
  rw [author, Option.some.injEq] at author'
  subst author'
  rw [here, Option.some.injEq] at here'
  subst here'
  exact cacheable cd decided

theorem cacheableInv_start (rootDevno cacheDenyTimeMs : Nat) (world : World) :
    CacheableInv (.start rootDevno cacheDenyTimeMs world) := by
  have empty : ExecsInv (.start rootDevno cacheDenyTimeMs world) :=
    fun _ _ _ here => nomatch here
  refine ⟨empty, ?_⟩
  intro v valid
  obtain ⟨_, _, _, author, _⟩ := currentInv_start rootDevno cacheDenyTimeMs world v valid
  exact nomatch author

/-- In every run, from the daemon's start: no check returns an answer stored for a decision that
    is not cacheable, exactly when no such decision that is a plain block is posted while the
    cache holds a placeholder for the vnode. -/
theorem answers_cacheable_iff (rootDevno cacheDenyTimeMs : Nat) (world : World)
    (run : List Label) :
    Runs.Always step AnswersCacheable (.start rootDevno cacheDenyTimeMs world) run ↔
      Runs.Meets step NoPlainBlock (.start rootDevno cacheDenyTimeMs world) run := by
  refine Runs.always_iff_meets CacheableInv (fun _ => answersCacheable_of_inv)
    (fun _ _ _ => cacheableInv_step) ?_ (cacheableInv_start rootDevno cacheDenyTimeMs world) run
  intro s l t inv unmet h safe
  simp only [NoPlainBlock, not_forall, not_or] at unmet
  obtain ⟨e, cd, ⟨id, currentUptime, interested, action, todo, label, here, acting, waiting⟩,
    decided, uncacheable, block, plain⟩ := unmet
  have exec := inv.execs id e cd here decided
  have posted := exec.posts _ action acting List.mem_cons_self
  rw [Answers, if_neg plain, actionFor_uncacheable (exec.compiler uncacheable) uncacheable,
    if_neg block] at posted
  have stores : Stores s l id e := ⟨currentUptime, interested, action, todo, label, here, acting,
    by rw [posted]; rfl, waiting⟩
  obtain ⟨valid, author, _, e', here', _, _, decision⟩ := stores_author stores h
  rw [← AuthResultCache.checkCache_zero] at valid
  have served := safe e.message.vnode 0 valid id e' cd author here' (by rw [decision, decided])
  rw [uncacheable] at served
  exact nomatch served

def shellFirstRun : List Label :=
  [.exec 1 (toolMessage 100 ["tool", "--shell"]), .check 1 0, .place 1, .decide 1 true,
    .act 1 0 false, .act 1 0 false]

theorem block_for_arguments_cached :
    ¬ Runs.Always step AnswersCacheable (.start 1 1500 (toolWorld toolSource)) shellFirstRun := by
  intro always
  have facts : (Runs.run step (.start 1 1500 (toolWorld toolSource)) shellFirstRun).map (fun t =>
      ((t.cache.checkCache toolVnode 0).1, t.author toolVnode,
        (t.execs 1).map fun e => e.decision.map SNTCachedDecision.cacheable)) =
      some (.respondDeny, some 1, some (some false)) := by
    decide
  obtain ⟨t, ends, facts⟩ := Option.map_eq_some_iff.mp facts
  simp only [Prod.mk.injEq] at facts
  obtain ⟨answer, author, uncacheable⟩ := facts
  obtain ⟨e, here, decision⟩ := Option.map_eq_some_iff.mp uncacheable
  obtain ⟨cd, decided, flag⟩ := Option.map_eq_some_iff.mp decision
  have served := Runs.always_last always ends toolVnode 0 (by rw [answer]; rfl) 1 e cd author here
    decided
  rw [flag] at served
  exact nomatch served

end SantaCachedAnswers
