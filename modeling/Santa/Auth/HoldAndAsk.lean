import Santa.Auth.ExecutionRuns

/-!
Executions that wait for their user. A decision that holds marks the process in
the signal cache and suspends it before Endpoint Security has its answer, and
leaves a reply block with the notification queue; the reply lets the process go
or kills it, and clears what the hold had set up. Between the two nobody else
can resume the process, as long as the signal cache does not overflow.
-/
namespace SantaHoldAndAsk
open SantaPolicy SantaAuthCache SantaExec SantaExecRuns

/-! ### One evaluation -/

def posts (effects : List Effect) : List SNTAction :=
  effects.filterMap fun
    | .post action => some action
    | _ => none

theorem posts_append (first second : List Effect) :
    posts (first ++ second) = posts first ++ posts second :=
  List.filterMap_append

theorem posts_neutral {effects : List Effect} (neutral : ∀ effect ∈ effects, effect.neutral = true) :
    posts effects = [] := by
  refine List.filterMap_eq_nil_iff.mpr ?_
  intro effect member
  cases effect with
  | post action => exact nomatch neutral _ member
  | _ => rfl

def respondActions : List SNTAction :=
  [.respondAllow, .respondAllowNoCache, .respondDeny, .respondAllowCompiler, .respondHold]

theorem actionFor_responds (cd : SNTCachedDecision) : actionFor cd ∈ respondActions := by
  unfold actionFor
  split_ifs <;> decide

theorem answer_posts (cd : SNTCachedDecision) (p : ProcessId) :
    ∃ action ∈ respondActions, posts (answerEffects cd p) = [action] := by
  unfold answerEffects
  split_ifs
  · exact ⟨.respondHold, by decide, rfl⟩
  · exact ⟨actionFor cd, actionFor_responds cd, rfl⟩

def PostsOnce (effects : List Effect) : Prop := ∃ action ∈ respondActions, posts effects = [action]

theorem decision_posts_once (config : EventConfig) (binInfo : BinaryInfo) (cd : SNTCachedDecision)
    (p : ProcessId) (stoppedProc : Bool) :
    PostsOnce (decisionEffects config binInfo cd p stoppedProc) := by
  obtain ⟨log, shape, neutral⟩ := decisionEffects_split config binInfo cd p stoppedProc
  obtain ⟨action, responds, posted⟩ := answer_posts cd p
  refine ⟨action, responds, ?_⟩
  rw [shape, ← List.singleton_append, posts_append, posts_append, posted,
    posts_neutral fun effect member => (neutral effect member).1]
  rfl

theorem evaluation_posts_once (world : World) (esMsg : ExecMessage) (stoppedProc : Bool) :
    PostsOnce (validateExecEvent world esMsg stoppedProc).2 := by
  unfold validateExecEvent
  cases world.file esMsg.vnode with
  | none =>
    cases world.config.failClosed
    · exact ⟨.respondAllow, by decide, rfl⟩
    · exact ⟨.respondDeny, by decide, rfl⟩
  | some binInfo =>
    simp only
    split_ifs
    · exact ⟨.respondDeny, by decide, rfl⟩
    · exact decision_posts_once _ _ _ _ _

/-- A process that is to be held is marked and suspended, then Endpoint Security is answered; the
    decision is a block that is not silent, and a reply block is queued. -/
structure HoldsFirst (cd : SNTCachedDecision) (p : ProcessId) (stoppedProc : Bool)
    (effects : List Effect) : Prop where
  block : cd.decision.isBlock = true
  loud : cd.silentBlock = false
  order : ∃ before after, posts before = [] ∧ posts after = [] ∧
    effects = before ++ [.setSignal p, .suspend p, .post .respondHold] ++ after
  queued : ∃ se customMsg customURL,
    .addEvent se customMsg customURL (some ⟨se, cd, p, stoppedProc⟩) ∈ effects

theorem isAllow_of_isBlock {state : SNTEventState} (block : state.isBlock = true) :
    state.isAllow = false ∧ state.isAllowCompiler = false := by
  cases state <;> first | exact ⟨rfl, rfl⟩ | exact absurd block (by decide)

theorem hold_queued (config : EventConfig) (binInfo : BinaryInfo) {cd : SNTCachedDecision}
    (p : ProcessId) (stoppedProc : Bool) (holds : cd.holdAndAsk = true)
    (block : cd.decision.isBlock = true) (loud : cd.silentBlock = false) :
    ∃ se customMsg customURL, .addEvent se customMsg customURL (some ⟨se, cd, p, stoppedProc⟩) ∈
      decisionEffects config binInfo cd p stoppedProc := by
  obtain ⟨notAllow, notCompiler⟩ := isAllow_of_isBlock block
  have logs : shouldLog config cd = true := by simp [shouldLog, notAllow]
  have blocks : SNTAction.allows (actionFor cd) = false := by
    simp [actionFor, notAllow, notCompiler, SNTAction.allows]
  refine ⟨storedEvent config binInfo cd p, cd.customMsg, cd.customURL.or config.eventDetailURL, ?_⟩
  refine List.mem_cons_of_mem _ (List.mem_append.mpr (.inr ?_))
  rw [if_pos logs]
  refine List.mem_append.mpr (.inr ?_)
  rw [blocks]
  refine List.mem_append.mpr (.inr ?_)
  rw [loud, holds]
  exact List.mem_cons_of_mem _ List.mem_cons_self

theorem holds_first {world : World} {esMsg : ExecMessage} {stoppedProc : Bool}
    {cd : SNTCachedDecision} (decided : (validateExecEvent world esMsg stoppedProc).1 = some cd)
    (holds : cd.holdAndAsk = true) :
    HoldsFirst cd esMsg.pidAndVersion stoppedProc (validateExecEvent world esMsg stoppedProc).2 := by
  unfold validateExecEvent at decided ⊢
  cases file : world.file esMsg.vnode with
  | none => simp [file] at decided
  | some binInfo =>
    simp only [file] at decided ⊢
    by_cases proxy : printerProxyWorkaround world.printerProxyFileInfo binInfo.info = true
    · simp [proxy] at decided
    · rw [if_neg proxy] at decided ⊢
      have made : decisionIn world esMsg binInfo = cd := Option.some.inj decided
      simp only [made]
      obtain ⟨block, loud⟩ : cd.decision.isBlock = true ∧ cd.silentBlock = false := by
        rw [← made] at holds ⊢
        exact decisionForFileInfo_holds holds
      refine ⟨block, loud, ?_, hold_queued _ binInfo _ _ holds block loud⟩
      obtain ⟨log, shape, neutral⟩ := decisionEffects_split world.eventConfig binInfo cd
        esMsg.pidAndVersion stoppedProc
      refine ⟨[.cacheDecision cd], log, rfl, posts_neutral fun e member => (neutral e member).1, ?_⟩
      rw [shape, answerEffects, if_pos holds]
      rfl

/-! ### The reply -/

/-- The process runs on exactly when the user agreed, and is killed otherwise; its mark is
    removed, and so is the vnode's entry in the cache of authorization results. -/
structure Settles (block : ReplyBlock) (authenticated : Bool) (effects : List Effect) : Prop where
  resumed : .resume block.pidAndVersion ∈ effects ↔ authenticated = true
  killed : .kill block.pidAndVersion ∈ effects ↔ authenticated = false
  unmarked : .removeSignal block.pidAndVersion ∈ effects
  posted : posts effects = [if authenticated then .holdAllowed else .holdDenied]

theorem approved_resumes (block : ReplyBlock) (now : Nat) :
    .resume block.pidAndVersion ∈ approvedEffects block now ∧
      .kill block.pidAndVersion ∉ approvedEffects block now := by
  constructor
  · exact List.mem_append.mpr (.inr List.mem_cons_self)
  · intro member
    rcases List.mem_append.mp member with before | resume
    · rcases List.mem_append.mp before with rule | tty
      · split_ifs at rule
        · obtain ⟨_, _, same⟩ := List.mem_map.mp rule
          exact nomatch same
        · exact nomatch rule
      · split_ifs at tty
        · exact nomatch List.mem_singleton.mp tty
        · exact nomatch tty
    · exact nomatch List.mem_singleton.mp resume

theorem declined_kills (block : ReplyBlock) :
    .kill block.pidAndVersion ∈ declinedEffects block ∧
      .resume block.pidAndVersion ∉ declinedEffects block := by
  constructor
  · exact List.mem_append.mpr (.inr List.mem_cons_self)
  · intro member
    rcases List.mem_append.mp member with tty | kill
    · split_ifs at tty
      · exact nomatch List.mem_singleton.mp tty
      · exact nomatch tty
    · exact nomatch List.mem_singleton.mp kill

theorem reply_settles (block : ReplyBlock) (authenticated : Bool) (now : Nat) :
    Settles block authenticated (replyEffects block authenticated now) := by
  have closing : ∀ effect ∈ [Effect.removeSignal block.pidAndVersion,
      .post (if authenticated then .holdAllowed else .holdDenied)],
      effect ≠ .resume block.pidAndVersion ∧ effect ≠ .kill block.pidAndVersion := by
    simp
  have mem_iff : ∀ effect,
      (effect = .resume block.pidAndVersion ∨ effect = .kill block.pidAndVersion) →
      (effect ∈ replyEffects block authenticated now ↔
        effect ∈ (if authenticated then approvedEffects block now else declinedEffects block)) := by
    intro effect kind
    rw [replyEffects, List.mem_append, or_iff_left]
    intro member
    obtain ⟨notResume, notKill⟩ := closing effect member
    exact kind.elim notResume notKill
  constructor
  · rw [mem_iff _ (.inl rfl)]
    cases authenticated with
    | true => simpa using (approved_resumes block now).1
    | false => simpa using (declined_kills block).2
  · rw [mem_iff _ (.inr rfl)]
    cases authenticated with
    | true => simpa using (approved_resumes block now).2
    | false => simpa using (declined_kills block).1
  · exact List.mem_append.mpr (.inr List.mem_cons_self)
  · rw [replyEffects, posts_append, posts_neutral fun e member => (neutral_release member).1]
    rfl

theorem reply_forgets (s : System) (id : Nat) (vnode : SantaVnode) (currentUptime : Nat)
    (interested authenticated : Bool) (p : ProcessId) :
    (∃ t, s.perform id vnode currentUptime interested (.removeSignal p) = some t ∧
        t.procSignalCache.get p = false) ∧
      ∃ t, s.perform id vnode currentUptime interested
          (.post (if authenticated then .holdAllowed else .holdDenied)) = some t ∧
        t.cache.get vnode = default := by
  constructor
  · refine ⟨_, rfl, ?_⟩
    show (s.procSignalCache.remove p).get p = false
    rw [SantaCache.get_remove, if_pos rfl]
    rfl
  · have removed : (s.cache.removeFromCache vnode).get vnode = default := by
      rw [AuthResultCache.get_removeFromCache, if_pos rfl]
    cases authenticated with
    | true => exact ⟨_, rfl, removed⟩
    | false => exact ⟨_, rfl, removed⟩

/-! ### Between suspension and reply -/

def Ordered (p : ProcessId) (marked : Prop) : List Effect → Prop
  | [] => True
  | .setSignal q :: rest => q = p ∧ Ordered p True rest
  | .suspend q :: rest => q = p ∧ marked ∧ Ordered p marked rest
  | _ :: rest => Ordered p marked rest

theorem ordered_mono {p : ProcessId} {m m' : Prop} (weaker : m → m') {todo : List Effect}
    (h : Ordered p m todo) : Ordered p m' todo := by
  induction todo generalizing m m' with
  | nil => trivial
  | cons effect todo ih =>
    cases effect with
    | setSignal q => exact h
    | suspend q => exact ⟨h.1, weaker h.2.1, ih weaker h.2.2⟩
    | _ => exact ih weaker h

theorem ordered_of_no_suspend {p : ProcessId} {m m' : Prop} {todo : List Effect}
    (none : ∀ q, .suspend q ∉ todo) (h : Ordered p m todo) : Ordered p m' todo := by
  induction todo generalizing m m' with
  | nil => trivial
  | cons effect todo ih =>
    have later : ∀ q, .suspend q ∉ todo := fun q member => none q (List.mem_cons_of_mem _ member)
    cases effect with
    | setSignal q => exact h
    | suspend q => exact absurd List.mem_cons_self (none q)
    | _ => exact ih later h

theorem ordered_append {p : ProcessId} {m : Prop} {before after : List Effect}
    (neutral : ∀ effect ∈ before, effect.neutral = true) (h : Ordered p m after) :
    Ordered p m (before ++ after) := by
  induction before with
  | nil => exact h
  | cons effect before ih =>
    have later := ih fun e member => neutral e (List.mem_cons_of_mem _ member)
    cases effect with
    | setSignal q => exact nomatch neutral _ List.mem_cons_self
    | suspend q => exact nomatch neutral _ List.mem_cons_self
    | _ => exact later

theorem ordered_neutral {p : ProcessId} {m : Prop} {todo : List Effect}
    (neutral : ∀ effect ∈ todo, effect.neutral = true) : Ordered p m todo := by
  rw [← List.append_nil todo]
  exact ordered_append neutral trivial

structure TodoInv (s : System) (p : ProcessId) (todo : List Effect) : Prop where
  ordered : Ordered p (s.procSignalCache.get p = true) todo
  removes : ∀ q, .removeSignal q ∈ todo → q = p ∧ p ∉ s.held ∧ ∀ r, .suspend r ∉ todo
  replies : ∀ effect ∈ todo, ∀ block, effect.reply = some block → block.pidAndVersion = p

structure HoldInv (s : System) : Prop where
  known : ∀ id e, s.execs id = some e → e.message.pidAndVersion ∈ s.seen
  apart : ∀ id id' e e', s.execs id = some e → s.execs id' = some e' →
    e.message.pidAndVersion = e'.message.pidAndVersion → id = id'
  size : s.procSignalCache.maxSize = procSignalCacheSize
  covered : ∀ p, s.procSignalCache.get p = true → p ∈ s.marked
  held : ∀ p ∈ s.held, s.procSignalCache.get p = true
  todos : ∀ id e todo, s.execs id = some e → e.phase = .acting todo →
    TodoInv s e.message.pidAndVersion todo
  replies : ∀ id e block, s.execs id = some e → e.reply = some block →
    block.pidAndVersion = e.message.pidAndVersion

theorem holdInv_update {s t : System} {id : Nat} {e₀ e : Exec} (inv : HoldInv s)
    (here : s.execs id = some e₀) (message : e.message = e₀.message)
    (execs : t.execs = (s.setExec id e).execs) (seen : t.seen = s.seen)
    (size : t.procSignalCache.maxSize = s.procSignalCache.maxSize)
    (others : ∀ q, q ≠ e.message.pidAndVersion →
      t.procSignalCache.get q = s.procSignalCache.get q ∧ (q ∈ t.held → q ∈ s.held))
    (covered : ∀ q, t.procSignalCache.get q = true → q ∈ t.marked)
    (own : e.message.pidAndVersion ∈ t.held →
      t.procSignalCache.get e.message.pidAndVersion = true)
    (todos : ∀ todo, e.phase = .acting todo → TodoInv t e.message.pidAndVersion todo)
    (replies : ∀ block, e.reply = some block → block.pidAndVersion = e.message.pidAndVersion) :
    HoldInv t := by
  have cases : ∀ id' e', t.execs id' = some e' →
      (id' = id ∧ e' = e) ∨ (id' ≠ id ∧ s.execs id' = some e') := by
    intro id' e' there
    rw [execs] at there
    exact System.setExec_cases there
  have distinct : ∀ id' e', id' ≠ id → s.execs id' = some e' →
      e'.message.pidAndVersion ≠ e.message.pidAndVersion := by
    intro id' e' other there equal
    rw [message] at equal
    exact other (inv.apart id' id e' e₀ there here equal)
  constructor
  · intro id' e' there
    rw [seen]
    rcases cases id' e' there with ⟨_, same⟩ | ⟨_, there⟩
    · rw [same, message]
      exact inv.known id e₀ here
    · exact inv.known id' e' there
  · intro i j e₁ e₂ first second equal
    rcases cases i e₁ first with ⟨one, same⟩ | ⟨other, first⟩
    · rcases cases j e₂ second with ⟨two, _⟩ | ⟨other', second⟩
      · rw [one, two]
      · rw [same] at equal
        exact absurd equal.symm (distinct j e₂ other' second)
    · rcases cases j e₂ second with ⟨two, same'⟩ | ⟨_, second⟩
      · rw [same'] at equal
        exact absurd equal (distinct i e₁ other first)
      · exact inv.apart i j e₁ e₂ first second equal
  · exact size.trans inv.size
  · exact covered
  · intro p member
    by_cases mine : p = e.message.pidAndVersion
    · rw [mine] at member ⊢
      exact own member
    · rw [(others p mine).1]
      exact inv.held p ((others p mine).2 member)
  · intro id' e' todo there acting
    rcases cases id' e' there with ⟨_, same⟩ | ⟨other, there⟩
    · rw [same] at acting ⊢
      exact todos todo acting
    · have apart := others _ (distinct id' e' other there)
      have old := inv.todos id' e' todo there acting
      refine ⟨?_, ?_, old.replies⟩
      · rw [apart.1]
        exact old.ordered
      · intro q member
        obtain ⟨mine, released, later⟩ := old.removes q member
        exact ⟨mine, fun held => released (apart.2 held), later⟩
  · intro id' e' block there reply
    rcases cases id' e' there with ⟨_, same⟩ | ⟨_, there⟩
    · rw [same] at reply ⊢
      exact replies block reply
    · exact inv.replies id' e' block there reply

theorem holdInv_quiet {s t : System} {id : Nat} {e₀ e : Exec} (inv : HoldInv s)
    (here : s.execs id = some e₀) (message : e.message = e₀.message)
    (execs : t.execs = (s.setExec id e).execs) (seen : t.seen = s.seen)
    (signals : t.procSignalCache = s.procSignalCache) (marked : t.marked = s.marked)
    (held : t.held = s.held)
    (todos : ∀ todo, e.phase = .acting todo → TodoInv s e.message.pidAndVersion todo)
    (replies : ∀ block, e.reply = some block → block.pidAndVersion = e.message.pidAndVersion) :
    HoldInv t := by
  refine holdInv_update inv here message execs seen (by rw [signals]) ?_ ?_ ?_ ?_ replies
  · intro q _
    rw [signals, held]
    exact ⟨rfl, fun member => member⟩
  · rw [signals, marked]
    exact inv.covered
  · rw [signals, held]
    exact inv.held _
  · intro todo acting
    obtain ⟨ordered, removes, asks⟩ := todos todo acting
    exact ⟨by rw [signals]; exact ordered, by rw [held]; exact removes, asks⟩

theorem holdInv_frame {s t : System} (inv : HoldInv s) (execs : t.execs = s.execs)
    (seen : t.seen = s.seen) (signals : t.procSignalCache = s.procSignalCache)
    (marked : t.marked = s.marked) (held : t.held = s.held) : HoldInv t := by
  refine ⟨?_, ?_, ?_, ?_, ?_, ?_, ?_⟩
  · rw [execs, seen]
    exact inv.known
  · rw [execs]
    exact inv.apart
  · rw [signals]
    exact inv.size
  · rw [signals, marked]
    exact inv.covered
  · rw [signals, held]
    exact inv.held
  · intro id e todo here acting
    rw [execs] at here
    obtain ⟨ordered, removes, asks⟩ := inv.todos id e todo here acting
    exact ⟨by rw [signals]; exact ordered, by rw [held]; exact removes, asks⟩
  · rw [execs]
    exact inv.replies

theorem todoInv_post {s : System} {p : ProcessId} (action : SNTAction) :
    TodoInv s p [.post action] := by
  refine ⟨trivial, ?_, ?_⟩
  · intro q member
    exact nomatch List.mem_singleton.mp member
  · intro effect member block asks
    rw [List.mem_singleton.mp member] at asks
    exact nomatch asks

theorem todoInv_decided {s : System} {world : World} {esMsg : ExecMessage} {stoppedProc : Bool} :
    TodoInv s esMsg.pidAndVersion (validateExecEvent world esMsg stoppedProc).2 := by
  unfold validateExecEvent
  cases world.file esMsg.vnode with
  | none => exact todoInv_post _
  | some binInfo =>
    simp only
    split_ifs
    · exact todoInv_post _
    · generalize decisionIn world esMsg binInfo = cd
      obtain ⟨log, shape, rest⟩ := decisionEffects_split world.eventConfig binInfo cd
        esMsg.pidAndVersion stoppedProc
      simp only [shape]
      have logOrdered : ∀ m, Ordered esMsg.pidAndVersion m log :=
        fun m => ordered_neutral fun effect member => (rest effect member).1
      unfold answerEffects
      split_ifs with holds
      · refine ⟨⟨rfl, rfl, trivial, logOrdered True⟩, ?_, ?_⟩
        · intro q member
          simp only [List.cons_append, List.nil_append, List.mem_cons, reduceCtorEq, false_or] at member
          exact nomatch (rest _ member).1
        · intro effect member block asks
          simp only [List.cons_append, List.nil_append, List.mem_cons] at member
          rcases member with caches | signal | suspend | post | logged
          · rw [caches] at asks
            exact nomatch asks
          · rw [signal] at asks
            exact nomatch asks
          · rw [suspend] at asks
            exact nomatch asks
          · rw [post] at asks
            exact nomatch asks
          · exact ((rest effect logged).2 block asks).2
      · refine ⟨logOrdered _, ?_, ?_⟩
        · intro q member
          simp only [List.cons_append, List.nil_append, List.mem_cons, reduceCtorEq, false_or] at member
          exact nomatch (rest _ member).1
        · intro effect member block asks
          simp only [List.cons_append, List.nil_append, List.mem_cons] at member
          rcases member with caches | post | logged
          · rw [caches] at asks
            exact nomatch asks
          · rw [post] at asks
            exact nomatch asks
          · exact ((rest effect logged).2 block asks).2

theorem todoInv_reply {s : System} {block : ReplyBlock} {authenticated : Bool} {now : Nat}
    (released : block.pidAndVersion ∉ s.held) :
    TodoInv s block.pidAndVersion (replyEffects block authenticated now) := by
  have release (effect : Effect) (member : effect ∈ if authenticated then approvedEffects block now
      else declinedEffects block) : effect.neutral = true ∧ effect.reply = none :=
    neutral_release member
  have noSuspend : ∀ r, .suspend r ∉ replyEffects block authenticated now := by
    intro r member
    rcases List.mem_append.mp member with before | after
    · exact nomatch (release _ before).1
    · simp at after
  refine ⟨?_, ?_, ?_⟩
  · exact ordered_append (fun effect member => (release effect member).1) trivial
  · intro q member
    rcases List.mem_append.mp member with before | after
    · exact nomatch (release _ before).1
    · simp only [List.mem_cons, Effect.removeSignal.injEq, List.not_mem_nil, or_false,
        reduceCtorEq] at after
      exact ⟨after, released, noSuspend⟩
  · intro effect member asked asks
    rcases List.mem_append.mp member with before | after
    · rw [(release _ before).2] at asks
      exact nomatch asks
    · simp only [List.mem_cons, List.not_mem_nil, or_false] at after
      rcases after with signal | post
      · rw [signal] at asks
        exact nomatch asks
      · rw [post] at asks
        exact nomatch asks

theorem todoInv_tail {s : System} {p : ProcessId} {effect : Effect} {todo : List Effect}
    (h : TodoInv s p (effect :: todo))
    (ordered : Ordered p (s.procSignalCache.get p = true) todo) : TodoInv s p todo := by
  refine ⟨ordered, ?_, fun e member => h.replies e (List.mem_cons_of_mem _ member)⟩
  intro q member
  obtain ⟨mine, released, later⟩ := h.removes q (List.mem_cons_of_mem _ member)
  exact ⟨mine, released, fun r suspend => later r (List.mem_cons_of_mem _ suspend)⟩

/-- Fewer executions wait for their user than the signal cache can hold. -/
def FewerHolds (s : System) (_ : Label) : Prop := s.marked.length < procSignalCacheSize

instance (s : System) (l : Label) : Decidable (FewerHolds s l) :=
  inferInstanceAs (Decidable (_ < _))

theorem holdInv_mark {s t : System} {id : Nat} {e : Exec} {q : ProcessId} {todo : List Effect}
    (inv : HoldInv s) (fewer : s.marked.length < procSignalCacheSize) (here : s.execs id = some e)
    (acting : e.phase = .acting (.setSignal q :: todo))
    (same : t = { s with
      procSignalCache := (s.procSignalCache.set q true none).2
      marked := q :: s.marked }.setExec id { e with phase := .acting todo }) : HoldInv t := by
  have old := inv.todos id e _ here acting
  obtain ⟨mine, ordered⟩ : q = e.message.pidAndVersion ∧ Ordered _ True todo := old.ordered
  have room : ¬ s.procSignalCache.maxSize < s.procSignalCache.count + 1 := by
    have count := SantaCache.count_le (c := s.procSignalCache) s.marked
      fun p stored => inv.covered p (by simpa using stored)
    rw [inv.size]
    omega
  have marked : (s.procSignalCache.set q true none).2.get q = true := SantaCache.get_set_self rfl
  have kept : ∀ p, p ≠ q → (s.procSignalCache.set q true none).2.get p = s.procSignalCache.get p :=
    fun p other => (SantaCache.get_set_other _ _ other).resolve_right fun full => room full.1
  subst same
  refine holdInv_update inv here (e := { e with phase := .acting todo }) rfl rfl rfl
    (SantaCache.maxSize_set _ _ _ _) ?_ ?_ ?_ ?_ (inv.replies id e · here)
  · intro p other
    exact ⟨kept p (by rw [mine]; exact other), fun member => member⟩
  · intro p stored
    by_cases this : p = q
    · rw [this]
      exact List.mem_cons_self
    · exact List.mem_cons_of_mem _ (inv.covered p ((kept p this).symm.trans stored))
  · rw [← mine]
    exact fun _ => marked
  · intro todo' phase
    rw [← Phase.acting.inj phase]
    refine ⟨ordered_mono (fun _ => ?_) ordered, ?_, ?_⟩
    · rw [← mine]
      exact marked
    · intro r member
      obtain ⟨own, released, later⟩ := old.removes r (List.mem_cons_of_mem _ member)
      exact ⟨own, released, fun p suspend => later p (List.mem_cons_of_mem _ suspend)⟩
    · exact fun effect member => old.replies effect (List.mem_cons_of_mem _ member)

theorem holdInv_suspend {s t : System} {id : Nat} {e : Exec} {q : ProcessId} {todo : List Effect}
    (inv : HoldInv s) (here : s.execs id = some e)
    (acting : e.phase = .acting (.suspend q :: todo))
    (same : t = { s with held := q :: s.held }.setExec id { e with phase := .acting todo }) :
    HoldInv t := by
  have old := inv.todos id e _ here acting
  obtain ⟨mine, marked, ordered⟩ : q = e.message.pidAndVersion ∧ _ ∧ Ordered _ _ todo := old.ordered
  subst same
  refine holdInv_update inv here (e := { e with phase := .acting todo }) rfl rfl rfl rfl ?_
    inv.covered (fun _ => marked) ?_ (inv.replies id e · here)
  · intro p other
    refine ⟨rfl, fun member => (List.mem_cons.mp member).resolve_left ?_⟩
    rw [mine]
    exact other
  · intro todo' phase
    rw [← Phase.acting.inj phase]
    refine ⟨ordered, ?_, fun effect member => old.replies effect (List.mem_cons_of_mem _ member)⟩
    intro r member
    exact absurd List.mem_cons_self ((old.removes r (List.mem_cons_of_mem _ member)).2.2 q)

theorem holdInv_unmark {s t : System} {id : Nat} {e : Exec} {q : ProcessId} {todo : List Effect}
    (inv : HoldInv s) (here : s.execs id = some e)
    (acting : e.phase = .acting (.removeSignal q :: todo))
    (same : t = { s with
      procSignalCache := s.procSignalCache.remove q
      marked := s.marked.filter (· ≠ q) }.setExec id { e with phase := .acting todo }) :
    HoldInv t := by
  have old := inv.todos id e _ here acting
  obtain ⟨mine, released, later⟩ := old.removes q List.mem_cons_self
  have quiet : ∀ r, .suspend r ∉ todo := fun r member => later r (List.mem_cons_of_mem _ member)
  subst same
  refine holdInv_update inv here (e := { e with phase := .acting todo }) rfl rfl rfl
    (SantaCache.maxSize_set _ _ _ _) ?_ ?_ (fun held => absurd held released) ?_
    (inv.replies id e · here)
  · intro p other
    refine ⟨?_, fun member => member⟩
    show (s.procSignalCache.remove q).get p = s.procSignalCache.get p
    rw [SantaCache.get_remove, if_neg (by rw [mine]; exact other)]
  · intro p stored
    have stored : (s.procSignalCache.remove q).get p = true := stored
    rw [SantaCache.get_remove] at stored
    split at stored
    · exact absurd stored Bool.false_ne_true
    · rename_i other
      exact List.mem_filter.mpr ⟨inv.covered p stored, decide_eq_true other⟩
  · intro todo' phase
    rw [← Phase.acting.inj phase]
    refine ⟨ordered_of_no_suspend quiet old.ordered, ?_,
      fun effect member => old.replies effect (List.mem_cons_of_mem _ member)⟩
    intro r member
    exact ⟨(old.removes r (List.mem_cons_of_mem _ member)).1, released, quiet⟩

theorem holdInv_act {s t : System} {id currentUptime : Nat} {interested : Bool} (inv : HoldInv s)
    (fewer : s.marked.length < procSignalCacheSize)
    (h : step s (.act id currentUptime interested) = some t) : HoldInv t := by
  obtain ⟨e, effect, todo, m, here, acting, performed, same⟩ := step_act h
  have old := inv.todos id e _ here acting
  have replies : ∀ block, effect.reply.or e.reply = some block →
      block.pidAndVersion = e.message.pidAndVersion := by
    intro block reply
    rcases Option.or_eq_some_iff.mp reply with new | ⟨_, kept⟩
    · exact old.replies effect List.mem_cons_self block new
    · exact inv.replies id e block here kept
  have passive : ∀ (m : System), m.execs = s.execs → m.seen = s.seen →
      m.procSignalCache = s.procSignalCache → m.marked = s.marked → m.held = s.held →
      Ordered e.message.pidAndVersion (s.procSignalCache.get e.message.pidAndVersion = true) todo →
      HoldInv (m.setExec id { e with
        phase := .acting todo
        reply := effect.reply.or e.reply }) := by
    intro m execs seen signals marked held ordered
    refine holdInv_quiet inv here (e := { e with
      phase := .acting todo
      reply := effect.reply.or e.reply }) rfl ?_ seen signals marked held ?_ replies
    · simp only [System.setExec, execs]
    · intro todo' phase
      rw [← Phase.acting.inj phase]
      exact todoInv_tail old ordered
  cases effect with
  | setSignal q =>
    rw [← Option.some.inj performed] at same
    exact holdInv_mark inv fewer here acting same
  | suspend q =>
    rw [← Option.some.inj performed] at same
    exact holdInv_suspend inv here acting same
  | removeSignal q =>
    rw [← Option.some.inj performed] at same
    exact holdInv_unmark inv here acting same
  | post action =>
    obtain ⟨posted, _, result⟩ := Option.map_eq_some_iff.mp performed
    rw [same, ← result]
    exact passive _ rfl rfl rfl rfl rfl old.ordered
  | _ =>
    rw [same, ← Option.some.inj performed]
    exact passive _ rfl rfl rfl rfl rfl old.ordered

theorem holdInv_exec {s t : System} {id : Nat} {esMsg : ExecMessage} (inv : HoldInv s)
    (h : step s (.exec id esMsg) = some t) : HoldInv t := by
  obtain ⟨fresh, unknown, same⟩ := step_exec h
  subst same
  have new : ∀ id' e', s.execs id' = some e' → e'.message.pidAndVersion ≠ esMsg.pidAndVersion := by
    intro id' e' there equal
    have known := inv.known id' e' there
    rw [equal] at known
    exact unknown known
  refine ⟨?_, ?_, inv.size, inv.covered, inv.held, ?_, ?_⟩
  · intro id' e' there
    rcases System.setExec_cases there with ⟨_, this⟩ | ⟨_, there⟩
    · rw [this]
      exact List.mem_cons_self
    · exact List.mem_cons_of_mem _ (inv.known id' e' there)
  · intro i j e₁ e₂ first second equal
    rcases System.setExec_cases first with ⟨one, this⟩ | ⟨_, first⟩
    · rcases System.setExec_cases second with ⟨two, _⟩ | ⟨_, second⟩
      · rw [one, two]
      · rw [this] at equal
        exact absurd equal.symm (new j e₂ second)
    · rcases System.setExec_cases second with ⟨_, this⟩ | ⟨_, second⟩
      · rw [this] at equal
        exact absurd equal (new i e₁ first)
      · exact inv.apart i j e₁ e₂ first second equal
  · intro id' e' todo there acting
    rcases System.setExec_cases there with ⟨_, this⟩ | ⟨_, there⟩
    · rw [this] at acting ⊢
      unfold arrivalPhase at acting
      simp only at acting
      split_ifs at acting
      rw [← Phase.acting.inj acting]
      exact todoInv_post _
    · obtain ⟨ordered, removes, asks⟩ := inv.todos id' e' todo there acting
      exact ⟨ordered, removes, asks⟩
  · intro id' e' block there reply
    rcases System.setExec_cases there with ⟨_, this⟩ | ⟨_, there⟩
    · rw [this] at reply
      exact nomatch reply
    · exact inv.replies id' e' block there reply

theorem holdInv_reply {s t : System} {id now : Nat} {authenticated : Bool} (inv : HoldInv s)
    (h : step s (.reply id authenticated now) = some t) : HoldInv t := by
  obtain ⟨e, block, here, _, waiting, same⟩ := step_reply h
  have mine := inv.replies id e block here waiting
  subst same
  refine holdInv_update inv here (e := { e with
    phase := .acting (replyEffects block authenticated now)
    reply := none }) rfl rfl rfl rfl ?_ inv.covered ?_ ?_ (fun _ reply => nomatch reply)
  · exact fun p _ => ⟨rfl, fun member => (List.mem_filter.mp member).1⟩
  · exact fun member => inv.held _ (List.mem_filter.mp member).1
  · intro todo phase
    rw [← Phase.acting.inj phase]
    simp only [← mine]
    exact todoInv_reply fun member => by simpa using (List.mem_filter.mp member).2

theorem holdInv_step {s t : System} {l : Label} (inv : HoldInv s) (fewer : FewerHolds s l)
    (h : step s l = some t) : HoldInv t := by
  -- an execution that has no effects to perform has nothing to keep
  have idle : ∀ {id : Nat} {e : Exec} (e' : Exec) {m : System}, s.execs id = some e →
      e'.message = e.message → e'.reply = e.reply → (∀ todo, e'.phase ≠ .acting todo) →
      m.execs = (s.setExec id e').execs → m.seen = s.seen →
      m.procSignalCache = s.procSignalCache → m.marked = s.marked → m.held = s.held →
      HoldInv m := by
    intro id e e' m here message reply idle execs seen signals marked held
    refine holdInv_quiet inv here message execs seen signals marked held
      (fun todo acting => absurd acting (idle todo)) ?_
    intro block asked
    rw [message]
    exact inv.replies id e block here (reply.symm.trans asked)
  cases l with
  | exec id esMsg => exact holdInv_exec inv h
  | check id currentUptime =>
    obtain ⟨e, phase, here, _, quiet, same⟩ := step_check h
    rw [same]
    exact idle { e with phase := phase, epoch := s.epoch e.message.vnode } here rfl rfl quiet
      rfl rfl rfl rfl rfl
  | expire id =>
    obtain ⟨e, here, _, same⟩ := step_expire h
    rw [same]
    exact idle { e with phase := .missed } here rfl rfl (fun _ => nofun) rfl rfl rfl rfl rfl
  | place id =>
    obtain ⟨e, here, _, same⟩ := step_place h
    rw [same]
    exact idle { e with phase := .placed } here rfl rfl (fun _ => nofun) rfl rfl rfl rfl rfl
  | decide id stoppedProc =>
    obtain ⟨e, here, _, same⟩ := step_decide h
    rw [same]
    refine holdInv_quiet inv here (e := { e with
      phase := .acting (validateExecEvent s.world e.message stoppedProc).2
      decision := (validateExecEvent s.world e.message stoppedProc).1
      reply := none }) rfl rfl rfl rfl rfl rfl ?_ (fun _ reply => nomatch reply)
    intro todo acting
    rw [← Phase.acting.inj acting]
    exact todoInv_decided
  | act id currentUptime interested => exact holdInv_act inv fewer h
  | reply id authenticated now => exact holdInv_reply inv h
  | change world =>
    rw [← Option.some.inj h]
    exact holdInv_frame inv rfl rfl rfl rfl rfl
  | flush mode =>
    rw [← Option.some.inj h]
    exact holdInv_frame inv rfl rfl rfl rfl rfl
  | writeClosed vnode =>
    rw [← Option.some.inj h]
    exact holdInv_frame inv rfl rfl rfl rfl rfl

theorem holdInv_start (rootDevno cacheDenyTimeMs : Nat) (world : World) :
    HoldInv (.start rootDevno cacheDenyTimeMs world) := by
  have none : ∀ id e, (System.start rootDevno cacheDenyTimeMs world).execs id ≠ some e :=
    fun _ _ => nofun
  refine ⟨?_, ?_, rfl, ?_, ?_, ?_, ?_⟩
  · exact fun id e here => absurd here (none id e)
  · exact fun id _ e _ here => absurd here (none id e)
  · intro p stored
    exact absurd (show (default : Bool) = true from stored) (by decide)
  · exact fun p member => nomatch member
  · exact fun id e _ here => absurd here (none id e)
  · exact fun id e _ here => absurd here (none id e)

def HeldProtected (s : System) : Prop :=
  ∀ p ∈ s.held, validateSuspendResumeEvent s.procSignalCache p = false

theorem held_protected {s : System} (inv : HoldInv s) : HeldProtected s := by
  intro p member
  rw [validateSuspendResumeEvent, inv.held p member]
  rfl

/-- The hold-and-ask protocol: what an evaluation posts, what a hold sets up, what the reply
    undoes, and that outside resumes are denied in between. -/
theorem hold_and_ask :
    (∀ world esMsg stoppedProc binInfo, world.file esMsg.vnode = some binInfo →
      PostsOnce (validateExecEvent world esMsg stoppedProc).2) ∧
    (∀ world esMsg stoppedProc cd, (validateExecEvent world esMsg stoppedProc).1 = some cd →
      cd.holdAndAsk = true → HoldsFirst cd esMsg.pidAndVersion stoppedProc
        (validateExecEvent world esMsg stoppedProc).2) ∧
    (∀ block authenticated now,
      Settles block authenticated (replyEffects block authenticated now)) ∧
    (∀ (s : System) id vnode currentUptime interested authenticated p,
      (∃ t, s.perform id vnode currentUptime interested (.removeSignal p) = some t ∧
        t.procSignalCache.get p = false) ∧
      ∃ t, s.perform id vnode currentUptime interested
          (.post (if authenticated = true then .holdAllowed else .holdDenied)) = some t ∧
        t.cache.get vnode = default) ∧
    ∀ rootDevno cacheDenyTimeMs world run,
      Runs.Meets step FewerHolds (.start rootDevno cacheDenyTimeMs world) run →
        Runs.Always step HeldProtected (.start rootDevno cacheDenyTimeMs world) run := by
  refine ⟨?_, ?_, reply_settles, reply_forgets, ?_⟩
  · exact fun world esMsg stoppedProc _ _ => evaluation_posts_once world esMsg stoppedProc
  · exact fun world esMsg stoppedProc cd decided holds => holds_first decided holds
  · intro rootDevno cacheDenyTimeMs world run meets
    exact Runs.always_mono (fun _ => held_protected)
      (Runs.always_of_meets (fun _ _ _ => holdInv_step)
        (holdInv_start rootDevno cacheDenyTimeMs world) meets)

def unknownTool : BinaryInfo :=
  ⟨⟨some "0123abcd", "/tmp/tool", true, false, none, .error errSecCSUnsigned⟩, false⟩

def standaloneWorld : World where
  source := ⟨fun _ => none, none, .empty, fun _ => none, declared_none⟩
  config := ⟨.standalone, false, false, false, false, fun _ => false, fun _ => false⟩
  eventConfig := ⟨false, false, false, none, none⟩
  printerProxyFileInfo := none
  file := fun _ => some unknownTool

def askedMessage : ExecMessage :=
  ⟨⟨1, 42⟩, 9, false, ⟨0, "", "", [], false⟩, (100, 1), fun _ _ => .error "no rule"⟩

def suspendingRun : List Label :=
  [.exec 1 askedMessage, .check 1 0, .place 1, .decide 1 true, .act 1 0 false, .act 1 0 false,
    .act 1 0 false]

theorem suspended_process_protected :
    PostsOnce (validateExecEvent standaloneWorld askedMessage true).2 ∧
      HoldsFirst (decisionIn standaloneWorld askedMessage unknownTool) (100, 1) true
        (validateExecEvent standaloneWorld askedMessage true).2 ∧
      (Runs.run step (.start 1 1500 standaloneWorld) suspendingRun).map System.held =
        some [(100, 1)] ∧
      Runs.Always step HeldProtected (.start 1 1500 standaloneWorld) suspendingRun :=
  ⟨hold_and_ask.1 standaloneWorld askedMessage true unknownTool rfl,
    hold_and_ask.2.1 standaloneWorld askedMessage true _ rfl (by decide), by decide,
    hold_and_ask.2.2.2.2 1 1500 standaloneWorld suspendingRun (by decide)⟩

end SantaHoldAndAsk
