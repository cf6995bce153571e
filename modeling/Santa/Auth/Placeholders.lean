import Santa.Auth.HoldAndAsk

/-!
The placeholder of an evaluation under way, which other executions of the vnode
wait for. It is stored over nothing only, and every action that is posted for
the vnode replaces or removes it, whoever stored it. So a placeholder that is
there was stored after the last post, by an evaluation that has yet to post.
A removal by `writeClosed` stands for one at any time, of any vnode.
-/
namespace SantaPlaceholders
open SantaPolicy SantaAuthCache SantaExec SantaExecRuns SantaHoldAndAsk

def Unanswered (e : Exec) : Prop :=
  e.phase = .placed ∨ ∃ todo, e.phase = .acting todo ∧ PostsOnce todo

def Pending (s : System) (id : Nat) (v : SantaVnode) : Prop :=
  ∃ e, s.execs id = some e ∧ e.message.vnode = v ∧ Unanswered e

/-- Steps of this evaluation alone end the wait for the vnode's entry. -/
def Replaceable (s : System) (id : Nat) (v : SantaVnode) : Prop :=
  ∃ own, (∀ l ∈ own, (∃ stoppedProc, l = .decide id stoppedProc) ∨
      ∃ currentUptime interested, l = .act id currentUptime interested) ∧
    ∃ t, Runs.run step s own = some t ∧ (t.cache.get v).action ≠ .requestBinary

/-! ### A post ends the wait -/

section
variable {cache : AuthResultCache} {vnode v : SantaVnode} {action : SNTAction}
variable {currentUptime : Nat} {interested : Bool} {posted : Posted}

def Genuine (cache : AuthResultCache) (v : SantaVnode) : Prop :=
  (cache.get v).action = .requestBinary → cache.get v = AuthResultCache.placeholder

theorem store_replaces (genuine : Genuine cache vnode) {value : CachedAction}
    (final : value.action ≠ .requestBinary) :
    ((cache.store vnode value (some AuthResultCache.placeholder)).2.get vnode).action ≠
      .requestBinary := by
  by_cases waiting : cache.get vnode = AuthResultCache.placeholder
  · rw [AuthResultCache.get_store_self waiting]
    exact final
  · rw [AuthResultCache.get_store_refused waiting]
    exact fun entry => waiting (genuine entry)

theorem remove_replaces (cache : AuthResultCache) (vnode : SantaVnode) :
    ((cache.removeFromCache vnode).get vnode).action ≠ .requestBinary := by
  rw [AuthResultCache.get_removeFromCache, if_pos rfl]
  exact nofun

theorem remove_waiting (waiting : ((cache.removeFromCache vnode).get v).action = .requestBinary) :
    (cache.removeFromCache vnode).get v = cache.get v := by
  rw [AuthResultCache.get_removeFromCache] at waiting ⊢
  by_cases removed : v = vnode
  · rw [if_pos removed] at waiting
    exact nomatch waiting
  · rw [if_neg removed]

theorem flush_waiting {mode : AuthResultCache.FlushCacheMode}
    (waiting : ((cache.flushCache mode).1.get v).action = .requestBinary) :
    (cache.flushCache mode).1.get v = cache.get v := by
  rw [AuthResultCache.get_flushCache] at waiting ⊢
  by_cases flushed : cache.flushes mode v = true
  · rw [if_pos flushed] at waiting
    exact nomatch waiting
  · rw [if_neg flushed]

theorem postAction_replaces (genuine : Genuine cache vnode)
    (h : postAction cache vnode action currentUptime interested = some posted) :
    (posted.cache.get vnode).action ≠ .requestBinary := by
  cases action with
  | unset => exact nomatch h
  | requestBinary => exact nomatch h
  | respondAllowNoCache =>
    rw [← Option.some.inj h]
    exact remove_replaces cache vnode
  | holdAllowed =>
    rw [← Option.some.inj h]
    exact remove_replaces cache vnode
  | holdDenied =>
    rw [← Option.some.inj h]
    exact remove_replaces cache vnode
  | _ =>
    rw [← Option.some.inj h]
    exact store_replaces genuine nofun

theorem postAction_elsewhere (other : v ≠ vnode)
    (h : postAction cache vnode action currentUptime interested = some posted) :
    posted.cache.get v = cache.get v ∨ posted.cache.get v = default := by
  have removed : (cache.removeFromCache vnode).get v = cache.get v := by
    rw [AuthResultCache.get_removeFromCache, if_neg other]
  cases action with
  | unset => exact nomatch h
  | requestBinary => exact nomatch h
  | respondAllowNoCache =>
    rw [← Option.some.inj h]
    exact .inl removed
  | holdAllowed =>
    rw [← Option.some.inj h]
    exact .inl removed
  | holdDenied =>
    rw [← Option.some.inj h]
    exact .inl removed
  | _ =>
    rw [← Option.some.inj h]
    exact AuthResultCache.get_store_other _ _ other

theorem postAction_responds (responds : action ∈ respondActions) :
    ∃ posted, postAction cache vnode action currentUptime interested = some posted := by
  simp only [respondActions, List.mem_cons, List.not_mem_nil, or_false] at responds
  rcases responds with same | same | same | same | same <;> rw [same] <;> exact ⟨_, rfl⟩

end

/-! ### Which placeholders there are after a step -/

def PostsFor (s : System) (l : Label) (v : SantaVnode) : Prop :=
  ∃ id currentUptime interested e action todo, l = .act id currentUptime interested ∧
    s.execs id = some e ∧ e.message.vnode = v ∧ e.phase = .acting (.post action :: todo)

section
variable {s t : System} {l : Label} {id : Nat} {v : SantaVnode}

theorem perform_silent (s : System) (id : Nat) (vnode : SantaVnode) (currentUptime : Nat)
    (interested : Bool) {effect : Effect} (silent : ∀ action, effect ≠ .post action) :
    ∃ m, s.perform id vnode currentUptime interested effect = some m ∧ m.cache = s.cache := by
  cases effect with
  | post action => exact absurd rfl (silent action)
  | _ => exact ⟨_, rfl, rfl⟩

theorem waiting_cases (genuine : ∀ v, Genuine s.cache v) (h : step s l = some t)
    (waiting : (t.cache.get v).action = .requestBinary) :
    (t.cache.get v = s.cache.get v ∧ ¬ PostsFor s l v) ∨
      ∃ id, l = .place id ∧ t.cache.get v = AuthResultCache.placeholder ∧ Pending t id v := by
  have silent : (∀ id currentUptime interested, l ≠ .act id currentUptime interested) →
      ¬ PostsFor s l v := by
    rintro other ⟨id, currentUptime, interested, _, _, _, label, _⟩
    exact other id currentUptime interested label
  cases l with
  | exec id esMsg =>
    obtain ⟨_, _, same⟩ := step_exec h
    rw [same]
    exact .inl ⟨rfl, silent nofun⟩
  | check id currentUptime =>
    obtain ⟨_, _, _, _, _, same⟩ := step_check h
    rw [same]
    exact .inl ⟨rfl, silent nofun⟩
  | expire id =>
    obtain ⟨e, _, _, same⟩ := step_expire h
    rw [same] at waiting ⊢
    exact .inl ⟨remove_waiting waiting, silent nofun⟩
  | place id =>
    obtain ⟨e, here, _, same⟩ := step_place h
    rw [same] at waiting ⊢
    simp only at waiting ⊢
    by_cases mine : v = e.message.vnode
    · by_cases absent : s.cache.get v = default
      · rw [mine] at absent ⊢
        refine .inr ⟨id, rfl, AuthResultCache.get_store_self absent, ?_⟩
        exact ⟨_, System.setExec_self s id _, rfl, .inl rfl⟩
      · rw [mine] at absent
        exact .inl ⟨AuthResultCache.get_store_refused absent v, silent nofun⟩
    · rcases AuthResultCache.get_store_other AuthResultCache.placeholder (some default) mine
        (c := s.cache) with kept | lost
      · exact .inl ⟨kept, silent nofun⟩
      · rw [lost] at waiting
        exact nomatch waiting
  | decide id stoppedProc =>
    obtain ⟨_, _, _, same⟩ := step_decide h
    rw [same]
    exact .inl ⟨rfl, silent nofun⟩
  | act id currentUptime interested =>
    obtain ⟨e, effect, todo, m, here, acting, performed, same⟩ := step_act h
    subst same
    rw [System.setExec_cache] at waiting ⊢
    left
    by_cases posts : ∃ action, effect = .post action
    · obtain ⟨action, post⟩ := posts
      subst post
      obtain ⟨posted, accepted, result⟩ := Option.map_eq_some_iff.mp performed
      subst result
      by_cases mine : v = e.message.vnode
      · rw [mine] at waiting
        exact absurd waiting (postAction_replaces (genuine _) accepted)
      · constructor
        · rcases postAction_elsewhere mine accepted with kept | lost
          · exact kept
          · simp only [lost] at waiting
            exact nomatch waiting
        · rintro ⟨_, _, _, e', _, _, label, here', vnode, _⟩
          rw [← (Label.act.inj label).1, here, Option.some.injEq] at here'
          rw [← vnode, here'] at mine
          exact mine rfl
    · have other : ∀ action, effect ≠ .post action := fun action post => posts ⟨action, post⟩
      obtain ⟨m', performed', cache⟩ := perform_silent s id e.message.vnode currentUptime interested
        other
      rw [performed, Option.some.injEq] at performed'
      subst performed'
      refine ⟨by rw [cache], ?_⟩
      rintro ⟨_, _, _, e', action, rest, label, here', _, acting'⟩
      rw [← (Label.act.inj label).1, here, Option.some.injEq] at here'
      rw [← here', acting, Phase.acting.injEq, List.cons.injEq] at acting'
      exact other action acting'.1
  | reply id authenticated now =>
    obtain ⟨_, _, _, _, _, same⟩ := step_reply h
    rw [same]
    exact .inl ⟨rfl, silent nofun⟩
  | change world =>
    rw [← Option.some.inj h]
    exact .inl ⟨rfl, silent nofun⟩
  | flush mode =>
    rw [← Option.some.inj h] at waiting ⊢
    exact .inl ⟨flush_waiting waiting, silent nofun⟩
  | writeClosed vnode =>
    rw [← Option.some.inj h] at waiting ⊢
    exact .inl ⟨remove_waiting waiting, silent nofun⟩

/-! ### An evaluation that has yet to post -/

theorem postsOnce_nil : ¬ PostsOnce [] := by
  rintro ⟨_, _, empty⟩
  exact nomatch empty

theorem postsOnce_tail {effect : Effect} {todo : List Effect}
    (silent : ∀ action, effect ≠ .post action) (once : PostsOnce (effect :: todo)) :
    PostsOnce todo := by
  obtain ⟨action, responds, posted⟩ := once
  refine ⟨action, responds, ?_⟩
  rw [← posted]
  cases effect with
  | post action => exact absurd rfl (silent action)
  | _ => rfl

theorem pending_step (pending : Pending s id v) (silent : ¬ PostsFor s l v)
    (h : step s l = some t) : Pending t id v := by
  obtain ⟨e, here, vnode, waits⟩ := pending
  by_cases own : l.execution = some id
  · rcases waits with placed | ⟨todo, acting, once⟩
    · obtain ⟨stoppedProc, label⟩ := placed_owns h here placed own
      subst label
      obtain ⟨e₁, there, _, same⟩ := step_decide h
      rw [here, Option.some.injEq] at there
      subst there
      rw [same]
      exact ⟨_, System.setExec_self s id _, vnode,
        .inr ⟨_, rfl, evaluation_posts_once s.world e.message stoppedProc⟩⟩
    · rcases acting_owns h here acting own with ⟨currentUptime, interested, label, _⟩ |
        ⟨_, _, _, empty⟩
      · subst label
        obtain ⟨e₁, effect, rest, m, there, acting₁, _, same⟩ := step_act h
        rw [here, Option.some.injEq] at there
        subst there
        rw [acting, Phase.acting.injEq] at acting₁
        subst acting₁
        rw [same]
        refine ⟨_, System.setExec_self m id _, vnode, .inr ⟨rest, rfl, postsOnce_tail ?_ once⟩⟩
        intro action post
        rw [post] at acting
        exact silent ⟨id, currentUptime, interested, e, action, rest, rfl, here, vnode, acting⟩
      · rw [empty] at once
        exact absurd once postsOnce_nil
  · exact ⟨e, (step_other h own).trans here, vnode, waits⟩

theorem acting_replaceable {todo : List Effect} (once : PostsOnce todo) {s : System} {e : Exec}
    (here : s.execs id = some e) (acting : e.phase = .acting todo)
    (genuine : Genuine s.cache e.message.vnode) : Replaceable s id e.message.vnode := by
  induction todo generalizing s e with
  | nil => exact absurd once postsOnce_nil
  | cons effect todo ih =>
    have next : ∀ m, s.perform id e.message.vnode 0 false effect = some m →
        step s (.act id 0 false) = some (m.setExec id { e with
          phase := .acting todo
          reply := effect.reply.or e.reply }) := by
      intro m performed
      obtain ⟨esMsg, phase, epoch, decision, reply⟩ := e
      simp only at acting performed
      subst acting
      simp only [step, here, performed, Option.map_some]
    have own : ∀ l ∈ [Label.act id 0 false], (∃ stoppedProc, l = .decide id stoppedProc) ∨
        ∃ currentUptime interested, l = .act id currentUptime interested :=
      fun l member => .inr ⟨0, false, List.mem_singleton.mp member⟩
    by_cases posts : ∃ action, effect = .post action
    · obtain ⟨action, post⟩ := posts
      subst post
      have responds : action ∈ respondActions := by
        obtain ⟨action', responds, posted⟩ := once
        rw [(List.cons.inj posted).1]
        exact responds
      obtain ⟨posted, accepted⟩ := @postAction_responds s.cache e.message.vnode action 0
        false responds
      have performed := next _ (Option.map_eq_some_iff.mpr ⟨posted, accepted, rfl⟩)
      refine ⟨[.act id 0 false], own, _, Option.bind_eq_some_iff.mpr ⟨_, performed, rfl⟩, ?_⟩
      rw [System.setExec_cache]
      exact postAction_replaces genuine accepted
    · obtain ⟨m, performed, cache⟩ := perform_silent s id e.message.vnode 0 false
        fun action post => posts ⟨action, post⟩
      have rest := postsOnce_tail (fun action post => posts ⟨action, post⟩) once
      have unchanged : Genuine (m.setExec id { e with
          phase := .acting todo
          reply := effect.reply.or e.reply }).cache e.message.vnode := by
        rw [System.setExec_cache, cache]
        exact genuine
      obtain ⟨labels, mine, t, ends, replaced⟩ :=
        ih rest (System.setExec_self m id _) rfl unchanged
      refine ⟨.act id 0 false :: labels, ?_, t, ?_, replaced⟩
      · exact List.forall_mem_cons.mpr ⟨own _ List.mem_cons_self, mine⟩
      · exact Option.bind_eq_some_iff.mpr ⟨_, next m performed, ends⟩

theorem pending_replaceable (genuine : Genuine s.cache v) (pending : Pending s id v) :
    Replaceable s id v := by
  obtain ⟨e, here, vnode, waits⟩ := pending
  subst vnode
  rcases waits with placed | ⟨todo, acting, once⟩
  · have decided : step s (.decide id true) = some (s.setExec id { e with
        phase := .acting (validateExecEvent s.world e.message true).2
        decision := (validateExecEvent s.world e.message true).1
        reply := none }) := by
      obtain ⟨esMsg, phase, epoch, decision, reply⟩ := e
      simp only at placed
      subst placed
      simp only [step, here]
    have later := System.setExec_self s id { e with
      phase := .acting (validateExecEvent s.world e.message true).2
      decision := (validateExecEvent s.world e.message true).1
      reply := none }
    obtain ⟨labels, mine, t, ends, replaced⟩ :=
      acting_replaceable (evaluation_posts_once s.world e.message true) later rfl genuine
    refine ⟨.decide id true :: labels, ?_, t, ?_, replaced⟩
    · exact List.forall_mem_cons.mpr ⟨.inl ⟨true, rfl⟩, mine⟩
    · exact Option.bind_eq_some_iff.mpr ⟨_, decided, ends⟩
  · exact acting_replaceable once here acting genuine

end

/-! ### Over whole runs -/

/-- Each entry to wait for is the placeholder, and one of the evaluations that stored theirs
    has yet to post. -/
def Covered (past : List Label) (s : System) : Prop :=
  ∀ v, (s.cache.get v).action = .requestBinary →
    s.cache.get v = AuthResultCache.placeholder ∧ ∃ id, .place id ∈ past ∧ Pending s id v

theorem covered_step {past : List Label} {s : System} {l : Label} {t : System}
    (covered : Covered past s) (h : step s l = some t) : Covered (past ++ [l]) t := by
  intro v waiting
  rcases waiting_cases (fun v entry => (covered v entry).1) h waiting with
    ⟨kept, silent⟩ | ⟨id, label, stored, pending⟩
  · rw [kept] at waiting ⊢
    obtain ⟨entry, id, placed, pending⟩ := covered v waiting
    exact ⟨entry, id, List.mem_append.mpr (.inl placed), pending_step pending silent h⟩
  · refine ⟨stored, id, ?_, pending⟩
    rw [label]
    exact List.mem_append.mpr (.inr List.mem_cons_self)

/-- In every state that a run reaches from the daemon's start: for each entry that says an
    evaluation is under way, one that has stored its placeholder has yet to post its final
    action, and its own steps put an end to the entry. -/
theorem placeholder_never_left (rootDevno cacheDenyTimeMs : Nat) (world : World)
    {run : List Label} {s : System}
    (ends : Runs.run step (.start rootDevno cacheDenyTimeMs world) run = some s) {v : SantaVnode}
    (waiting : (s.cache.get v).action = .requestBinary) :
    ∃ id, .place id ∈ run ∧ Pending s id v ∧ Replaceable s id v := by
  have start : Covered [] (.start rootDevno cacheDenyTimeMs world) := by
    intro v waiting
    simp only [System.start, AuthResultCache.get_create] at waiting
    exact nomatch waiting
  obtain ⟨entry, id, placed, pending⟩ :=
    Runs.history_of_keep Covered (fun _ _ _ _ => covered_step) start ends v waiting
  exact ⟨id, placed, pending, pending_replaceable (fun _ => entry) pending⟩

def waitingRun : List Label := [.exec 1 askedMessage, .check 1 0, .place 1]

theorem placed_evaluation_pending :
    ∃ s, Runs.run step (.start 1 1500 standaloneWorld) waitingRun = some s ∧
      (s.cache.get ⟨1, 42⟩).action = .requestBinary ∧
      ∃ id, .place id ∈ waitingRun ∧ Pending s id ⟨1, 42⟩ ∧ Replaceable s id ⟨1, 42⟩ := by
  have facts : (Runs.run step (.start 1 1500 standaloneWorld) waitingRun).map (fun s =>
      (s.cache.get ⟨1, 42⟩).action) = some .requestBinary := by
    decide
  obtain ⟨s, ends, waiting⟩ := Option.map_eq_some_iff.mp facts
  exact ⟨s, ends, waiting, placeholder_never_left 1 1500 standaloneWorld ends waiting⟩

end SantaPlaceholders
