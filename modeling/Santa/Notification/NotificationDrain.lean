import Santa.Notification.PromptedWindows

/-!
Every notification is shown, closed and answered in the end. Working off what has arrived takes
the main queue's blocks, the buttons of the windows that are up, and the answers of the prompts.
-/
namespace SantaNotificationManager

def Draining : Label → Prop
  | .runBlock _ => True
  | .button _ _ => True
  | .standAlone _ => True
  | .authorize _ _ => True
  | _ => False

def unprompted (prompts closing : List MessageWindowController) (w : MessageWindowController) :
    Bool :=
  decide (w ∉ prompts ∧ w ∉ closing)

/-- What the blocks, windows and prompts at hand can still cause: a queued message may become a
    pending one and ask for a window, a window a prompt, a prompt a closing, and a closing may ask
    for the next window. -/
def owed (s : Manager) : Nat :=
  6 * (waiting s.mainQueue).length + 4 * (unshown s).length +
    4 * s.onScreen.countP (unprompted s.prompts (closings s.mainQueue)) + 3 * s.prompts.length +
    2 * (closings s.mainQueue).length + s.mainQueue.countP (· = .showQueuedWindow)

/-- Every accepted notification has been shown and its window closed, and it and each duplicate
    have their reply; the others were silenced, or ignored in silent mode. -/
structure Settled (s : Manager) : Prop where
  empty : s.pendingNotifications = []
  shownAll : s.shown = s.accepted
  closedAll : s.closed.Perm s.accepted
  repliedAll : ∀ w ∈ s.duplicates ++ s.accepted, w.hasReply = true → w.window ∈ s.answered
  nothingLost : ∀ i, i < s.nextWindow →
    i ∈ ids (s.ignored ++ s.duplicates ++ s.silenced ++ s.closed)

/-- Working off ends after a bounded number of steps, whatever their order, and where no such
    step is left everything is settled. -/
def Drains (s : Manager) : Prop :=
  ∀ ds t, (∀ d ∈ ds, Draining d) → Runs.Meets step Patient s ds → Runs.run step s ds = some t →
    ds.length + owed t ≤ owed s ∧
    ((∀ d, Draining d → Patient t d → step t d = none) → Settled t)

theorem Orderly.onScreen_nodup {s : Manager} (inv : Orderly s) : s.onScreen.Nodup := by
  have placed : s.shown.Sublist (places s) := by
    rw [places, inv.accepted_eq]
    exact (List.sublist_append_left _ _).trans (List.sublist_append_right _ _)
  have shown : s.shown.Nodup := List.Nodup.of_map _ (inv.distinct.sublist (placed.map _))
  exact (inv.windows.nodup_iff.mpr shown).sublist (List.sublist_append_right _ _)

theorem countP_erase_lt {p q : MessageWindowController → Bool} {w : MessageWindowController}
    {ws : List MessageWindowController} (member : w ∈ ws) (was : p w = true)
    (fewer : ∀ v ∈ ws.erase w, q v = true → p v = true) :
    (ws.erase w).countP q < ws.countP p := by
  rw [(List.perm_cons_erase member).countP_eq p, List.countP_cons_of_pos was]
  exact Nat.lt_succ_of_le (List.countP_mono_left fewer)

theorem owed_queueMessageBlock {s : Manager} {w : MessageWindowController} {enableSilences : Bool}
    {rest : List Block} (block : s.mainQueue = .queueMessage w enableSilences :: rest) :
    owed ({ s with mainQueue := rest }.queueMessageBlock w enableSilences) < owed s := by
  have before : owed s = owed { s with mainQueue := rest } + 6 := by
    simp only [owed, block, waiting, closings, List.filterMap_cons, Block.queued, Block.closing,
      List.length_cons, List.countP_cons, unshown]
    simp
    omega
  rcases queueMessageBlock_cases { s with mainQueue := rest } w enableSilences with
    eq | eq | ⟨_, silences, eq⟩
  · rw [eq, before]
    exact Nat.lt_add_of_pos_right (by decide)
  · rw [eq, before]
    exact Nat.lt_add_of_pos_right (by decide)
  · obtain ⟨asked, shows, short, _, added⟩ :=
      addPending_eq { s with mainQueue := rest, silencedNotifications := silences } w
    have grown : ∀ current pending, (unshown { s with
        currentWindowController := current
        pendingNotifications := pending ++ [w] }).length ≤
          (unshown { s with
            currentWindowController := current
            pendingNotifications := pending }).length + 1 := by
      intro current pending
      cases current with
      | none => simp [unshown]
      | some v => cases pending <;> simp [unshown]
    have one := grown s.currentWindowController s.pendingNotifications
    have few : asked.countP (· = .showQueuedWindow) ≤ 1 := Nat.le_trans List.countP_le_length short
    rw [eq, added, before]
    simp only [owed, waiting_append, waiting_shows shows, closings_append, closings_shows shows,
      List.append_nil, List.countP_append]
    simp only [unshown] at one ⊢
    omega

theorem owed_showQueuedWindowBlock {s : Manager} {rest : List Block}
    (block : s.mainQueue = .showQueuedWindow :: rest) :
    owed ({ s with mainQueue := rest }.showQueuedWindowBlock) < owed s := by
  have before : owed s = owed { s with mainQueue := rest } + 1 := by
    simp only [owed, block, waiting, closings, List.filterMap_cons, Block.queued, Block.closing,
      List.countP_cons, unshown]
    simp
    omega
  rcases showQueuedWindowBlock_cases { s with mainQueue := rest } with
    ⟨eq, _⟩ | ⟨w, ws, current, pending, eq⟩
  · rw [eq, before]
    exact Nat.lt_succ_self _
  · have none : s.currentWindowController = none := current
    have first : s.pendingNotifications = w :: ws := pending
    have one : [w].countP (unprompted s.prompts (closings rest)) ≤ 1 := List.countP_le_length
    rw [eq, before]
    simp only [owed, unshown, none, first, List.countP_append, List.length_cons, List.tail_cons]
    omega

theorem owed_down {s : Manager} {w : MessageWindowController} (silences : String → Option Int) :
    owed (s.down w silences) ≤ 6 * (waiting s.mainQueue).length + 4 * (unshown s).length +
      4 * (s.onScreen.erase w).countP (unprompted s.prompts (closings s.mainQueue)) +
      3 * s.prompts.length + 2 * (closings s.mainQueue).length +
      s.mainQueue.countP (· = .showQueuedWindow) + 1 := by
  obtain ⟨queued, closing⟩ := down_queue s w silences
  have few : (nextShown s).countP (· = .showQueuedWindow) ≤ 1 := by
    unfold nextShown
    split
    · exact Nat.zero_le _
    · exact List.countP_le_length
  have queue : (s.down w silences).mainQueue = s.mainQueue ++ nextShown s := rfl
  have left : unshown (s.down w silences) = unshown s := rfl
  have up : (s.down w silences).onScreen = s.onScreen.erase w := rfl
  have prompts : (s.down w silences).prompts = s.prompts := rfl
  rw [owed, queued, closing, queue, left, up, prompts, List.countP_append]
  omega

theorem owed_closeWindowBlock {s : Manager} {w : MessageWindowController} {rest : List Block}
    (inv : Orderly s) (block : s.mainQueue = .closeWindow w :: rest) (toldAgain : Bool) :
    owed ({ s with mainQueue := rest }.close w toldAgain) < owed s := by
  have closing : closings s.mainQueue = w :: closings rest := by rw [block]; rfl
  have queued : waiting s.mainQueue = waiting rest := by rw [block]; rfl
  have asked : s.mainQueue.countP (· = .showQueuedWindow) =
      rest.countP (· = .showQueuedWindow) := by
    rw [block]
    rfl
  have left : unshown { s with mainQueue := rest } = unshown s := rfl
  -- the other windows on the screen are as they were
  have others : (s.onScreen.erase w).countP (unprompted s.prompts (closings rest)) ≤
      s.onScreen.countP (unprompted s.prompts (closings s.mainQueue)) := by
    refine Nat.le_trans (List.countP_mono_left ?_) List.erase_sublist.countP_le
    intro v member free
    have other : v ≠ w := (inv.onScreen_nodup.mem_erase_iff.mp member).1
    rw [unprompted, decide_eq_true_eq] at free ⊢
    rw [closing]
    exact ⟨free.1, fun closes => (List.mem_cons.mp closes).elim other free.2⟩
  rcases close_cases (orderly_run inv block) w toldAgain with ⟨gone, eq⟩ | ⟨silences, eq⟩
  · have after : owed { s with mainQueue := rest } = 6 * (waiting rest).length +
        4 * (unshown s).length + 4 * s.onScreen.countP (unprompted s.prompts (closings rest)) +
        3 * s.prompts.length + 2 * (closings rest).length +
        rest.countP (· = .showQueuedWindow) := rfl
    have off : w ∉ s.onScreen := gone
    rw [List.erase_of_not_mem off] at others
    rw [eq, after, owed, queued, asked, closing, List.length_cons, ← closing]
    omega
  · have down := owed_down (s := { s with mainQueue := rest }) (w := w) silences
    rw [left] at down
    rw [eq, owed.eq_def s, queued, asked, closing, List.length_cons, ← closing]
    simp only at down
    omega

theorem owed_dismissButton {s : Manager} {w : MessageWindowController} (inv : Orderly s)
    (up : w ∈ s.onScreen) (free : w ∉ s.prompts ∧ w ∉ closings s.mainQueue) (period : Int) :
    owed (s.dismissButton w period) < owed s := by
  have fewer := countP_erase_lt (p := unprompted s.prompts (closings s.mainQueue)) up
    (decide_eq_true free) fun _ _ => id
  rcases close_cases (orderly_pressed inv w period) w false with ⟨gone, _⟩ | ⟨silences, eq⟩
  · exact absurd up gone
  · have down := owed_down (s := (s.uiStateCallback w period).giveReply w false) (w := w) silences
    rw [Manager.dismissButton, eq]
    refine Nat.lt_of_le_of_lt down ?_
    change 6 * (waiting s.mainQueue).length + 4 * (unshown s).length +
      4 * (s.onScreen.erase w).countP (unprompted s.prompts (closings s.mainQueue)) +
      3 * s.prompts.length + 2 * (closings s.mainQueue).length +
      s.mainQueue.countP (· = .showQueuedWindow) + 1 < owed s
    rw [owed]
    omega

theorem owed_standAloneButton {s : Manager} {w : MessageWindowController}
    (up : w ∈ s.onScreen) (free : w ∉ s.prompts ∧ w ∉ closings s.mainQueue) :
    owed (s.standAloneButton w) < owed s := by
  have fewer := countP_erase_lt (p := unprompted s.prompts (closings s.mainQueue))
    (q := unprompted (s.prompts ++ [w]) (closings s.mainQueue)) up (decide_eq_true free) (by
      intro v _ still
      rw [unprompted, decide_eq_true_eq] at still ⊢
      exact ⟨fun prompted => still.1 (List.mem_append_left _ prompted), still.2⟩)
  have same : s.onScreen.countP (unprompted (s.prompts ++ [w]) (closings s.mainQueue)) =
      (s.onScreen.erase w).countP (unprompted (s.prompts ++ [w]) (closings s.mainQueue)) := by
    rw [(List.perm_cons_erase up).countP_eq, List.countP_cons_of_neg]
    simp [unprompted]
  change 6 * (waiting s.mainQueue).length + 4 * (unshown s).length +
    4 * s.onScreen.countP (unprompted (s.prompts ++ [w]) (closings s.mainQueue)) +
    3 * (s.prompts ++ [w]).length + 2 * (closings s.mainQueue).length +
    s.mainQueue.countP (· = .showQueuedWindow) < owed s
  rw [same, owed, List.length_append, List.length_singleton]
  omega

theorem owed_authorized {s : Manager} {w : MessageWindowController} (prompted : w ∈ s.prompts)
    (success : Bool) : owed (s.authorized w success) < owed s := by
  have fewer : s.onScreen.countP (unprompted (s.prompts.erase w)
      (closings (s.mainQueue ++ [Block.closeWindow w]))) ≤
        s.onScreen.countP (unprompted s.prompts (closings s.mainQueue)) := by
    refine List.countP_mono_left ?_
    intro v _ free
    rw [unprompted, decide_eq_true_eq, closings_append, List.mem_append, not_or] at free
    have other : v ≠ w := fun same => free.2.2 (by rw [same]; exact List.mem_cons_self)
    rw [unprompted, decide_eq_true_eq]
    exact ⟨fun asks => free.1 ((List.mem_erase_of_ne other).mpr asks), free.2.1⟩
  have queued : waiting (s.mainQueue ++ [Block.closeWindow w]) = waiting s.mainQueue := by
    rw [waiting_append]
    exact List.append_nil _
  have closing : (closings (s.mainQueue ++ [Block.closeWindow w])).length =
      (closings s.mainQueue).length + 1 := by
    rw [closings_append, List.length_append]
    rfl
  have left := List.length_erase_add_one prompted
  have asked : (s.mainQueue ++ [Block.closeWindow w]).countP (· = Block.showQueuedWindow) =
      s.mainQueue.countP (· = Block.showQueuedWindow) := by
    rw [List.countP_append]
    rfl
  change 6 * (waiting (s.mainQueue ++ [Block.closeWindow w])).length + 4 * (unshown s).length +
    4 * s.onScreen.countP (unprompted (s.prompts.erase w)
      (closings (s.mainQueue ++ [Block.closeWindow w]))) + 3 * (s.prompts.erase w).length +
    2 * (closings (s.mainQueue ++ [Block.closeWindow w])).length +
    (s.mainQueue ++ [Block.closeWindow w]).countP (· = Block.showQueuedWindow) < owed s
  rw [queued, closing, asked, owed]
  omega

theorem owed_step {s t : Manager} {d : Label} (inv : Orderly s) (draining : Draining d)
    (patient : Patient s d) (h : step s d = some t) : owed t < owed s := by
  cases d with
  | post event silences => exact absurd draining id
  | setSilentMode enabled => exact absurd draining id
  | clock now => exact absurd draining id
  | runBlock toldAgain =>
    cases block : s.mainQueue with
    | nil => simp [step, block] at h
    | cons b rest =>
      simp only [step, block] at h
      cases b with
      | queueMessage w enableSilences =>
        rw [← Option.some.inj h]
        exact owed_queueMessageBlock block
      | showQueuedWindow =>
        rw [← Option.some.inj h]
        exact owed_showQueuedWindowBlock block
      | closeWindow w =>
        rw [← Option.some.inj h]
        exact owed_closeWindowBlock inv block toldAgain
  | button w period =>
    simp only [step] at h
    split at h
    · rename_i up
      rw [← Option.some.inj h]
      exact owed_dismissButton inv up patient period
    · cases h
  | standAlone w =>
    simp only [step] at h
    split at h
    · rename_i up
      rw [← Option.some.inj h]
      exact owed_standAloneButton up.1 patient
    · cases h
  | authorize w success =>
    simp only [step] at h
    split at h
    · rename_i prompted
      rw [← Option.some.inj h]
      exact owed_authorized prompted success
    · cases h

theorem owed_run {s t : Manager} {ds : List Label} (inv : Orderly s)
    (draining : ∀ d ∈ ds, Draining d) (patient : Runs.Meets step Patient s ds)
    (h : Runs.run step s ds = some t) : ds.length + owed t ≤ owed s := by
  induction ds generalizing s with
  | nil =>
    simp only [Runs.run, Option.some.injEq] at h
    rw [h]
    simp
  | cons d ds ih =>
    simp only [Runs.run, Option.bind_eq_some_iff] at h
    obtain ⟨m, first, rest⟩ := h
    obtain ⟨now, later⟩ := patient m first
    have less := owed_step inv (draining d List.mem_cons_self) now first
    have more := ih (orderly_step s d m inv first)
      (fun d member => draining d (List.mem_cons_of_mem _ member)) later rest
    simp only [List.length_cons]
    omega

theorem quiet_settled {t : Manager} (inv : Orderly t)
    (quiet : ∀ d, Draining d → Patient t d → step t d = none) : Settled t := by
  have idle : t.mainQueue = [] := by
    cases block : t.mainQueue with
    | nil => rfl
    | cons b rest =>
      have stuck := quiet (.runBlock false) trivial trivial
      cases b <;> simp [step, block] at stuck
  have noPrompt : t.prompts = [] := by
    refine List.eq_nil_iff_forall_not_mem.mpr ?_
    intro w prompted
    have stuck := quiet (.authorize w false) trivial trivial
    simp [step, prompted] at stuck
  have noWindow : t.onScreen = [] := by
    refine List.eq_nil_iff_forall_not_mem.mpr ?_
    intro w up
    have free : w ∉ t.prompts ∧ w ∉ closings t.mainQueue := by
      rw [noPrompt, idle]
      exact ⟨List.not_mem_nil, List.not_mem_nil⟩
    have stuck := quiet (.button w 0) trivial free
    simp [step, up] at stuck
  have noCurrent : t.currentWindowController = none := by
    cases current : t.currentWindowController with
    | none => rfl
    | some w =>
      have up := inv.currentUp w current
      rw [noWindow] at up
      cases up
  have empty : t.pendingNotifications = [] := by
    by_contra some
    rcases inv.windowComing some with current | coming
    · exact current noCurrent
    · simp [idle] at coming
  have seen : t.shown = t.accepted := by
    rw [inv.shownOnce, inv.inOrder, noCurrent, empty]
    rfl
  have closed : t.closed.Perm t.accepted := by
    have windows := inv.windows
    rwa [noWindow, List.append_nil, seen] at windows
  refine ⟨empty, seen, closed, ?_, ?_⟩
  · intro w member reply
    refine inv.replied w (List.mem_append_left _ ?_) reply
    rcases List.mem_append.mp member with duplicate | accepted
    · exact List.mem_append_left _ duplicate
    · exact List.mem_append_right _ (closed.mem_iff.mpr accepted)
  · intro i below
    have member := inv.accounted.mem_iff.mpr (List.mem_range.mpr below)
    rw [places, idle, waiting, List.filterMap_nil, List.append_nil] at member
    exact ((closed.append_left _).map _).mem_iff.mpr member

/-- From every state of every run, also where the user has pressed buttons of prompted windows. -/
theorem notifications_drain (enableSilentMode : Bool) (now : Int)
    (silencedNotifications : String → Option Int) (ls : List Label) :
    Runs.Always step Drains (Manager.new enableSilentMode now silencedNotifications) ls := by
  refine Runs.always_mono ?_ (Runs.always_of_keep Orderly orderly_step
    (orderly_new enableSilentMode now silencedNotifications) ls)
  intro s inv ds t draining patient h
  refine ⟨owed_run inv draining patient h, ?_⟩
  have later : Orderly t :=
    Runs.always_last (Runs.always_of_keep Orderly orderly_step inv ds) h
  exact quiet_settled later

end SantaNotificationManager
