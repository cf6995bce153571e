import Santa.Notification.NotificationManager

/-!
The windows of a user who leaves them alone while their Touch ID prompt is up, and until the
closing that follows it: one at a time, and one reply each. A prompt does not disable the other
button of its window, which gives a second reply, and makes the closing that follows take the
next window off the list.
-/
namespace SantaNotificationManager

/-- A window whose prompt is up, or whose closing is on its way, is left alone. -/
def Patient (s : Manager) : Label → Prop
  | .button w _ => w ∉ s.prompts ∧ w ∉ closings s.mainQueue
  | .standAlone w => w ∉ s.prompts ∧ w ∉ closings s.mainQueue
  | _ => True

/-- Only the current window is on the screen and only it has a prompt, or a closing on its way;
    the windows taken off the list are the closed ones, and each was answered once. -/
structure Attended (s : Manager) : Prop where
  currentOnly : s.onScreen = s.currentWindowController.toList
  closedOnly : s.closed = s.removed
  asked : s.prompts ++ closings s.mainQueue = [] ∨
    ∃ w, s.currentWindowController = some w ∧ s.prompts ++ closings s.mainQueue = [w]
  answeredOnce : s.answered.Perm
    (ids ((s.duplicates ++ s.closed ++ closings s.mainQueue).filter (·.hasReply)))

theorem attended_new (enableSilentMode : Bool) (now : Int)
    (silencedNotifications : String → Option Int) :
    Attended (Manager.new enableSilentMode now silencedNotifications) :=
  ⟨rfl, rfl, .inl rfl, List.Perm.refl _⟩

/-! ### One step -/

theorem answered_append {ws : List MessageWindowController} {answered : List Nat}
    (w : MessageWindowController) (once : answered.Perm (ids (ws.filter (·.hasReply)))) :
    (answered ++ ids ([w].filter (·.hasReply))).Perm (ids ((ws ++ [w]).filter (·.hasReply))) := by
  simp only [ids, List.filter_append, List.map_append] at once ⊢
  exact once.append_right _

theorem Attended.idle {s : Manager} {w : MessageWindowController} (attended : Attended s)
    (up : w ∈ s.onScreen) (unprompted : w ∉ s.prompts ∧ w ∉ closings s.mainQueue) :
    s.currentWindowController = some w ∧ s.prompts = [] ∧ closings s.mainQueue = [] := by
  rw [attended.currentOnly, Option.mem_toList] at up
  refine ⟨up, ?_⟩
  rcases attended.asked with none | ⟨v, current, only⟩
  · exact List.append_eq_nil_iff.mp none
  · have same : v = w := Option.some.inj (current.symm.trans up)
    have member : w ∈ s.prompts ++ closings s.mainQueue := by
      rw [only, same]
      exact List.mem_singleton.mpr rfl
    rcases List.mem_append.mp member with prompted | closing
    · exact absurd prompted unprompted.1
    · exact absurd closing unprompted.2

theorem attended_close {s : Manager} {w : MessageWindowController} (inv : Orderly s)
    (toldAgain : Bool) (current : s.currentWindowController = some w)
    (currentOnly : s.onScreen = s.currentWindowController.toList)
    (closedOnly : s.closed = s.removed) (unprompted : s.prompts = [])
    (closing : closings s.mainQueue = [])
    (once : s.answered.Perm (ids ((s.duplicates ++ s.closed ++ [w]).filter (·.hasReply)))) :
    Attended (s.close w toldAgain) := by
  have only : s.onScreen = [w] := by
    rw [currentOnly, current]
    rfl
  have up : w ∈ s.onScreen := by
    rw [only]
    exact List.mem_singleton.mpr rfl
  rcases close_cases inv w toldAgain with ⟨gone, _⟩ | ⟨silences, eq⟩
  · exact absurd up gone
  · rw [eq]
    have queue := (down_queue s w silences).2.trans closing
    have closed : (s.down w silences).closed = s.closed ++ [w] := by
      change s.closed ++ (if w ∈ s.onScreen then [w] else []) = _
      rw [if_pos up]
    refine ⟨?_, ?_, .inl ?_, ?_⟩
    · change s.onScreen.erase w = []
      rw [only, List.erase_cons_head]
    · change _ = s.removed ++ s.currentWindowController.toList
      rw [closed, closedOnly, current]
      rfl
    · rw [queue, List.append_nil]
      exact unprompted
    · rw [queue, closed, List.append_nil, ← List.append_assoc]
      exact once

theorem attended_run {s : Manager} {b : Block} {rest : List Block} (attended : Attended s)
    (block : s.mainQueue = b :: rest) (other : b.closing = none) :
    Attended { s with mainQueue := rest } := by
  have closing : closings s.mainQueue = closings rest := by
    rw [block]
    exact List.filterMap_cons_none other
  have asked := attended.asked
  have once := attended.answeredOnce
  rw [closing] at asked once
  exact ⟨attended.currentOnly, attended.closedOnly, asked, once⟩

theorem attended_queueMessageBlock {s : Manager} (attended : Attended s)
    (w : MessageWindowController) (enableSilences : Bool) :
    Attended (s.queueMessageBlock w enableSilences) := by
  have once := attended.answeredOnce
  rcases queueMessageBlock_cases s w enableSilences with eq | eq | ⟨_, silences, eq⟩
  · rw [eq]
    refine ⟨attended.currentOnly, attended.closedOnly, attended.asked, ?_⟩
    rw [answered_giveReply]
    refine (answered_append w once).trans (List.Perm.map _ (List.Perm.filter _ ?_))
    refine List.perm_iff_count.mpr ?_
    intro v
    simp only [Manager.giveReply, List.count_append]
    omega
  · rw [eq]
    exact ⟨attended.currentOnly, attended.closedOnly, attended.asked, once⟩
  · obtain ⟨asks, shows, _, _, added⟩ :=
      addPending_eq { s with silencedNotifications := silences } w
    have stays : closings (s.mainQueue ++ asks) = closings s.mainQueue := by
      rw [closings_append, closings_shows shows, List.append_nil]
    rw [eq, added]
    refine ⟨attended.currentOnly, attended.closedOnly, ?_, ?_⟩
    · simp only [stays]
      exact attended.asked
    · simp only [stays]
      exact once

theorem attended_showQueuedWindowBlock {s : Manager} (attended : Attended s) :
    Attended s.showQueuedWindowBlock := by
  rcases showQueuedWindowBlock_cases s with ⟨eq, _⟩ | ⟨w, ws, none, _, eq⟩
  · rw [eq]
    exact attended
  · have up := attended.currentOnly
    rw [none] at up
    rw [eq]
    refine ⟨?_, attended.closedOnly, .inl ?_, attended.answeredOnce⟩
    · change s.onScreen ++ [w] = [w]
      rw [up]
      rfl
    · rcases attended.asked with nothing | ⟨v, shown, _⟩
      · exact nothing
      · rw [none] at shown
        exact nomatch shown

theorem attended_closeWindowBlock {s : Manager} {w : MessageWindowController}
    {rest : List Block} (inv : Orderly s) (attended : Attended s)
    (block : s.mainQueue = .closeWindow w :: rest) (toldAgain : Bool) :
    Attended ({ s with mainQueue := rest }.close w toldAgain) := by
  have closing : closings s.mainQueue = w :: closings rest := by rw [block]; rfl
  have once := attended.answeredOnce
  rcases attended.asked with none | ⟨v, current, only⟩
  · rw [closing] at none
    exact nomatch (List.append_eq_nil_iff.mp none).2
  · rw [closing] at only once
    obtain ⟨unprompted, here, later⟩ : s.prompts = [] ∧ w = v ∧ closings rest = [] := by
      cases prompts : s.prompts with
      | nil =>
        rw [prompts] at only
        exact ⟨rfl, List.cons.inj only⟩
      | cons u us =>
        rw [prompts] at only
        exact absurd (congrArg List.length only) (by simp)
    subst here
    rw [later] at once
    exact attended_close (orderly_run inv block) toldAgain current attended.currentOnly
      attended.closedOnly unprompted later once

theorem attended_dismissButton {s : Manager} {w : MessageWindowController} (inv : Orderly s)
    (attended : Attended s) (up : w ∈ s.onScreen)
    (unprompted : w ∉ s.prompts ∧ w ∉ closings s.mainQueue) (period : Int) :
    Attended (s.dismissButton w period) := by
  obtain ⟨current, noPrompt, noClosing⟩ := attended.idle up unprompted
  have once := attended.answeredOnce
  rw [noClosing, List.append_nil] at once
  refine attended_close (orderly_pressed inv w period) false current attended.currentOnly
    attended.closedOnly noPrompt noClosing ?_
  rw [answered_giveReply]
  exact answered_append w once

theorem attended_standAloneButton {s : Manager} {w : MessageWindowController}
    (attended : Attended s) (up : w ∈ s.onScreen)
    (unprompted : w ∉ s.prompts ∧ w ∉ closings s.mainQueue) :
    Attended (s.standAloneButton w) := by
  obtain ⟨current, noPrompt, noClosing⟩ := attended.idle up unprompted
  refine ⟨attended.currentOnly, attended.closedOnly, .inr ⟨w, current, ?_⟩,
    attended.answeredOnce⟩
  change s.prompts ++ [w] ++ closings s.mainQueue = [w]
  rw [noPrompt, noClosing]
  rfl

theorem attended_authorized {s : Manager} {w : MessageWindowController} (attended : Attended s)
    (prompted : w ∈ s.prompts) (success : Bool) : Attended (s.authorized w success) := by
  rcases attended.asked with none | ⟨v, current, only⟩
  · rw [(List.append_eq_nil_iff.mp none).1] at prompted
    exact nomatch prompted
  · obtain ⟨prompts, noClosing⟩ : s.prompts = [w] ∧ closings s.mainQueue = [] := by
      cases prompts : s.prompts with
      | nil =>
        rw [prompts] at prompted
        exact nomatch prompted
      | cons u us =>
        rw [prompts] at only prompted
        obtain ⟨first, rest⟩ := List.cons.inj only
        obtain ⟨noMore, noClosing⟩ := List.append_eq_nil_iff.mp rest
        rw [noMore, List.mem_singleton] at prompted
        rw [noMore, prompted]
        exact ⟨rfl, noClosing⟩
    have here : s.currentWindowController = some w := by
      rw [prompts, noClosing] at only
      rw [current, (List.cons.inj only).1]
    have queue : closings (s.authorized w success).mainQueue = [w] := by
      change closings (s.mainQueue ++ [.closeWindow w]) = [w]
      rw [closings_append, noClosing]
      rfl
    have once := attended.answeredOnce
    rw [noClosing, List.append_nil] at once
    refine ⟨attended.currentOnly, attended.closedOnly, .inr ⟨w, here, ?_⟩, ?_⟩
    · rw [queue]
      change s.prompts.erase w ++ [w] = [w]
      rw [prompts, List.erase_cons_head]
      rfl
    · rw [queue]
      change (({ s with prompts := s.prompts.erase w } : Manager).giveReply w
        success).answered.Perm _
      rw [answered_giveReply]
      exact answered_append w once

theorem attended_step (s : Manager) (l : Label) (t : Manager)
    (inv : Orderly s ∧ Attended s) (patient : Patient s l) (h : step s l = some t) :
    Orderly t ∧ Attended t := by
  obtain ⟨orderly, attended⟩ := inv
  refine ⟨orderly_step s l t orderly h, ?_⟩
  cases l with
  | post event silences =>
    obtain ⟨new, ignored, closing, _, eq⟩ := post_cases s event silences
    have stays : closings (s.mainQueue ++ new) = closings s.mainQueue := by
      rw [closings_append, closing, List.append_nil]
    rw [← Option.some.inj h, eq]
    refine ⟨attended.currentOnly, attended.closedOnly, ?_, ?_⟩
    · simp only [stays]
      exact attended.asked
    · simp only [stays]
      exact attended.answeredOnce
  | runBlock toldAgain =>
    cases block : s.mainQueue with
    | nil => simp [step, block] at h
    | cons b rest =>
      simp only [step, block] at h
      cases b with
      | queueMessage w enableSilences =>
        rw [← Option.some.inj h]
        exact attended_queueMessageBlock (attended_run attended block rfl) w enableSilences
      | showQueuedWindow =>
        rw [← Option.some.inj h]
        exact attended_showQueuedWindowBlock (attended_run attended block rfl)
      | closeWindow w =>
        rw [← Option.some.inj h]
        exact attended_closeWindowBlock orderly attended block toldAgain
  | button w period =>
    simp only [step] at h
    split at h
    · rename_i up
      rw [← Option.some.inj h]
      exact attended_dismissButton orderly attended up patient period
    · cases h
  | standAlone w =>
    simp only [step] at h
    split at h
    · rename_i up
      rw [← Option.some.inj h]
      exact attended_standAloneButton attended up.1 patient
    · cases h
  | authorize w success =>
    simp only [step] at h
    split at h
    · rename_i prompted
      rw [← Option.some.inj h]
      exact attended_authorized attended prompted success
    · cases h
  | setSilentMode enabled =>
    rw [← Option.some.inj h]
    exact ⟨attended.currentOnly, attended.closedOnly, attended.asked, attended.answeredOnce⟩
  | clock now =>
    rw [← Option.some.inj h]
    exact ⟨attended.currentOnly, attended.closedOnly, attended.asked, attended.answeredOnce⟩

theorem Orderly.distinct {s : Manager} (inv : Orderly s) : (ids (places s)).Nodup :=
  inv.accounted.nodup_iff.mpr List.nodup_range

theorem Attended.answeredOnce_nodup {s : Manager} (attended : Attended s) (inv : Orderly s) :
    s.answered.Nodup := by
  have pending : (closings s.mainQueue).Sublist s.pendingNotifications := by
    rcases attended.asked with none | ⟨w, current, only⟩
    · rw [(List.append_eq_nil_iff.mp none).2]
      exact List.nil_sublist _
    · have later : (closings s.mainQueue).Sublist [w] := by
        rw [← only]
        exact List.sublist_append_right _ _
      rw [inv.pending_eq, current]
      exact later.trans (List.sublist_append_left _ _)
  have placed : (s.duplicates ++ s.closed ++ closings s.mainQueue).Sublist (places s) := by
    have accepted : (s.removed ++ closings s.mainQueue).Sublist s.accepted := by
      rw [inv.inOrder]
      exact pending.append_left _
    simp only [attended.closedOnly, places, List.append_assoc]
    refine List.Sublist.trans ?_
      ((List.sublist_append_right _ _).trans (List.sublist_append_right _ _))
    exact (accepted.trans (List.sublist_append_right _ _)).append_left _
  refine attended.answeredOnce.nodup_iff.mpr (inv.distinct.sublist ?_)
  exact (List.filter_sublist.trans placed).map _

/-- In every run: no two of one hash on the list, windows shown first come first shown, one on its
    way whenever one is due, every notification received in exactly one place, and no window
    closed without its reply. If the user leaves windows alone whose prompt is up or whose closing
    is on its way, then also one window at a time, those taken off the list closed, and each reply
    given once. -/
theorem notifications_orderly (enableSilentMode : Bool) (now : Int)
    (silencedNotifications : String → Option Int) (ls : List Label) :
    Runs.Always step Orderly (Manager.new enableSilentMode now silencedNotifications) ls ∧
    (Runs.Meets step Patient (Manager.new enableSilentMode now silencedNotifications) ls →
      Runs.Always step (fun s => Attended s ∧ s.answered.Nodup)
        (Manager.new enableSilentMode now silencedNotifications) ls) := by
  refine ⟨Runs.always_of_keep Orderly orderly_step
    (orderly_new enableSilentMode now silencedNotifications) ls, ?_⟩
  intro patient
  refine Runs.always_mono ?_ (Runs.always_of_meets attended_step
    ⟨orderly_new enableSilentMode now silencedNotifications,
      attended_new enableSilentMode now silencedNotifications⟩ patient)
  exact fun s inv => ⟨inv.2, inv.2.answeredOnce_nodup inv.1⟩

def heldTool : MessageWindowController := ⟨0, .execution (some "tool") true⟩

def approvedRun : List Label :=
  [.post heldTool.event true, .runBlock false, .runBlock false, .standAlone heldTool,
    .authorize heldTool true, .runBlock false]

theorem approval_orderly :
    Runs.Always step Orderly (Manager.new false 0 fun _ => none) approvedRun ∧
      Runs.Always step (fun s => Attended s ∧ s.answered.Nodup)
        (Manager.new false 0 fun _ => none) approvedRun := by
  have orderly := notifications_orderly false 0 (fun _ => none) approvedRun
  refine ⟨orderly.1, orderly.2 ?_⟩
  refine (Runs.meets_cons rfl).mp ⟨trivial, ?_⟩
  refine (Runs.meets_cons rfl).mp ⟨trivial, ?_⟩
  refine (Runs.meets_cons rfl).mp ⟨trivial, ?_⟩
  refine (Runs.meets_cons rfl).mp ⟨⟨by decide, by decide⟩, ?_⟩
  refine (Runs.meets_cons rfl).mp ⟨trivial, ?_⟩
  exact (Runs.meets_cons rfl).mp ⟨trivial, trivial⟩

/- A window that is dismissed while its prompt is up gives a reply twice. -/
example : (Runs.run step (Manager.new false 0 fun _ => none)
    [.post heldTool.event true, .runBlock false, .runBlock false, .standAlone heldTool,
      .button heldTool 0, .authorize heldTool true]).map (·.replies) =
    some [(0, false), (0, true)] := by
  decide

end SantaNotificationManager
