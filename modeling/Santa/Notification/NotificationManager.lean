import Mathlib.Data.List.Nodup
import Santa.Library.Runs

/-!
The windows of Santa's GUI. Notifications arrive on any thread; what touches the
windows runs as blocks of the main queue, one after the other, and so do the buttons
of a window. The button that approves an execution asks for Touch ID and leaves the
window up. The prompt is answered on a thread of its own, which gives the reply and
dispatches the closing of the window; until then its other button still works. A
window that is closed a second time may or may not tell its controller. Clock, silent
mode and the silences of the user are read when a block runs.
-/
namespace SantaNotificationManager

inductive Event where
  | execution (fileSHA256 : Option String) (holdAndAsk : Bool)
  | device (mntonname : Option String)
  | networkMount (mountFromName : Option String)
  | fileAccess (ruleVersion ruleName filePath : Option String)
  deriving DecidableEq, Repr

structure MessageWindowController where
  window : Nat
  event : Event
  deriving DecidableEq, Repr

def describe (s : Option String) : String := s.getD "(null)"

namespace MessageWindowController

def messageHash (w : MessageWindowController) : Option String :=
  match w.event with
  | .execution fileSHA256 _ => fileSHA256
  | .device mntonname => mntonname
  | .networkMount mountFromName => mountFromName
  | .fileAccess ruleVersion ruleName filePath =>
      some (describe ruleVersion ++ "|" ++ describe ruleName ++ "|" ++ describe filePath)

def hasReply (w : MessageWindowController) : Bool :=
  match w.event with
  | .execution _ _ => true
  | _ => false

def holdAndAsk (w : MessageWindowController) : Bool :=
  match w.event with
  | .execution _ holdAndAsk => holdAndAsk
  | _ => false

def distributed (w : MessageWindowController) : Bool :=
  match w.event with
  | .execution _ _ => true
  | .fileAccess _ _ _ => true
  | _ => false

end MessageWindowController

inductive Block where
  | queueMessage (pendingMsg : MessageWindowController) (enableSilences : Bool)
  | showQueuedWindow
  | closeWindow (w : MessageWindowController)
  deriving DecidableEq, Repr

/-- `prompts` holds a window once for each Touch ID prompt of it that is up. The last nine fields
    record what happened, for the statements; `removed` are the windows taken off the list. -/
structure Manager where
  currentWindowController : Option MessageWindowController
  pendingNotifications : List MessageWindowController
  mainQueue : List Block
  onScreen : List MessageWindowController
  prompts : List MessageWindowController
  silenceFutureNotificationsPeriod : Nat → Int
  silencedNotifications : String → Option Int
  enableSilentMode : Bool
  now : Int
  nextWindow : Nat
  posted : List MessageWindowController
  ignored : List MessageWindowController
  duplicates : List MessageWindowController
  silenced : List MessageWindowController
  accepted : List MessageWindowController
  shown : List MessageWindowController
  removed : List MessageWindowController
  closed : List MessageWindowController
  replies : List (Nat × Bool)

namespace Manager

def new (enableSilentMode : Bool) (now : Int) (silencedNotifications : String → Option Int) :
    Manager :=
  ⟨none, [], [], [], [], fun _ => 0, silencedNotifications, enableSilentMode, now, 0, [], [], [],
    [], [], [], [], [], []⟩

def updateSilenceDate (s : Manager) (date : Option Int) (hash : String) : Manager :=
  { s with silencedNotifications := fun h => if h = hash then date else s.silencedNotifications h }

def notificationAlreadyQueued (s : Manager) (pendingMsg : MessageWindowController) : Bool :=
  s.pendingNotifications.any fun msg =>
    msg.messageHash.isSome && msg.messageHash == pendingMsg.messageHash

def silenceDate (s : Manager) (pendingMsg : MessageWindowController) : Option Int :=
  pendingMsg.messageHash.bind s.silencedNotifications

def dispatch (s : Manager) (b : Block) : Manager := { s with mainQueue := s.mainQueue ++ [b] }

def giveReply (s : Manager) (w : MessageWindowController) (success : Bool) : Manager :=
  { s with replies := if w.hasReply then s.replies ++ [(w.window, success)] else s.replies }

def addPending (s : Manager) (pendingMsg : MessageWindowController) : Manager :=
  let s := { s with
    pendingNotifications := s.pendingNotifications ++ [pendingMsg]
    accepted := s.accepted ++ [pendingMsg] }
  if s.currentWindowController.isNone then s.dispatch .showQueuedWindow else s

def queueMessageBlock (s : Manager) (pendingMsg : MessageWindowController)
    (enableSilences : Bool) : Manager :=
  if s.notificationAlreadyQueued pendingMsg then
    { s with duplicates := s.duplicates ++ [pendingMsg] }.giveReply pendingMsg false
  else if enableSilences then
    match pendingMsg.messageHash, s.silenceDate pendingMsg with
    | some hash, some date =>
        if s.now < date then { s with silenced := s.silenced ++ [pendingMsg] }
        else if date < s.now then (s.updateSilenceDate none hash).addPending pendingMsg
        else s.addPending pendingMsg
    | _, _ => s.addPending pendingMsg
  else s.addPending pendingMsg

def showQueuedWindowBlock (s : Manager) : Manager :=
  match s.currentWindowController, s.pendingNotifications with
  | none, w :: _ =>
      { s with
        currentWindowController := some w
        onScreen := s.onScreen ++ [w]
        shown := s.shown ++ [w] }
  | _, _ => s

/-- A post… method of the XPC protocol followed by `queueMessage:enableSilences:`. Only block
    notifications leave the choice of silences to the configuration. -/
def post (s : Manager) (event : Event) (enableNotificationSilences : Bool) : Manager :=
  let w : MessageWindowController := ⟨s.nextWindow, event⟩
  let s := { s with
    nextWindow := s.nextWindow + 1
    posted := if w.distributed then s.posted ++ [w] else s.posted }
  if s.enableSilentMode then { s with ignored := s.ignored ++ [w] }
  else s.dispatch (.queueMessage w (!w.hasReply || enableNotificationSilences))

/-- Takes the window that is the current one off the list, whichever window has closed. -/
def windowDidCloseSilenceHash (s : Manager) (hash : Option String) (interval : Int) : Manager :=
  let s := match hash with
    | some hash => s.updateSilenceDate (some (s.now + interval)) hash
    | none => s
  let s := { s with
    pendingNotifications := match s.currentWindowController with
      | some w => s.pendingNotifications.erase w
      | none => s.pendingNotifications
    removed := s.removed ++ s.currentWindowController.toList
    currentWindowController := none }
  if s.pendingNotifications = [] then s else s.dispatch .showQueuedWindow

def windowWillClose (s : Manager) (w : MessageWindowController) : Manager :=
  if s.silenceFutureNotificationsPeriod w.window = 0 then s.windowDidCloseSilenceHash none 0
  else s.windowDidCloseSilenceHash w.messageHash (s.silenceFutureNotificationsPeriod w.window)

/-- `toldAgain` says whether the controller of a window that is closed already is told. -/
def close (s : Manager) (w : MessageWindowController) (toldAgain : Bool) : Manager :=
  if w ∈ s.onScreen then
    { s with onScreen := s.onScreen.erase w, closed := s.closed ++ [w] }.windowWillClose w
  else if toldAgain then s.windowWillClose w
  else s

def uiStateCallback (s : Manager) (w : MessageWindowController) (period : Int) : Manager :=
  { s with
    silenceFutureNotificationsPeriod := fun i =>
      if i = w.window then period else s.silenceFutureNotificationsPeriod i }

/-- The buttons that dismiss a window or open its page. The period is 0 where the user chooses
    none, and where there is none to choose. -/
def dismissButton (s : Manager) (w : MessageWindowController) (period : Int) : Manager :=
  ((s.uiStateCallback w period).giveReply w false).close w false

def standAloneButton (s : Manager) (w : MessageWindowController) : Manager :=
  { s with prompts := s.prompts ++ [w] }

def authorized (s : Manager) (w : MessageWindowController) (success : Bool) : Manager :=
  ({ s with prompts := s.prompts.erase w }.giveReply w success).dispatch (.closeWindow w)

end Manager

inductive Label where
  | post (event : Event) (enableNotificationSilences : Bool)
  | runBlock (toldAgain : Bool)
  | button (w : MessageWindowController) (period : Int)
  | standAlone (w : MessageWindowController)
  | authorize (w : MessageWindowController) (success : Bool)
  | setSilentMode (enabled : Bool)
  | clock (now : Int)
  deriving DecidableEq, Repr

def step (s : Manager) : Label → Option Manager
  | .post event enableNotificationSilences => some (s.post event enableNotificationSilences)
  | .runBlock toldAgain =>
      match s.mainQueue with
      | [] => none
      | .queueMessage w enableSilences :: rest =>
          some ({ s with mainQueue := rest }.queueMessageBlock w enableSilences)
      | .showQueuedWindow :: rest => some { s with mainQueue := rest }.showQueuedWindowBlock
      | .closeWindow w :: rest => some ({ s with mainQueue := rest }.close w toldAgain)
  | .button w period => if w ∈ s.onScreen then some (s.dismissButton w period) else none
  | .standAlone w =>
      if w ∈ s.onScreen ∧ w.holdAndAsk then some (s.standAloneButton w) else none
  | .authorize w success => if w ∈ s.prompts then some (s.authorized w success) else none
  | .setSilentMode enabled => some { s with enableSilentMode := enabled }
  | .clock now => some { s with now := now }

/-! ### What holds in every reachable state -/

def Block.queued : Block → Option MessageWindowController
  | .queueMessage w _ => some w
  | _ => none

def Block.closing : Block → Option MessageWindowController
  | .closeWindow w => some w
  | _ => none

def waiting (bs : List Block) : List MessageWindowController := bs.filterMap Block.queued

def closings (bs : List Block) : List MessageWindowController := bs.filterMap Block.closing

def places (s : Manager) : List MessageWindowController :=
  s.ignored ++ waiting s.mainQueue ++ s.duplicates ++ s.silenced ++ s.accepted

def ids (ws : List MessageWindowController) : List Nat := ws.map (·.window)

def Manager.answered (s : Manager) : List Nat := s.replies.map (·.1)

/-- In any order of steps: the list and the windows that were ever shown are those of the accepted
    notifications, in their order. A window that is closed, or is about to be, has its reply. -/
structure Orderly (s : Manager) : Prop where
  currentFirst : ∀ w, s.currentWindowController = some w → s.pendingNotifications.head? = some w
  hashesDiffer : (s.pendingNotifications.filterMap (·.messageHash)).Nodup
  windowComing : s.pendingNotifications ≠ [] →
    s.currentWindowController ≠ none ∨ .showQueuedWindow ∈ s.mainQueue
  inOrder : s.accepted = s.removed ++ s.pendingNotifications
  shownOnce : s.shown = s.removed ++ s.currentWindowController.toList
  currentUp : ∀ w, s.currentWindowController = some w → w ∈ s.onScreen
  windows : (s.closed ++ s.onScreen).Perm s.shown
  accounted : (ids (places s)).Perm (List.range s.nextWindow)
  broadcast : ∀ w ∈ places s, w.distributed = true → w ∈ s.posted
  replied : ∀ w ∈ s.duplicates ++ s.closed ++ closings s.mainQueue, w.hasReply = true →
    w.window ∈ s.answered

theorem orderly_new (enableSilentMode : Bool) (now : Int)
    (silencedNotifications : String → Option Int) :
    Orderly (Manager.new enableSilentMode now silencedNotifications) := by
  constructor
  · exact fun w current => nomatch current
  · exact List.nodup_nil
  · exact fun pending => absurd rfl pending
  · rfl
  · rfl
  · exact fun w current => nomatch current
  · exact List.Perm.refl _
  · exact List.Perm.refl _
  · exact fun w member => nomatch member
  · exact fun w member => nomatch member

@[simp] theorem waiting_append (bs cs : List Block) :
    waiting (bs ++ cs) = waiting bs ++ waiting cs :=
  List.filterMap_append

@[simp] theorem closings_append (bs cs : List Block) :
    closings (bs ++ cs) = closings bs ++ closings cs :=
  List.filterMap_append

theorem waiting_shows {bs : List Block} (shows : ∀ b ∈ bs, b = .showQueuedWindow) :
    waiting bs = [] :=
  List.filterMap_eq_nil_iff.mpr fun b member => by rw [shows b member]; rfl

theorem closings_shows {bs : List Block} (shows : ∀ b ∈ bs, b = .showQueuedWindow) :
    closings bs = [] :=
  List.filterMap_eq_nil_iff.mpr fun b member => by rw [shows b member]; rfl

theorem answered_giveReply (s : Manager) (w : MessageWindowController) (success : Bool) :
    (s.giveReply w success).answered = s.answered ++ ids ([w].filter (·.hasReply)) := by
  cases reply : w.hasReply with
  | true => simp [Manager.giveReply, Manager.answered, ids, reply]
  | false => simp [Manager.giveReply, Manager.answered, ids, reply]

theorem mem_answered_giveReply (s : Manager) {w : MessageWindowController} (success : Bool)
    (reply : w.hasReply = true) : w.window ∈ (s.giveReply w success).answered := by
  rw [answered_giveReply]
  simp [ids, reply]

theorem answered_grows (s : Manager) (w : MessageWindowController) (success : Bool) {i : Nat}
    (member : i ∈ s.answered) : i ∈ (s.giveReply w success).answered := by
  rw [answered_giveReply]
  exact List.mem_append_left _ member

theorem not_alreadyQueued {s : Manager} {w : MessageWindowController}
    (fresh : s.notificationAlreadyQueued w = false) :
    ∀ hash ∈ w.messageHash.toList, hash ∉ s.pendingNotifications.filterMap (·.messageHash) := by
  intro hash here there
  obtain ⟨msg, member, same⟩ := List.mem_filterMap.mp there
  have equal : w.messageHash = some hash := by simpa using here
  have differs := List.any_eq_false.mp fresh msg member
  simp [same, equal] at differs

theorem hashes_append {ws : List MessageWindowController} {w : MessageWindowController}
    (differ : (ws.filterMap (·.messageHash)).Nodup)
    (fresh : ∀ hash ∈ w.messageHash.toList, hash ∉ ws.filterMap (·.messageHash)) :
    ((ws ++ [w]).filterMap (·.messageHash)).Nodup := by
  have single : [w].filterMap (·.messageHash) = w.messageHash.toList := by
    cases h : w.messageHash <;> simp [h]
  rw [List.filterMap_append, single]
  refine List.nodup_append.mpr ⟨differ, ?_, ?_⟩
  · cases w.messageHash <;> simp
  · exact fun old here new there same => fresh new there (same ▸ here)

theorem queueMessageBlock_cases (s : Manager) (w : MessageWindowController)
    (enableSilences : Bool) :
    s.queueMessageBlock w enableSilences =
      { s with duplicates := s.duplicates ++ [w] }.giveReply w false ∨
    s.queueMessageBlock w enableSilences = { s with silenced := s.silenced ++ [w] } ∨
    (s.notificationAlreadyQueued w = false ∧ ∃ silences,
      s.queueMessageBlock w enableSilences =
        { s with silencedNotifications := silences }.addPending w) := by
  cases queued : s.notificationAlreadyQueued w with
  | true => exact .inl (by simp only [Manager.queueMessageBlock, queued, if_true])
  | false =>
    right
    simp only [Manager.queueMessageBlock, queued, Bool.false_eq_true, if_false, true_and]
    split
    · split
      · rename_i hash date _ _
        by_cases later : s.now < date
        · exact .inl (if_pos later)
        · rw [if_neg later]
          by_cases expired : date < s.now
          · exact .inr ⟨_, if_pos expired⟩
          · exact .inr ⟨s.silencedNotifications, if_neg expired⟩
      · exact .inr ⟨s.silencedNotifications, rfl⟩
    · exact .inr ⟨s.silencedNotifications, rfl⟩

def unshown (s : Manager) : List MessageWindowController :=
  match s.currentWindowController with
  | none => s.pendingNotifications
  | some _ => s.pendingNotifications.tail

theorem Orderly.pending_eq {s : Manager} (inv : Orderly s) :
    s.pendingNotifications = s.currentWindowController.toList ++ unshown s := by
  cases current : s.currentWindowController with
  | none => simp [unshown, current]
  | some w =>
    obtain ⟨ws, pending⟩ := List.head?_eq_some_iff.mp (inv.currentFirst w current)
    simp [unshown, current, pending]

theorem Orderly.accepted_eq {s : Manager} (inv : Orderly s) :
    s.accepted = s.shown ++ unshown s := by
  rw [inv.inOrder, inv.shownOnce, inv.pending_eq, List.append_assoc]

def nextShown (s : Manager) : List Block := if unshown s = [] then [] else [.showQueuedWindow]

theorem mem_nextShown {s : Manager} {b : Block} (member : b ∈ nextShown s) :
    b = .showQueuedWindow := by
  unfold nextShown at member
  split at member
  · exact nomatch member
  · exact List.mem_singleton.mp member

theorem closings_nextShown (s : Manager) : closings (nextShown s) = [] :=
  closings_shows fun _ => mem_nextShown

theorem waiting_nextShown (s : Manager) : waiting (nextShown s) = [] :=
  waiting_shows fun _ => mem_nextShown

def Manager.withoutCurrent (s : Manager) (silences : String → Option Int) : Manager :=
  { s with
    currentWindowController := none
    pendingNotifications := unshown s
    mainQueue := s.mainQueue ++ nextShown s
    silencedNotifications := silences
    removed := s.removed ++ s.currentWindowController.toList }

def Manager.down (s : Manager) (w : MessageWindowController) (silences : String → Option Int) :
    Manager :=
  { s with
    onScreen := s.onScreen.erase w
    closed := s.closed ++ if w ∈ s.onScreen then [w] else [] }.withoutCurrent silences

theorem windowDidClose_eq {s : Manager} (hash : Option String) (interval : Int)
    (first : ∀ w, s.currentWindowController = some w → s.pendingNotifications.head? = some w) :
    ∃ silences, s.windowDidCloseSilenceHash hash interval = s.withoutCurrent silences := by
  have rest : (match s.currentWindowController with
      | some w => s.pendingNotifications.erase w
      | none => s.pendingNotifications) = unshown s := by
    cases current : s.currentWindowController with
    | none => simp [unshown, current]
    | some w =>
      obtain ⟨ws, pending⟩ := List.head?_eq_some_iff.mp (first w current)
      simp [unshown, current, pending]
  cases hash with
  | none =>
    refine ⟨s.silencedNotifications, ?_⟩
    simp only [Manager.windowDidCloseSilenceHash, rest, Manager.withoutCurrent, nextShown]
    split
    · simp
    · rfl
  | some hash =>
    refine ⟨(s.updateSilenceDate (some (s.now + interval)) hash).silencedNotifications, ?_⟩
    simp only [Manager.windowDidCloseSilenceHash, Manager.updateSilenceDate, rest,
      Manager.withoutCurrent, nextShown]
    split
    · simp
    · rfl

theorem windowWillClose_eq {s : Manager} (w : MessageWindowController)
    (first : ∀ w, s.currentWindowController = some w → s.pendingNotifications.head? = some w) :
    ∃ silences, s.windowWillClose w = s.withoutCurrent silences := by
  unfold Manager.windowWillClose
  split
  · exact windowDidClose_eq none 0 first
  · exact windowDidClose_eq _ _ first

theorem close_cases {s : Manager} (inv : Orderly s) (w : MessageWindowController)
    (toldAgain : Bool) :
    (w ∉ s.onScreen ∧ s.close w toldAgain = s) ∨
      ∃ silences, s.close w toldAgain = s.down w silences := by
  by_cases up : w ∈ s.onScreen
  · obtain ⟨silences, eq⟩ := windowWillClose_eq
      (s := { s with onScreen := s.onScreen.erase w, closed := s.closed ++ [w] }) w
      inv.currentFirst
    refine .inr ⟨silences, ?_⟩
    rw [Manager.close, if_pos up, eq, Manager.down, if_pos up]
  · cases toldAgain with
    | false => exact .inl ⟨up, if_neg up⟩
    | true =>
      obtain ⟨silences, eq⟩ := windowWillClose_eq w inv.currentFirst
      refine .inr ⟨silences, ?_⟩
      rw [Manager.close, if_neg up, if_pos rfl, eq, Manager.down, if_neg up, List.append_nil,
        List.erase_of_not_mem up]

/-! ### One step, in any order -/

theorem down_queue (s : Manager) (w : MessageWindowController)
    (silences : String → Option Int) :
    waiting (s.down w silences).mainQueue = waiting s.mainQueue ∧
      closings (s.down w silences).mainQueue = closings s.mainQueue := by
  have queue : (s.down w silences).mainQueue = s.mainQueue ++ nextShown s := rfl
  rw [queue, waiting_append, closings_append, waiting_nextShown, closings_nextShown,
    List.append_nil, List.append_nil]
  exact ⟨rfl, rfl⟩

theorem places_down (s : Manager) (w : MessageWindowController)
    (silences : String → Option Int) : places (s.down w silences) = places s := by
  rw [places, (down_queue s w silences).1]
  rfl

theorem orderly_down {s : Manager} {w : MessageWindowController} (inv : Orderly s)
    (silences : String → Option Int)
    (answered : w ∈ s.onScreen → w.hasReply = true → w.window ∈ s.answered) :
    Orderly (s.down w silences) := by
  have later : (unshown s).Sublist s.pendingNotifications := by
    rw [inv.pending_eq]
    exact List.sublist_append_right _ _
  constructor
  · exact fun v current => nomatch current
  · exact inv.hashesDiffer.sublist (later.filterMap _)
  · intro more
    have some : unshown s ≠ [] := more
    have asks : nextShown s = [.showQueuedWindow] := if_neg some
    refine .inr (List.mem_append_right _ ?_)
    change Block.showQueuedWindow ∈ nextShown s
    rw [asks]
    exact List.mem_singleton.mpr rfl
  · change s.accepted = (s.removed ++ s.currentWindowController.toList) ++ unshown s
    rw [inv.inOrder, inv.pending_eq, List.append_assoc]
  · change s.shown = (s.removed ++ s.currentWindowController.toList) ++ []
    rw [inv.shownOnce, List.append_nil]
  · exact fun v current => nomatch current
  · change ((s.closed ++ if w ∈ s.onScreen then [w] else []) ++ s.onScreen.erase w).Perm s.shown
    split
    · rename_i up
      rw [List.append_assoc]
      exact (List.Perm.append_left _ (List.perm_cons_erase up).symm).trans inv.windows
    · rename_i gone
      rw [List.append_nil, List.erase_of_not_mem gone]
      exact inv.windows
  · rw [places_down]
    exact inv.accounted
  · rw [places_down]
    exact inv.broadcast
  · rw [(down_queue s w silences).2]
    intro v member reply
    change v ∈ s.duplicates ++ (s.closed ++ if w ∈ s.onScreen then [w] else []) ++
      closings s.mainQueue at member
    rcases List.mem_append.mp member with there | closing
    · rcases List.mem_append.mp there with duplicate | closed
      · exact inv.replied v (List.mem_append_left _ (List.mem_append_left _ duplicate)) reply
      · rcases List.mem_append.mp closed with old | new
        · exact inv.replied v (List.mem_append_left _ (List.mem_append_right _ old)) reply
        · split at new
          · rename_i up
            rw [List.mem_singleton] at new
            subst new
            exact answered up reply
          · exact nomatch new
    · exact inv.replied v (List.mem_append_right _ closing) reply

theorem orderly_close {s : Manager} {w : MessageWindowController} (inv : Orderly s)
    (toldAgain : Bool)
    (answered : w ∈ s.onScreen → w.hasReply = true → w.window ∈ s.answered) :
    Orderly (s.close w toldAgain) := by
  rcases close_cases inv w toldAgain with ⟨_, eq⟩ | ⟨silences, eq⟩
  · rw [eq]
    exact inv
  · rw [eq]
    exact orderly_down inv silences answered

theorem orderly_run {s : Manager} {w : MessageWindowController} {rest : List Block}
    (inv : Orderly s) (block : s.mainQueue = .closeWindow w :: rest) :
    Orderly { s with mainQueue := rest } := by
  have queued : waiting s.mainQueue = waiting rest := by rw [block]; rfl
  have closing : closings s.mainQueue = w :: closings rest := by rw [block]; rfl
  constructor
  · exact inv.currentFirst
  · exact inv.hashesDiffer
  · intro pending
    simpa [block] using inv.windowComing pending
  · exact inv.inOrder
  · exact inv.shownOnce
  · exact inv.currentUp
  · exact inv.windows
  · simpa only [places, queued] using inv.accounted
  · simpa only [places, queued] using inv.broadcast
  · intro v member reply
    refine inv.replied v ?_ reply
    rw [closing]
    rcases List.mem_append.mp member with there | later
    · exact List.mem_append_left _ there
    · exact List.mem_append_right _ (List.mem_cons_of_mem _ later)

theorem orderly_closeWindowBlock {s : Manager} {w : MessageWindowController}
    {rest : List Block} (inv : Orderly s) (block : s.mainQueue = .closeWindow w :: rest)
    (toldAgain : Bool) : Orderly ({ s with mainQueue := rest }.close w toldAgain) := by
  refine orderly_close (orderly_run inv block) toldAgain ?_
  intro _ reply
  refine inv.replied w (List.mem_append_right _ ?_) reply
  rw [block]
  exact List.mem_cons_self

theorem orderly_giveReply {s : Manager} (inv : Orderly s) (w : MessageWindowController)
    (success : Bool) : Orderly (s.giveReply w success) :=
  ⟨inv.currentFirst, inv.hashesDiffer, inv.windowComing, inv.inOrder, inv.shownOnce,
    inv.currentUp, inv.windows, inv.accounted, inv.broadcast,
    fun v member reply => answered_grows s w success (inv.replied v member reply)⟩

theorem orderly_pressed {s : Manager} (inv : Orderly s) (w : MessageWindowController)
    (period : Int) : Orderly ((s.uiStateCallback w period).giveReply w false) := by
  refine orderly_giveReply ?_ w false
  exact ⟨inv.currentFirst, inv.hashesDiffer, inv.windowComing, inv.inOrder, inv.shownOnce,
    inv.currentUp, inv.windows, inv.accounted, inv.broadcast, inv.replied⟩

theorem orderly_dismissButton {s : Manager} (inv : Orderly s) (w : MessageWindowController)
    (period : Int) : Orderly (s.dismissButton w period) :=
  orderly_close (orderly_pressed inv w period) false
    fun _ reply => mem_answered_giveReply _ false reply

theorem orderly_authorized {s : Manager} (inv : Orderly s) (w : MessageWindowController)
    (success : Bool) : Orderly (s.authorized w success) := by
  have replied := orderly_giveReply inv w success
  have queue : (s.authorized w success).mainQueue = s.mainQueue ++ [.closeWindow w] := rfl
  have queued : waiting (s.mainQueue ++ [.closeWindow w]) = waiting s.mainQueue := by
    rw [waiting_append]
    exact List.append_nil _
  have closing : closings (s.mainQueue ++ [.closeWindow w]) = closings s.mainQueue ++ [w] :=
    closings_append _ _
  constructor
  · exact inv.currentFirst
  · exact inv.hashesDiffer
  · exact fun pending => (inv.windowComing pending).imp_right (List.mem_append_left _)
  · exact inv.inOrder
  · exact inv.shownOnce
  · exact inv.currentUp
  · exact inv.windows
  · rw [places, queue, queued]
    exact inv.accounted
  · rw [places, queue, queued]
    exact inv.broadcast
  · intro v member reply
    rw [queue, closing, ← List.append_assoc] at member
    rcases List.mem_append.mp member with old | new
    · exact replied.replied v old reply
    · rw [List.mem_singleton.mp new] at reply ⊢
      exact mem_answered_giveReply { s with prompts := s.prompts.erase w } success reply

theorem addPending_eq (s : Manager) (w : MessageWindowController) :
    ∃ asked : List Block, (∀ b ∈ asked, b = .showQueuedWindow) ∧ asked.length ≤ 1 ∧
      (s.currentWindowController = none → .showQueuedWindow ∈ asked) ∧
      s.addPending w = { s with
        pendingNotifications := s.pendingNotifications ++ [w]
        accepted := s.accepted ++ [w]
        mainQueue := s.mainQueue ++ asked } := by
  cases current : s.currentWindowController with
  | none =>
    refine ⟨[.showQueuedWindow], by simp, by simp, by simp, ?_⟩
    simp [Manager.addPending, current, Manager.dispatch]
  | some shown =>
    refine ⟨[], by simp, by simp, by simp, ?_⟩
    simp [Manager.addPending, current]

theorem Orderly.move {s t : Manager} (inv : Orderly s) (same : (places t).Perm (places s))
    (next : t.nextWindow = s.nextWindow) (posted : t.posted = s.posted) :
    (ids (places t)).Perm (List.range t.nextWindow) ∧
      ∀ w ∈ places t, w.distributed = true → w ∈ t.posted := by
  constructor
  · rw [next]
    exact (same.map _).trans inv.accounted
  · intro w member wide
    rw [posted]
    exact inv.broadcast w (same.mem_iff.mp member) wide

theorem orderly_duplicate {s : Manager} {w : MessageWindowController} {enableSilences : Bool}
    {rest : List Block} (inv : Orderly s)
    (block : s.mainQueue = .queueMessage w enableSilences :: rest) :
    Orderly ({ s with mainQueue := rest, duplicates := s.duplicates ++ [w] }.giveReply w
      false) := by
  have queued : waiting s.mainQueue = w :: waiting rest := by rw [block]; rfl
  have closing : closings s.mainQueue = closings rest := by rw [block]; rfl
  have moved := inv.move (t := { s with
    mainQueue := rest
    duplicates := s.duplicates ++ [w] }) (by
      refine List.perm_iff_count.mpr ?_
      intro v
      simp only [places, queued, List.count_append, List.count_cons, List.count_nil]
      omega) rfl rfl
  have coming : s.pendingNotifications ≠ [] →
      s.currentWindowController ≠ none ∨ .showQueuedWindow ∈ rest := by
    intro pending
    simpa [block] using inv.windowComing pending
  refine ⟨inv.currentFirst, inv.hashesDiffer, coming, inv.inOrder, inv.shownOnce,
    inv.currentUp, inv.windows, moved.1, moved.2, ?_⟩
  intro v member reply
  change v ∈ s.duplicates ++ [w] ++ s.closed ++ closings rest at member
  simp only [List.mem_append, List.mem_singleton] at member
  by_cases new : v = w
  · rw [new] at reply ⊢
    exact mem_answered_giveReply _ false reply
  · refine answered_grows _ w false (inv.replied v ?_ reply)
    rw [closing]
    simp only [List.mem_append]
    rcases member with ((old | same) | closed) | closing
    · exact .inl (.inl old)
    · exact absurd same new
    · exact .inl (.inr closed)
    · exact .inr closing

theorem orderly_queueMessageBlock {s : Manager} {w : MessageWindowController}
    {enableSilences : Bool} {rest : List Block} (inv : Orderly s)
    (block : s.mainQueue = .queueMessage w enableSilences :: rest) :
    Orderly ({ s with mainQueue := rest }.queueMessageBlock w enableSilences) := by
  have coming : s.pendingNotifications ≠ [] →
      s.currentWindowController ≠ none ∨ .showQueuedWindow ∈ rest := by
    intro pending
    simpa [block] using inv.windowComing pending
  have queued : waiting s.mainQueue = w :: waiting rest := by rw [block]; rfl
  have closing : closings s.mainQueue = closings rest := by rw [block]; rfl
  have replied := inv.replied
  rw [closing] at replied
  rcases queueMessageBlock_cases { s with mainQueue := rest } w enableSilences with
    eq | eq | ⟨fresh, silences, eq⟩
  · have duplicate := orderly_duplicate inv block
    rw [eq]
    exact duplicate
  · rw [eq]
    have moved := inv.move (t := { s with mainQueue := rest, silenced := s.silenced ++ [w] }) (by
        refine List.perm_iff_count.mpr ?_
        intro v
        simp only [places, queued, List.count_append, List.count_cons, List.count_nil]
        omega) rfl rfl
    exact ⟨inv.currentFirst, inv.hashesDiffer, coming, inv.inOrder, inv.shownOnce,
      inv.currentUp, inv.windows, moved.1, moved.2, replied⟩
  · obtain ⟨asked, shows, _, asks, added⟩ :=
      addPending_eq { s with mainQueue := rest, silencedNotifications := silences } w
    rw [eq, added]
    have moved := inv.move (t := { s with
      mainQueue := rest ++ asked
      silencedNotifications := silences
      pendingNotifications := s.pendingNotifications ++ [w]
      accepted := s.accepted ++ [w] }) (by
        refine List.perm_iff_count.mpr ?_
        intro v
        simp only [places, queued, waiting_append, waiting_shows shows, List.count_append,
          List.count_cons, List.count_nil]
        omega) rfl rfl
    refine ⟨?_, ?_, ?_, ?_, inv.shownOnce, inv.currentUp, inv.windows, moved.1, moved.2, ?_⟩
    · intro v current
      have first := inv.currentFirst v current
      simp [List.head?_append, first]
    · exact hashes_append inv.hashesDiffer (not_alreadyQueued fresh)
    · intro _
      by_cases current : s.currentWindowController = none
      · exact .inr (List.mem_append_right _ (asks current))
      · exact .inl current
    · change s.accepted ++ [w] = s.removed ++ (s.pendingNotifications ++ [w])
      rw [inv.inOrder, List.append_assoc]
    · have same : closings (rest ++ asked) = closings rest := by
        rw [closings_append, closings_shows shows, List.append_nil]
      simp only [same]
      exact replied

theorem post_cases (s : Manager) (event : Event) (silences : Bool) :
    ∃ new : List Block, ∃ ignored : List MessageWindowController,
      closings new = [] ∧
      ignored ++ waiting new = [⟨s.nextWindow, event⟩] ∧
      s.post event silences = { s with
        nextWindow := s.nextWindow + 1
        posted := if (⟨s.nextWindow, event⟩ : MessageWindowController).distributed then
          s.posted ++ [⟨s.nextWindow, event⟩] else s.posted
        mainQueue := s.mainQueue ++ new
        ignored := s.ignored ++ ignored } := by
  cases silent : s.enableSilentMode with
  | true => exact ⟨[], [⟨s.nextWindow, event⟩], rfl, rfl, by simp [Manager.post, silent]⟩
  | false =>
    let w : MessageWindowController := ⟨s.nextWindow, event⟩
    exact ⟨[.queueMessage w (!w.hasReply || silences)], [], rfl, rfl,
      by simp [Manager.post, silent, Manager.dispatch, w]⟩

theorem orderly_post {s : Manager} (inv : Orderly s) (event : Event) (silences : Bool) :
    Orderly (s.post event silences) := by
  obtain ⟨new, ignored, closing, arrived, eq⟩ := post_cases s event silences
  rw [eq]
  have same : (places { s with
      mainQueue := s.mainQueue ++ new
      ignored := s.ignored ++ ignored }).Perm (places s ++ [⟨s.nextWindow, event⟩]) := by
    rw [← arrived]
    refine List.perm_iff_count.mpr ?_
    intro v
    simp only [places, waiting_append, List.count_append]
    omega
  refine ⟨inv.currentFirst, inv.hashesDiffer, ?_, inv.inOrder, inv.shownOnce, inv.currentUp,
    inv.windows, ?_, ?_, ?_⟩
  · exact fun pending => (inv.windowComing pending).imp_right (List.mem_append_left _)
  · rw [List.range_succ]
    refine (same.map _).trans ?_
    simpa [ids] using inv.accounted.append_right [s.nextWindow]
  · intro w member wide
    rcases List.mem_append.mp (same.mem_iff.mp member) with old | newest
    · have there := inv.broadcast w old wide
      simp only
      split
      · exact List.mem_append_left _ there
      · exact there
    · rw [List.mem_singleton] at newest
      rw [← newest, if_pos wide]
      exact List.mem_append_right _ List.mem_cons_self
  · have stays : closings (s.mainQueue ++ new) = closings s.mainQueue := by
      rw [closings_append, closing, List.append_nil]
    simp only [stays]
    exact inv.replied

theorem showQueuedWindowBlock_cases (s : Manager) :
    (s.showQueuedWindowBlock = s ∧
      (s.pendingNotifications ≠ [] → s.currentWindowController ≠ none)) ∨
    ∃ w ws, s.currentWindowController = none ∧ s.pendingNotifications = w :: ws ∧
      s.showQueuedWindowBlock = { s with
        currentWindowController := some w
        onScreen := s.onScreen ++ [w]
        shown := s.shown ++ [w] } := by
  cases current : s.currentWindowController with
  | some shown => exact .inl ⟨by simp [Manager.showQueuedWindowBlock, current], by simp⟩
  | none =>
    cases pending : s.pendingNotifications with
    | nil => exact .inl ⟨by simp [Manager.showQueuedWindowBlock, current, pending], by simp⟩
    | cons w ws =>
      exact .inr ⟨w, ws, rfl, rfl, by simp [Manager.showQueuedWindowBlock, current, pending]⟩

theorem orderly_showQueuedWindowBlock {s : Manager} {rest : List Block} (inv : Orderly s)
    (block : s.mainQueue = .showQueuedWindow :: rest) :
    Orderly ({ s with mainQueue := rest }.showQueuedWindowBlock) := by
  have queued : waiting s.mainQueue = waiting rest := by rw [block]; rfl
  have closing : closings s.mainQueue = closings rest := by rw [block]; rfl
  have held := inv.accounted
  have wide := inv.broadcast
  have replied := inv.replied
  simp only [places, queued] at held wide
  rw [closing] at replied
  rcases showQueuedWindowBlock_cases { s with mainQueue := rest } with
    ⟨eq, up⟩ | ⟨w, ws, current, pending, eq⟩
  · rw [eq]
    exact ⟨inv.currentFirst, inv.hashesDiffer, fun some => .inl (up some), inv.inOrder,
      inv.shownOnce, inv.currentUp, inv.windows, held, wide, replied⟩
  · rw [eq]
    have none : s.currentWindowController = none := current
    have first : s.pendingNotifications = w :: ws := pending
    refine ⟨?_, inv.hashesDiffer, fun _ => .inl (by simp), inv.inOrder, ?_, ?_, ?_, held, wide,
      replied⟩
    · intro v same
      rw [Option.some.injEq] at same
      rw [← same]
      exact congrArg List.head? first
    · have shown := inv.shownOnce
      rw [none] at shown
      simp [shown]
    · intro v same
      rw [Option.some.injEq] at same
      rw [← same]
      exact List.mem_append_right _ List.mem_cons_self
    · change (s.closed ++ (s.onScreen ++ [w])).Perm (s.shown ++ [w])
      rw [← List.append_assoc]
      exact inv.windows.append_right [w]

theorem orderly_step (s : Manager) (l : Label) (t : Manager) (inv : Orderly s)
    (h : step s l = some t) : Orderly t := by
  cases l with
  | post event silences =>
    rw [← Option.some.inj h]
    exact orderly_post inv event silences
  | runBlock toldAgain =>
    cases block : s.mainQueue with
    | nil => simp [step, block] at h
    | cons b rest =>
      simp only [step, block] at h
      cases b with
      | queueMessage w enableSilences =>
        rw [← Option.some.inj h]
        exact orderly_queueMessageBlock inv block
      | showQueuedWindow =>
        rw [← Option.some.inj h]
        exact orderly_showQueuedWindowBlock inv block
      | closeWindow w =>
        rw [← Option.some.inj h]
        exact orderly_closeWindowBlock inv block toldAgain
  | button w period =>
    simp only [step] at h
    split at h
    · rw [← Option.some.inj h]
      exact orderly_dismissButton inv w period
    · exact nomatch h
  | standAlone w =>
    simp only [step] at h
    split at h
    · rw [← Option.some.inj h]
      exact ⟨inv.currentFirst, inv.hashesDiffer, inv.windowComing, inv.inOrder, inv.shownOnce,
        inv.currentUp, inv.windows, inv.accounted, inv.broadcast, inv.replied⟩
    · exact nomatch h
  | authorize w success =>
    simp only [step] at h
    split at h
    · rw [← Option.some.inj h]
      exact orderly_authorized inv w success
    · exact nomatch h
  | setSilentMode enabled =>
    rw [← Option.some.inj h]
    exact ⟨inv.currentFirst, inv.hashesDiffer, inv.windowComing, inv.inOrder, inv.shownOnce,
      inv.currentUp, inv.windows, inv.accounted, inv.broadcast, inv.replied⟩
  | clock now =>
    rw [← Option.some.inj h]
    exact ⟨inv.currentFirst, inv.hashesDiffer, inv.windowComing, inv.inOrder, inv.shownOnce,
      inv.currentUp, inv.windows, inv.accounted, inv.broadcast, inv.replied⟩

end SantaNotificationManager
