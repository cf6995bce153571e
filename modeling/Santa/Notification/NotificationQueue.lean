import Mathlib.Data.List.Nodup
import Santa.Common.RingBuffer
import Santa.Library.Runs

/-!
The queue of GUI notifications. What runs on the serial queue is one step, as are
the parts of a method or handler before and after it: assigning a connection and
flushing, dropping the connection and clearing, taking an answered notification
off the list and calling its reply block. Connections are numbered; a message
sent on one is answered by the GUI at most once, and never after the connection's
interruption or invalidation handler has started. That handler may run again.
-/
namespace SantaNotificationQueue

abbrev Connection := Nat

structure Notification where
  event : String
  message : Option String
  url : Option String
  config : Option String
  reply : Option Nat
  deriving DecidableEq, Repr

inductive Cause where
  | missingEvent
  | dropped
  | clearedPending
  | clearedSent (sentOn : Connection) (invalidated : Bool)
  | user
  deriving DecidableEq, Repr

structure Answer where
  reply : Nat
  authenticated : Bool
  cause : Cause
  deriving DecidableEq, Repr

/-- `sentToUser` holds notifications only; the connection beside each is recorded for the
    statements, as are the answers and whether a handler has replaced a connection that
    was not its own. -/
structure State where
  notifierConnection : Option Connection
  connected : List Connection
  invalidated : List Connection
  opened : List Connection
  pendingNotifications : RingBuffer Notification
  sentToUser : List (Connection × Notification)
  inFlight : List (Connection × Notification)
  unflushed : Nat
  uncleared : List Connection
  replying : List (Nat × Bool)
  nextReply : Nat
  answers : List Answer
  currentLost : Bool

def State.new (capacity : Nat) (positive : 0 < capacity) : State :=
  ⟨none, [], [], [], .new capacity positive, [], [], 0, [], [], 0, [], false⟩

namespace State

/-- The proxy is nil without a connection, and until the connection is established or after
    its handler ran. -/
def remoteObjectProxy (s : State) : Option Connection :=
  s.notifierConnection.filter fun c => c ∈ s.connected ∧ c ∉ s.invalidated

def answer (s : State) (reply : Option Nat) (cause : Cause) : State :=
  { s with answers := s.answers ++ (reply.map fun r => ⟨r, false, cause⟩).toList }

def clearAllPendingWithRepliesSerialized (s : State) : State :=
  let sent := s.sentToUser.filterMap fun e =>
    e.2.reply.map fun r => ⟨r, false, .clearedSent e.1 (e.1 ∈ s.invalidated)⟩
  let pending := s.pendingNotifications.buffer.filterMap fun d =>
    d.reply.map fun r => ⟨r, false, .clearedPending⟩
  { s with
    answers := s.answers ++ sent ++ pending
    sentToUser := []
    pendingNotifications := s.pendingNotifications.eraseIf fun d => d.reply.isSome }

def post (c : Connection) (s : State) (d : Notification) : State :=
  { s with sentToUser := s.sentToUser ++ [(c, d)], inFlight := s.inFlight ++ [(c, d)] }

/-- The loop dequeues until the buffer is empty; posting does not touch the buffer. -/
def flushQueueSerialized (s : State) : State :=
  match s.remoteObjectProxy with
  | none => s.clearAllPendingWithRepliesSerialized
  | some rop =>
      s.pendingNotifications.buffer.foldl (post rop)
        { s with pendingNotifications := s.pendingNotifications.clear }

def enqueue (s : State) (d : Notification) : State :=
  let (removed, pending) := s.pendingNotifications.enqueue d
  let s := { s with pendingNotifications := pending }
  match removed with
  | none => s
  | some msg => s.answer msg.reply .dropped

/-- Every call brings a reply block of its own, or none. -/
def addEvent (s : State) (event : Option String) (message url config : Option String)
    (hasReply : Bool) : State :=
  let reply := if hasReply then some s.nextReply else none
  let s := { s with nextReply := s.nextReply + 1 }
  match event with
  | none => s.answer reply .missingEvent
  | some event => (s.enqueue ⟨event, message, url, config, reply⟩).flushQueueSerialized

end State

inductive Label where
  | addEvent (event : Option String) (message url config : Option String) (hasReply : Bool)
  | setNotifierConnection (c : Connection) (established : Bool)
  | flush
  | invalidate (c : Connection)
  | clear (c : Connection)
  | guiReply (c : Connection) (d : Notification) (authenticated : Bool)
  | callReply (reply : Nat × Bool)

def step (s : State) : Label → Option State
  | .addEvent event message url config hasReply =>
      some (s.addEvent event message url config hasReply)
  | .setNotifierConnection c established =>
      if c ∈ s.opened then none
      else some { s with
        notifierConnection := some c
        connected := if established then c :: s.connected else s.connected
        opened := c :: s.opened
        unflushed := s.unflushed + 1 }
  | .flush =>
      if s.unflushed = 0 then none
      else some { s with unflushed := s.unflushed - 1 }.flushQueueSerialized
  | .invalidate c =>
      if c ∈ s.opened then
        some { s with
          notifierConnection := none
          invalidated := c :: s.invalidated
          uncleared := c :: s.uncleared
          currentLost := s.currentLost ||
            decide (s.notifierConnection ≠ none ∧ s.notifierConnection ≠ some c) }
      else none
  | .clear c =>
      if c ∈ s.uncleared then
        some { s with uncleared := s.uncleared.erase c }.clearAllPendingWithRepliesSerialized
      else none
  | .guiReply c d authenticated =>
      if (c, d) ∈ s.inFlight ∧ c ∉ s.invalidated then
        some { s with
          sentToUser := s.sentToUser.filter fun e => e.2 ≠ d
          inFlight := s.inFlight.erase (c, d)
          replying := match d.reply with
            | none => s.replying
            | some r => (r, authenticated) :: s.replying }
      else none
  | .callReply reply =>
      if reply ∈ s.replying then
        some { s with
          replying := s.replying.erase reply
          answers := s.answers ++ [⟨reply.1, reply.2, .user⟩] }
      else none

structure AnsweredOnce (s : State) : Prop where
  once : (s.answers.map (·.reply)).Nodup
  ownConnection : ∀ a ∈ s.answers, ∀ c invalidated, a.cause = .clearedSent c invalidated →
    invalidated = true
  currentKept : s.currentLost = false

/-- Every tracked notification with a reply block was sent on a connection that has been
    invalidated since. -/
def Settled (s : State) : Prop :=
  ∀ e ∈ s.sentToUser, e.2.reply ≠ none → e.1 ∈ s.invalidated

def Orderly (s : State) : Label → Prop
  | .addEvent event _ _ _ _ => event = none ∨ s.remoteObjectProxy ≠ none ∨ Settled s
  | .setNotifierConnection _ _ => True
  | .flush => s.remoteObjectProxy ≠ none ∨ Settled s
  | .invalidate c => s.notifierConnection = none ∨ s.notifierConnection = some c
  | .clear _ => Settled s
  | .guiReply _ _ _ => True
  | .callReply _ => True

instance (s : State) : Decidable (Settled s) :=
  inferInstanceAs (Decidable (∀ e ∈ s.sentToUser, e.2.reply ≠ none → e.1 ∈ s.invalidated))

instance (s : State) : (l : Label) → Decidable (Orderly s l)
  | .addEvent event _ _ _ _ =>
      inferInstanceAs (Decidable (event = none ∨ s.remoteObjectProxy ≠ none ∨ Settled s))
  | .setNotifierConnection _ _ => .isTrue trivial
  | .flush => inferInstanceAs (Decidable (s.remoteObjectProxy ≠ none ∨ Settled s))
  | .invalidate c =>
      inferInstanceAs (Decidable (s.notifierConnection = none ∨ s.notifierConnection = some c))
  | .clear _ => inferInstanceAs (Decidable (Settled s))
  | .guiReply _ _ _ => .isTrue trivial
  | .callReply _ => .isTrue trivial

def replies (ns : List Notification) : List Nat := ns.filterMap (·.reply)

def sentReplies (es : List (Connection × Notification)) : List Nat :=
  es.filterMap (·.2.reply)

def held (s : State) : List Nat :=
  replies s.pendingNotifications.buffer ++ sentReplies s.sentToUser ++ s.replying.map (·.1) ++
    s.answers.map (·.reply)

def reachable (s : State) : List Nat :=
  replies s.pendingNotifications.buffer ++ sentReplies s.inFlight

structure Counted (s : State) : Prop where
  unique : ∀ r, (held s).count r ≤ 1
  known : ∀ r, s.nextReply ≤ r → (held s).count r = 0
  asked : ∀ r, (reachable s).count r ≤ 1
  sent : ∀ r, s.nextReply ≤ r → (reachable s).count r = 0

theorem Counted.mono {s t : State} (counted : Counted s)
    (fewer : ∀ r, (held t).count r ≤ (held s).count r)
    (asked : ∀ r, (reachable t).count r ≤ (reachable s).count r)
    (next : s.nextReply = t.nextReply) : Counted t := by
  refine ⟨?_, ?_, ?_, ?_⟩
  · exact fun r => Nat.le_trans (fewer r) (counted.unique r)
  · intro r later
    have before := counted.known r (by omega)
    have le := fewer r
    omega
  · exact fun r => Nat.le_trans (asked r) (counted.asked r)
  · intro r later
    have before := counted.sent r (by omega)
    have le := asked r
    omega

theorem Counted.add {s t : State} (counted : Counted s)
    (more : ∀ r, (held t).count r ≤ (held s).count r + if r = s.nextReply then 1 else 0)
    (asked : ∀ r, (reachable t).count r ≤
      (reachable s).count r + if r = s.nextReply then 1 else 0)
    (next : t.nextReply = s.nextReply + 1) : Counted t := by
  have bound : ∀ (n m r : Nat), n ≤ m + (if r = s.nextReply then 1 else 0) → m ≤ 1 →
      (s.nextReply ≤ r → m = 0) → n ≤ 1 ∧ (t.nextReply ≤ r → n = 0) := by
    intro n m r le one zero
    by_cases new : r = s.nextReply
    · simp only [new, if_true] at le
      have := zero (by omega)
      omega
    · simp only [new, if_false] at le
      exact ⟨by omega, fun later => by have := zero (by omega); omega⟩
  refine ⟨?_, ?_, ?_, ?_⟩
  · exact fun r => (bound _ _ r (more r) (counted.unique r) (counted.known r)).1
  · exact fun r => (bound _ _ r (more r) (counted.unique r) (counted.known r)).2
  · exact fun r => (bound _ _ r (asked r) (counted.asked r) (counted.sent r)).1
  · exact fun r => (bound _ _ r (asked r) (counted.asked r) (counted.sent r)).2

structure Inv (s : State) : Prop extends Counted s where
  /-- A message that can still be answered is tracked. -/
  tracked : ∀ e ∈ s.inFlight, e.1 ∉ s.invalidated → e.2.reply ≠ none → e ∈ s.sentToUser
  ownConnection : ∀ a ∈ s.answers, ∀ c invalidated, a.cause = .clearedSent c invalidated →
    invalidated = true
  currentKept : s.currentLost = false

theorem Inv.answeredOnce {s : State} (inv : Inv s) : AnsweredOnce s := by
  refine ⟨List.nodup_iff_count_le_one.mpr ?_, inv.ownConnection, inv.currentKept⟩
  intro r
  have unique := inv.unique r
  simp only [held, List.count_append] at unique
  omega

/-! ### Clearing -/

theorem cleared_answers (s : State) :
    s.clearAllPendingWithRepliesSerialized.answers.map (·.reply) =
      s.answers.map (·.reply) ++ sentReplies s.sentToUser ++
        replies s.pendingNotifications.buffer := by
  simp [State.clearAllPendingWithRepliesSerialized, sentReplies, replies, List.map_filterMap,
    Function.comp_def]

theorem replies_eraseIf (r : RingBuffer Notification) :
    replies (r.eraseIf fun d => d.reply.isSome).buffer = [] := by
  simp [replies, RingBuffer.eraseIf, List.filterMap_eq_nil_iff]

theorem inv_clear {s : State} (inv : Inv s) (settled : Settled s) :
    Inv s.clearAllPendingWithRepliesSerialized := by
  have none_left := replies_eraseIf s.pendingNotifications
  have counts : ∀ r, (held s.clearAllPendingWithRepliesSerialized).count r = (held s).count r := by
    intro r
    simp only [held, cleared_answers, List.count_append]
    simp only [State.clearAllPendingWithRepliesSerialized, none_left, sentReplies,
      List.filterMap_nil, List.count_nil]
    omega
  have asks : ∀ r, (reachable s.clearAllPendingWithRepliesSerialized).count r ≤
      (reachable s).count r := by
    intro r
    simp only [reachable, List.count_append]
    simp only [State.clearAllPendingWithRepliesSerialized, none_left, List.count_nil]
    omega
  refine ⟨inv.toCounted.mono (fun r => Nat.le_of_eq (counts r)) asks rfl, ?_, ?_, inv.currentKept⟩
  · intro e flying live hasReply
    exact absurd (settled e (inv.tracked e flying live hasReply) hasReply) live
  · intro a member c invalidated cause
    simp only [State.clearAllPendingWithRepliesSerialized, List.mem_append] at member
    rcases member with (before | sent) | pending
    · exact inv.ownConnection a before c invalidated cause
    · obtain ⟨e, tracked, found⟩ := List.mem_filterMap.mp sent
      obtain ⟨r, reply, found⟩ := Option.map_eq_some_iff.mp found
      subst found
      have gone := settled e tracked (by simp [reply])
      simp only [Cause.clearedSent.injEq] at cause
      simpa [gone] using cause.2.symm
    · obtain ⟨d, _, found⟩ := List.mem_filterMap.mp pending
      obtain ⟨r, _, found⟩ := Option.map_eq_some_iff.mp found
      subst found
      simp at cause

theorem clear_breaks {s : State} (unsettled : ¬ Settled s) :
    ¬ AnsweredOnce s.clearAllPendingWithRepliesSerialized := by
  simp only [Settled, not_forall] at unsettled
  obtain ⟨e, tracked, hasReply, live⟩ := unsettled
  obtain ⟨r, reply⟩ := Option.ne_none_iff_exists'.mp hasReply
  intro safe
  have member : (⟨r, false, .clearedSent e.1 (e.1 ∈ s.invalidated)⟩ : Answer) ∈
      s.clearAllPendingWithRepliesSerialized.answers := by
    simp only [State.clearAllPendingWithRepliesSerialized, List.mem_append]
    exact Or.inl (Or.inr (List.mem_filterMap.mpr ⟨e, tracked, by simp [reply]⟩))
  have gone := safe.ownConnection _ member _ _ rfl
  exact live (by simpa using gone)

/-! ### Flushing -/

theorem posted (c : Connection) (ds : List Notification) (s : State) :
    ds.foldl (State.post c) s =
      { s with
        sentToUser := s.sentToUser ++ ds.map fun d => (c, d)
        inFlight := s.inFlight ++ ds.map fun d => (c, d) } := by
  induction ds generalizing s with
  | nil => simp
  | cons d ds ih =>
    rw [List.foldl_cons, ih]
    simp [State.post]

theorem sentReplies_on (c : Connection) (ds : List Notification) :
    sentReplies (ds.map fun d => (c, d)) = replies ds := by
  simp [sentReplies, replies, List.filterMap_map]

theorem inv_post {s : State} {c : Connection} (inv : Inv s) :
    Inv (s.pendingNotifications.buffer.foldl (State.post c)
      { s with pendingNotifications := s.pendingNotifications.clear }) := by
  rw [posted]
  have counts : ∀ r, (held { s with
      pendingNotifications := s.pendingNotifications.clear
      sentToUser := s.sentToUser ++ s.pendingNotifications.buffer.map fun d => (c, d)
      inFlight := s.inFlight ++ s.pendingNotifications.buffer.map fun d => (c, d) }).count r =
        (held s).count r := by
    intro r
    have split : sentReplies (s.sentToUser ++ s.pendingNotifications.buffer.map fun d => (c, d)) =
        sentReplies s.sentToUser ++ replies s.pendingNotifications.buffer := by
      rw [← sentReplies_on c]
      exact List.filterMap_append
    simp only [held, split, RingBuffer.clear, List.count_append, replies, List.filterMap_nil,
      List.count_nil]
    omega
  have asks : ∀ r, (reachable { s with
      pendingNotifications := s.pendingNotifications.clear
      sentToUser := s.sentToUser ++ s.pendingNotifications.buffer.map fun d => (c, d)
      inFlight := s.inFlight ++ s.pendingNotifications.buffer.map fun d => (c, d) }).count r =
        (reachable s).count r := by
    intro r
    have split : sentReplies (s.inFlight ++ s.pendingNotifications.buffer.map fun d => (c, d)) =
        sentReplies s.inFlight ++ replies s.pendingNotifications.buffer := by
      rw [← sentReplies_on c]
      exact List.filterMap_append
    simp only [reachable, split, RingBuffer.clear, List.count_append, replies, List.filterMap_nil,
      List.count_nil]
    omega
  refine ⟨inv.toCounted.mono (fun r => Nat.le_of_eq (counts r))
    (fun r => Nat.le_of_eq (asks r)) rfl, ?_, inv.ownConnection, inv.currentKept⟩
  · intro e flying live hasReply
    rcases List.mem_append.mp flying with before | new
    · exact List.mem_append_left _ (inv.tracked e before live hasReply)
    · exact List.mem_append_right _ new

theorem inv_flush {s : State} (inv : Inv s) (ready : s.remoteObjectProxy ≠ none ∨ Settled s) :
    Inv s.flushQueueSerialized := by
  unfold State.flushQueueSerialized
  cases proxy : s.remoteObjectProxy with
  | some rop => exact inv_post inv
  | none =>
    rcases ready with some | settled
    · exact absurd proxy some
    · exact inv_clear inv settled

theorem flush_breaks {s : State} (off : ¬ (s.remoteObjectProxy ≠ none ∨ Settled s)) :
    ¬ AnsweredOnce s.flushQueueSerialized := by
  simp only [not_or, not_not] at off
  obtain ⟨proxy, unsettled⟩ := off
  unfold State.flushQueueSerialized
  rw [proxy]
  exact clear_breaks unsettled

/-! ### Adding an event -/

def newReply (s : State) (hasReply : Bool) : Option Nat :=
  if hasReply then some s.nextReply else none

theorem count_newReply (s : State) (hasReply : Bool) (r : Nat) :
    (newReply s hasReply).toList.count r ≤ if r = s.nextReply then 1 else 0 := by
  cases hasReply with
  | false => simp [newReply]
  | true =>
    by_cases same : r = s.nextReply
    · simp [newReply, same]
    · simp [newReply, same, Ne.symm same]

theorem own_append {answers : List Answer} (new : Option Answer)
    (own : ∀ a ∈ answers, ∀ c invalidated, a.cause = .clearedSent c invalidated →
      invalidated = true)
    (other : ∀ a ∈ new, ∀ c invalidated, a.cause ≠ .clearedSent c invalidated) :
    ∀ a ∈ answers ++ new.toList, ∀ c invalidated, a.cause = .clearedSent c invalidated →
      invalidated = true := by
  intro a member c invalidated cause
  rcases List.mem_append.mp member with before | added
  · exact own a before c invalidated cause
  · exact absurd cause (other a (by simpa using added) c invalidated)

theorem inv_missing {s : State} (inv : Inv s) (hasReply : Bool) :
    Inv ({ s with nextReply := s.nextReply + 1 }.answer (newReply s hasReply) .missingEvent) := by
  refine ⟨inv.toCounted.add ?_ ?_ rfl, inv.tracked, ?_, inv.currentKept⟩
  · intro r
    have new := count_newReply s hasReply r
    have mapped : ((newReply s hasReply).map fun r => (⟨r, false, .missingEvent⟩ : Answer)).toList.map
        (·.reply) = (newReply s hasReply).toList := by
      cases newReply s hasReply <;> rfl
    simp only [held, State.answer, List.map_append, mapped, List.count_append]
    omega
  · intro r
    exact Nat.le_add_right _ _
  · refine own_append _ inv.ownConnection ?_
    intro a added c invalidated
    obtain ⟨r, _, same⟩ := Option.map_eq_some_iff.mp added
    subst same
    simp

theorem replies_append (ns : List Notification) (d : Notification) :
    replies (ns ++ [d]) = replies ns ++ d.reply.toList := by
  simp only [replies, List.filterMap_append]
  cases h : d.reply with
  | none => simp [h]
  | some r => simp [h]

theorem replies_cons (d : Notification) (ns : List Notification) :
    replies (d :: ns) = d.reply.toList ++ replies ns := by
  simp only [replies, List.filterMap_cons]
  cases d.reply with
  | none => rfl
  | some r => rfl

theorem enqueue_eq (s : State) (d : Notification) :
    ∃ (pending : RingBuffer Notification) (extra : Option Answer), s.enqueue d = { s with
        pendingNotifications := pending
        answers := s.answers ++ extra.toList } ∧
      (∀ a ∈ extra, a.cause = .dropped) ∧
      ∀ r, (replies pending.buffer).count r + (extra.map (·.reply)).toList.count r =
        (replies s.pendingNotifications.buffer).count r + d.reply.toList.count r := by
  rcases RingBuffer.enqueue_cases s.pendingNotifications d with
    ⟨removed, buffer⟩ | ⟨front, rest, before, removed, buffer⟩
  · refine ⟨(s.pendingNotifications.enqueue d).2, none, ?_, by simp, ?_⟩
    · simp [State.enqueue, removed]
    · intro r
      simp [buffer, replies_append, List.count_append]
  · refine ⟨(s.pendingNotifications.enqueue d).2,
      front.reply.map fun r => ⟨r, false, .dropped⟩, ?_, ?_, ?_⟩
    · simp [State.enqueue, removed, State.answer]
    · intro a added
      obtain ⟨r, _, same⟩ := Option.map_eq_some_iff.mp added
      rw [← same]
    · intro r
      have same : ((front.reply.map fun r => (⟨r, false, .dropped⟩ : Answer)).map
          (·.reply)).toList = front.reply.toList := by
        cases front.reply <;> rfl
      simp only [buffer, before, replies_append, replies_cons, same, List.count_append]
      omega

theorem inv_enqueue {s : State} (inv : Inv s) (event : String) (message url config : Option String)
    (hasReply : Bool) :
    Inv ({ s with nextReply := s.nextReply + 1 }.enqueue
      ⟨event, message, url, config, newReply s hasReply⟩) := by
  obtain ⟨pending, extra, eq, drops, moved⟩ := enqueue_eq { s with nextReply := s.nextReply + 1 }
    ⟨event, message, url, config, newReply s hasReply⟩
  rw [eq]
  have mapped : extra.toList.map (·.reply) = (extra.map (·.reply)).toList := by
    cases extra <;> rfl
  refine ⟨inv.toCounted.add ?_ ?_ rfl, inv.tracked, ?_, inv.currentKept⟩
  · intro r
    have new := count_newReply s hasReply r
    have sum := moved r
    simp only [held, List.map_append, mapped, List.count_append] at sum ⊢
    omega
  · intro r
    have new := count_newReply s hasReply r
    have sum := moved r
    simp only [reachable, List.count_append] at sum ⊢
    omega
  · refine own_append _ inv.ownConnection ?_
    intro a added c invalidated
    rw [drops a added]
    simp

theorem enqueue_frame (s : State) (d : Notification) :
    (s.enqueue d).remoteObjectProxy = s.remoteObjectProxy ∧
      (Settled (s.enqueue d) ↔ Settled s) := by
  obtain ⟨pending, extra, eq, _, _⟩ := enqueue_eq s d
  rw [eq]
  exact ⟨rfl, Iff.rfl⟩

/-! ### Replies from the GUI -/

theorem sentReplies_cons (e : Connection × Notification) (es : List (Connection × Notification)) :
    sentReplies (e :: es) = e.2.reply.toList ++ sentReplies es := by
  simp only [sentReplies, List.filterMap_cons]
  cases e.2.reply with
  | none => rfl
  | some r => rfl

theorem count_filter_le (es : List (Connection × Notification)) (d : Notification) (r : Nat) :
    (sentReplies (es.filter fun x => x.2 ≠ d)).count r ≤ (sentReplies es).count r :=
  List.Sublist.count_le r (List.Sublist.filterMap _ List.filter_sublist)

theorem count_filter_replies {es : List (Connection × Notification)} {c : Connection}
    {d : Notification} {r : Nat} (member : (c, d) ∈ es) (reply : d.reply = some r) :
    (sentReplies (es.filter fun x => x.2 ≠ d)).count r + 1 ≤ (sentReplies es).count r := by
  induction es with
  | nil => simp at member
  | cons x es ih =>
    have rest := count_filter_le es d r
    by_cases same : x.2 = d
    · rw [List.filter_cons_of_neg (by simp [same]), sentReplies_cons, same, reply]
      simp only [Option.toList_some, List.singleton_append, List.count_cons_self]
      omega
    · have later : (c, d) ∈ es := by
        rcases List.mem_cons.mp member with here | later
        · exact absurd (by rw [← here]) same
        · exact later
      rw [List.filter_cons_of_pos (by simp [same]), sentReplies_cons, sentReplies_cons]
      simp only [List.count_append]
      have := ih later
      omega

theorem count_erase_replies {es : List (Connection × Notification)}
    {e : Connection × Notification} (member : e ∈ es) (r : Nat) :
    (sentReplies (es.erase e)).count r + e.2.reply.toList.count r = (sentReplies es).count r := by
  have perm := List.perm_cons_erase member
  have counts := (perm.filterMap (·.2.reply)).count_eq r
  rw [show es.filterMap (·.2.reply) = sentReplies es from rfl] at counts
  rw [counts, show List.filterMap _ (e :: es.erase e) = sentReplies (e :: es.erase e) from rfl,
    sentReplies_cons, List.count_append]
  omega

theorem inv_guiReply {s : State} (inv : Inv s) {c : Connection} {d : Notification}
    (authenticated : Bool) (flying : (c, d) ∈ s.inFlight) (live : c ∉ s.invalidated) :
    Inv { s with
      sentToUser := s.sentToUser.filter fun e => e.2 ≠ d
      inFlight := s.inFlight.erase (c, d)
      replying := match d.reply with
        | none => s.replying
        | some r => (r, authenticated) :: s.replying } := by
  have erased := count_erase_replies flying
  have asks : ∀ r, (sentReplies (s.inFlight.erase (c, d))).count r ≤
      (sentReplies s.inFlight).count r := by
    intro r
    have := erased r
    omega
  refine ⟨inv.toCounted.mono ?_ ?_ rfl, ?_, inv.ownConnection, inv.currentKept⟩
  · intro r
    have fewer := count_filter_le s.sentToUser d r
    cases reply : d.reply with
    | none =>
      simp only [held, List.count_append]
      omega
    | some r' =>
      have tracked := inv.tracked (c, d) flying live (by simp [reply])
      have one := count_filter_replies tracked reply
      simp only [held, List.map_cons, List.count_append, List.count_cons]
      by_cases same : r' = r
      · subst same
        simp only [beq_self_eq_true, if_true]
        omega
      · simp only [beq_iff_eq, same, if_false]
        omega
  · intro r
    have := asks r
    simp only [reachable, List.count_append]
    omega
  · intro e flies open_ hasReply
    have before := List.mem_of_mem_erase flies
    refine List.mem_filter.mpr ⟨inv.tracked e before open_ hasReply, ?_⟩
    -- no second message can carry the block of d
    simp only [ne_eq, decide_not, Bool.not_eq_true', decide_eq_false_iff_not]
    intro same
    obtain ⟨r, reply⟩ := Option.ne_none_iff_exists'.mp hasReply
    have other := count_erase_replies flies r
    have both := erased r
    have asked := inv.asked r
    simp only [reachable, List.count_append] at asked
    have reply' : d.reply = some r := by rw [← same, reply]
    rw [reply] at other
    rw [reply'] at both
    simp only [Option.toList_some, List.count_singleton_self] at other both
    omega

theorem inv_callReply {s : State} (inv : Inv s) {reply : Nat × Bool} (running : reply ∈ s.replying) :
    Inv { s with
      replying := s.replying.erase reply
      answers := s.answers ++ [⟨reply.1, reply.2, .user⟩] } := by
  refine ⟨inv.toCounted.mono ?_ (fun r => Nat.le_refl _) rfl, inv.tracked, ?_, inv.currentKept⟩
  · intro r
    have perm := ((List.perm_cons_erase running).map (·.1)).count_eq r
    simp only [List.map_cons, List.count_cons] at perm
    simp only [held, List.map_append, List.map_cons, List.map_nil, List.count_append,
      List.count_cons, List.count_nil]
    omega
  · refine own_append (some ⟨reply.1, reply.2, .user⟩) inv.ownConnection ?_
    intro a added c invalidated
    simp only [Option.mem_def, Option.some.injEq] at added
    rw [← added]
    simp

/-! ### Runs -/

theorem inv_new (capacity : Nat) (positive : 0 < capacity) : Inv (State.new capacity positive) := by
  refine ⟨⟨?_, ?_, ?_, ?_⟩, ?_, ?_, rfl⟩ <;>
    simp [State.new, held, reachable, RingBuffer.new, replies, sentReplies]

theorem addEvent_eq (s : State) (event message url config : Option String) (hasReply : Bool) :
    s.addEvent event message url config hasReply =
      match event with
      | none =>
          { s with nextReply := s.nextReply + 1 }.answer (newReply s hasReply) .missingEvent
      | some event =>
          ({ s with nextReply := s.nextReply + 1 }.enqueue
            ⟨event, message, url, config, newReply s hasReply⟩).flushQueueSerialized := rfl

theorem inv_connection {s : State} (inv : Inv s) (notifierConnection : Option Connection)
    (connected opened : List Connection) (unflushed : Nat) (uncleared : List Connection) :
    Inv { s with notifierConnection, connected, opened, unflushed, uncleared } :=
  ⟨inv.toCounted.mono (fun _ => Nat.le_refl _) (fun _ => Nat.le_refl _) rfl,
    inv.tracked, inv.ownConnection, inv.currentKept⟩

theorem step_keeps (s : State) (l : Label) (t : State) (inv : Inv s) (orderly : Orderly s l)
    (h : step s l = some t) : Inv t := by
  cases l with
  | addEvent event message url config hasReply =>
    have same := Option.some.inj h
    rw [addEvent_eq] at same
    cases event with
    | none =>
      rw [← same]
      exact inv_missing inv hasReply
    | some event =>
      rw [← same]
      refine inv_flush (inv_enqueue inv event message url config hasReply) ?_
      obtain ⟨proxy, settled⟩ := enqueue_frame { s with nextReply := s.nextReply + 1 }
        ⟨event, message, url, config, newReply s hasReply⟩
      rw [proxy, settled]
      rcases orderly with missing | ready
      · simp at missing
      · exact ready
  | setNotifierConnection c established =>
    simp only [step] at h
    split at h
    · simp at h
    · rw [← Option.some.inj h]
      exact inv_connection inv _ _ _ _ _
  | flush =>
    simp only [step] at h
    split at h
    · simp at h
    · rw [← Option.some.inj h]
      exact inv_flush (inv_connection inv _ _ _ _ _) orderly
  | invalidate c =>
    simp only [step] at h
    split at h
    · rw [← Option.some.inj h]
      refine ⟨inv.toCounted.mono (fun r => Nat.le_refl _) (fun r => Nat.le_refl _) rfl, ?_,
        inv.ownConnection, ?_⟩
      · intro e flying live hasReply
        simp only [List.mem_cons, not_or] at live
        exact inv.tracked e flying live.2 hasReply
      · have kept := inv.currentKept
        rcases orderly with gone | own
        · simp [kept, gone]
        · simp [kept, own]
    · simp at h
  | clear c =>
    simp only [step] at h
    split at h
    · rw [← Option.some.inj h]
      exact inv_clear (inv_connection inv _ _ _ _ _) orderly
    · simp at h
  | guiReply c d authenticated =>
    simp only [step] at h
    split at h
    · rename_i possible
      rw [← Option.some.inj h]
      exact inv_guiReply inv authenticated possible.1 possible.2
    · simp at h
  | callReply reply =>
    simp only [step] at h
    split at h
    · rename_i running
      rw [← Option.some.inj h]
      exact inv_callReply inv running
    · simp at h

theorem step_breaks (s : State) (l : Label) (t : State) (_ : Inv s) (disorderly : ¬ Orderly s l)
    (h : step s l = some t) : ¬ AnsweredOnce t := by
  cases l with
  | addEvent event message url config hasReply =>
    have same := Option.some.inj h
    rw [addEvent_eq] at same
    cases event with
    | none => exact absurd (Or.inl rfl) disorderly
    | some event =>
      rw [← same]
      refine flush_breaks ?_
      obtain ⟨proxy, settled⟩ := enqueue_frame { s with nextReply := s.nextReply + 1 }
        ⟨event, message, url, config, newReply s hasReply⟩
      rw [proxy, settled]
      exact fun ready => disorderly (Or.inr ready)
  | setNotifierConnection c established => exact absurd trivial disorderly
  | flush =>
    simp only [step] at h
    split at h
    · simp at h
    · rw [← Option.some.inj h]
      exact flush_breaks disorderly
  | invalidate c =>
    simp only [step] at h
    split at h
    · rw [← Option.some.inj h]
      intro safe
      have kept := safe.currentKept
      simp only [Bool.or_eq_false_iff, decide_eq_false_iff_not] at kept
      simp only [Orderly, not_or] at disorderly
      exact kept.2 disorderly
    · simp at h
  | clear c =>
    simp only [step] at h
    split at h
    · rw [← Option.some.inj h]
      exact clear_breaks disorderly
    · simp at h
  | guiReply c d authenticated => exact absurd trivial disorderly
  | callReply reply => exact absurd trivial disorderly

/-- Every reply block runs at most once, and for the right reason, exactly in the runs in
    which handlers touch nothing but what belongs to invalidated connections. -/
theorem answered_once_iff (capacity : Nat) (positive : 0 < capacity) (ls : List Label) :
    Runs.Always step AnsweredOnce (State.new capacity positive) ls ↔
      Runs.Meets step Orderly (State.new capacity positive) ls :=
  Runs.always_iff_meets Inv (fun _ inv => inv.answeredOnce) step_keeps step_breaks
    (inv_new capacity positive) ls

def blocked (reply : Nat) : Notification := ⟨"blocked", none, none, none, some reply⟩

def add : Label := .addEvent "blocked" none none none true

/-- One connection throughout: the user's answer is the only one. -/
theorem answered_once_on_one_connection :
    Runs.Always step AnsweredOnce (State.new 10 (by decide))
      [.setNotifierConnection 0 true, .flush, add, .guiReply 0 (blocked 0) true,
        .callReply (0, true)] := by
  exact (answered_once_iff 10 (by decide) _).mpr (by decide)

/-- The GUI of connection 1 answers a notification that the invalidation of connection 0 has
    answered already. -/
theorem earlier_connection_answers_for_current :
    ¬ ∀ capacity positive ls, Runs.Always step AnsweredOnce (State.new capacity positive) ls := by
  intro always
  have twice : (Runs.run step (State.new 10 (by decide))
      [.setNotifierConnection 0 true, .flush, add, .setNotifierConnection 1 true, .flush, add,
        .invalidate 0, .clear 0, .guiReply 1 (blocked 1) true, .callReply (1, true)]).map
        (fun s => s.answers.map fun a => (a.reply, a.authenticated)) =
      some [(0, false), (1, false), (1, true)] := by
    decide
  obtain ⟨last, ends, answers⟩ := Option.map_eq_some_iff.mp twice
  have once := (Runs.always_last (always 10 (by decide) _) ends).once
  have replies : last.answers.map (·.reply) = [0, 1, 1] := by
    have firsts := congrArg (List.map (·.1)) answers
    simpa [Function.comp_def] using firsts
  rw [replies] at once
  simp at once

end SantaNotificationQueue
