import Mathlib.Data.List.AList
import Santa.Library.Runs
import Santa.Sync.RuleDownload

/-!
Notifications about unblocked applications. A push message announces a hash; the rules of a
download count down to it, and after the sync those that came to zero are posted and removed.
All updates of the tracker are blocks on a serial queue, to which messages add at any time.
-/
namespace SantaUnblockNotifications
open SantaRule SantaRuleTable SantaRuleDownload SantaConfigurator

/-! ### The tracker -/

structure Notifier where
  fileName : String
  fileBundleBinaryCount : Option Int
  deriving DecidableEq, Repr

abbrev Notifications := AList fun _ : String => Notifier

def intValue (n : Int) : Int := n.bmod 4294967296

def addNotification (notifications : Notifications) (notification : Notifier) (hash : String) :
    Notifications :=
  let kept := if notifications.entries.length > 16 then ∅ else notifications
  kept.insert hash notification

def removeNotificationsForHashes (notifications : Notifications) (hashes : List String) :
    Notifications :=
  hashes.foldl (fun notifications hash => notifications.erase hash) notifications

def decremented (count : Option Int) (totalRuleCount : Option UInt32) : Int :=
  match count, totalRuleCount with
  | some remaining, _ => intValue remaining - 1
  | none, some totalRuleCount => intValue totalRuleCount.toNat - 1
  | none, none => 0

def decrementPendingRulesForHash (notifications : Notifications) (hash : String)
    (totalRuleCount : Option UInt32) : Notifications :=
  match notifications.lookup hash with
  | none => notifications
  | some notifier =>
      notifications.insert hash { notifier with
        fileBundleBinaryCount := some (decremented notifier.fileBundleBinaryCount totalRuleCount) }

/-- A block on the tracker's queue; `all` is the one that the sync waits for. -/
inductive Block where
  | addNotification (notification : Notifier) (hash : String)
  | removeNotificationsForHashes (hashes : List String)
  | decrementPendingRulesForHash (hash : String) (totalRuleCount : Option UInt32)
  | all
  deriving DecidableEq, Repr

/-! ### The rules of a download -/

/-- A rule with what it says about notifications. A bundle count that is left out is zero. -/
structure NotifyingRule extends ProtoRule where
  notificationAppName : String
  fileBundleHash : String
  fileBundleBinaryCount : UInt32
  deriving DecidableEq, Repr

def utf16Length (text : String) : Nat :=
  text.toList.foldl (fun length c => length + if c.toNat < 65536 then 1 else 2) 0

def ProcessDeprecatedBundleNotificationsForRule (rule : SNTRule) (protoRule : NotifyingRule) :
    Option Block :=
  if rule.state = .allow ∨ rule.state = .allowCompiler then
    let primaryHash :=
      if utf16Length protoRule.fileBundleHash ≠ 64 then rule.identifier
      else protoRule.fileBundleHash
    some (.decrementPendingRulesForHash primaryHash (some protoRule.fileBundleBinaryCount))
  else none

def ProcessBundleNotificationsForRule (syncType : SNTSyncType) (rule : SNTRule)
    (protoRule : NotifyingRule) : Option Block :=
  if protoRule.notificationAppName ≠ "" then
    if syncType ≠ .normal ∨ rule.state = .remove then none
    else some (.addNotification ⟨protoRule.notificationAppName, some 0⟩ rule.identifier)
  else ProcessDeprecatedBundleNotificationsForRule rule protoRule

/-- A bad rule is ignored. -/
def blockFor (isV2 : Bool) (syncType : SNTSyncType) (protoRule : NotifyingRule) : Option Block :=
  (ruleFromProtoRule isV2 protoRule.toProtoRule).bind fun rule =>
    ProcessBundleNotificationsForRule syncType rule protoRule

structure Response where
  rules : List NotifyingRule
  fileAccessRules : List (Option SNTFileAccessRule)
  cursor : String

def Response.page (r : Response) : Page :=
  ⟨r.rules.map NotifyingRule.toProtoRule, r.fileAccessRules, r.cursor⟩

/-! ### Messages and syncs -/

/-- Where the one sync is. A download has its rules so far, those of the page that are still to
    be looked at, and whether there is another page; `waiting` is for the queue. -/
inductive Phase where
  | idle
  | downloading (syncType : SNTSyncType) (got : SNTDownloadedRuleSets) (rules : List NotifyingRule)
      (more : Bool)
  | waiting
  | enumerating
  | removing (processed : List String)

/-- `posted` has the messages to the daemon, each with the hash that it is for. -/
structure State where
  notifications : Notifications
  queue : List Block
  phase : Phase
  posted : List (String × String)

def State.start : State := ⟨∅, [], .idle, []⟩

def Notifier.done (notifier : Notifier) : Bool :=
  match notifier.fileBundleBinaryCount with
  | some remaining => intValue remaining = 0
  | none => false

def finished (notifications : Notifications) : List (String × String) :=
  (notifications.entries.filter fun entry => entry.2.done).map fun entry =>
    (entry.1, entry.2.fileName)

def processed (notifications : Notifications) : List String := (finished notifications).map Prod.fst

def State.runBlock (s : State) : Block → State
  | .addNotification notification hash =>
      { s with notifications := addNotification s.notifications notification hash }
  | .removeNotificationsForHashes hashes =>
      { s with notifications := removeNotificationsForHashes s.notifications hashes }
  | .decrementPendingRulesForHash hash totalRuleCount =>
      { s with notifications :=
          decrementPendingRulesForHash s.notifications hash totalRuleCount }
  | .all => { s with phase := .enumerating }

/-- `failed` is a failed request, or that the daemon did not add the rules. -/
inductive Label where
  | push (fileName hash : String)
  | sync (syncType : SNTSyncType)
  | response (response : Response)
  | rule
  | failed
  | added
  | run
  | enumerate
  | remove

def step (isV2 : Bool) (s : State) : Label → Option State
  | .push fileName hash =>
      some { s with queue := s.queue ++ [.addNotification ⟨fileName, none⟩ hash] }
  | .sync syncType =>
      match s.phase with
      | .idle => some { s with phase := .downloading syncType .none [] true }
      | _ => none
  | .response response =>
      match s.phase with
      | .downloading syncType got [] true =>
          some { s with
            phase := .downloading syncType (got.add isV2 response.page) response.rules
              (response.cursor ≠ "") }
      | _ => none
  | .rule =>
      match s.phase with
      | .downloading syncType got (rule :: rules) more =>
          some { s with
            queue := s.queue ++ (blockFor isV2 syncType rule).toList
            phase := .downloading syncType got rules more }
      | _ => none
  | .failed =>
      match s.phase with
      | .downloading _ _ [] _ => some { s with phase := .idle }
      | _ => none
  | .added =>
      match s.phase with
      | .downloading _ got [] false =>
          -- without execution rules nothing is announced
          if got.executionRules.isEmpty then some { s with phase := .idle }
          else some { s with queue := s.queue ++ [.all], phase := .waiting }
      | _ => none
  | .run =>
      match s.queue with
      | [] => none
      | block :: queue => some (State.runBlock { s with queue := queue } block)
  | .enumerate =>
      match s.phase with
      | .enumerating =>
          some { s with
            posted := s.posted ++ finished s.notifications
            phase := .removing (processed s.notifications) }
      | _ => none
  | .remove =>
      match s.phase with
      | .removing hashes =>
          some { s with
            queue := s.queue ++ [.removeNotificationsForHashes hashes]
            phase := .idle }
      | _ => none

/-! ### Announcements -/

/-- What there is to know about an announcement: the number of rules that the first of them says,
    how many came, whether it was posted, and whether it came `again`, that is while an earlier
    one of its hash was posted but not removed yet. -/
structure Announcement where
  total : Option Nat
  received : Nat
  posted : Bool
  again : Bool
  fresh : total = none → received = 0
  counted : received = 0 → ∀ n ∈ total, n = 0
  fits : ∀ n ∈ total, n < 4294967296

/-- One that names the application needs no rule. -/
def Announcement.start (counted again : Bool) : Announcement where
  total := if counted then some 0 else none
  received := 0
  posted := false
  again := again
  fresh _ := rfl
  counted _ n total := by
    cases counted with
    | true => exact (Option.some.inj total).symm
    | false => cases total
  fits n total := by
    cases counted with
    | true =>
      obtain rfl := Option.some.inj total
      decide
    | false => cases total

/-- Without a number the rule is the only one. -/
def Announcement.receive (a : Announcement) (totalRuleCount : Option UInt32) : Announcement where
  total := some (a.total.getD ((totalRuleCount.map UInt32.toNat).getD 1))
  received := a.received + 1
  posted := a.posted
  again := a.again
  fresh := nofun
  counted := nofun
  fits n total := by
    obtain rfl := Option.some.inj total
    cases known : a.total with
    | some m => exact a.fits m known
    | none =>
      cases totalRuleCount with
      | some count => exact count.toNat_lt
      | none => decide

/-- The announcement of each hash that has an entry, and how many there were in all; `lost` counts
    those whose entry was taken away before they were posted. -/
structure Ledger where
  current : String → Option Announcement
  announced : String → Nat
  lost : String → Nat

namespace Ledger

def start : Ledger := ⟨fun _ => none, fun _ => 0, fun _ => 0⟩

def pending (l : Ledger) (hash : String) : Nat :=
  match l.current hash with
  | some a => if a.posted then 0 else 1
  | none => 0

def drop (l : Ledger) : Ledger :=
  { l with current := fun _ => none, lost := fun k => l.lost k + l.pending k }

def announce (l : Ledger) (hash : String) (counted again : Bool) : Ledger where
  current := fun k => if k = hash then some (.start counted again) else l.current k
  announced := fun k => if k = hash then l.announced k + 1 else l.announced k
  lost := fun k => if k = hash then l.lost k + l.pending k else l.lost k

def remove (l : Ledger) (hashes : List String) : Ledger :=
  { l with
    current := fun k => if k ∈ hashes then none else l.current k
    lost := fun k => if k ∈ hashes then l.lost k + l.pending k else l.lost k }

def receive (l : Ledger) (hash : String) (totalRuleCount : Option UInt32) : Ledger :=
  { l with current := fun k =>
      if k = hash then (l.current k).map fun a => a.receive totalRuleCount else l.current k }

def post (l : Ledger) (hashes : List String) : Ledger :=
  { l with current := fun k =>
      if k ∈ hashes then (l.current k).map fun a => { a with posted := true } else l.current k }

end Ledger

def Block.removed : Block → List String
  | .removeNotificationsForHashes hashes => hashes
  | _ => []

def Phase.processed : Phase → List String
  | .removing hashes => hashes
  | _ => []

def State.leaving (s : State) : List String :=
  s.queue.flatMap Block.removed ++ s.phase.processed

def Ledger.runBlock (l : Ledger) (s : State) : Block → Ledger
  | .addNotification notification hash =>
      let kept := if s.notifications.entries.length > 16 then l.drop else l
      kept.announce hash notification.fileBundleBinaryCount.isSome (hash ∈ s.leaving)
  | .removeNotificationsForHashes hashes => l.remove hashes
  | .decrementPendingRulesForHash hash totalRuleCount => l.receive hash totalRuleCount
  | .all => l

def Ledger.after (l : Ledger) (s : State) : Label → Ledger
  | .run =>
      match s.queue with
      | [] => l
      | block :: _ => l.runBlock s block
  | .enumerate => l.post (processed s.notifications)
  | _ => l

structure Watched where
  state : State
  ledger : Ledger

def Watched.start : Watched := ⟨.start, .start⟩

def watch (isV2 : Bool) (w : Watched) (l : Label) : Option Watched :=
  (step isV2 w.state l).map fun s => ⟨s, w.ledger.after w.state l⟩

theorem watch_state (isV2 : Bool) (w : Watched) (l : Label) :
    (watch isV2 w l).map Watched.state = step isV2 w.state l := by
  rw [watch, Option.map_map]
  exact Option.map_id'

def State.posts (s : State) (hash : String) : Nat := (s.posted.map Prod.fst).count hash

/-- Every announcement is posted once, was lost or is pending. While no more rules came than were
    announced, the tracker has the number of those to come; one is posted only when all came, and
    when the entries have been looked at each of which just as many came is posted. An entry that
    is removed is that of one that was posted, or came again. -/
structure Safe (w : Watched) : Prop where
  once : ∀ hash, w.ledger.announced hash =
    w.state.posts hash + w.ledger.lost hash + w.ledger.pending hash
  tracked : ∀ hash, (w.state.notifications.lookup hash).isSome = (w.ledger.current hash).isSome
  remaining : ∀ hash a notifier total, w.ledger.current hash = some a →
    w.state.notifications.lookup hash = some notifier → a.total = some total →
    a.received ≤ total → total < 2147483648 →
      notifier.fileBundleBinaryCount = some (total - a.received : Int)
  never_before : ∀ hash a, w.ledger.current hash = some a → a.posted = true →
    ∃ total, a.total = some total ∧ total ≤ a.received
  posted : ∀ hashes, w.state.phase = .removing hashes → ∀ hash a,
    w.ledger.current hash = some a → a.total = some a.received → a.posted = true
  removed : ∀ hash ∈ w.state.leaving, ∀ a, w.ledger.current hash = some a →
    a.posted = true ∨ a.again = true

/-! ### The tracker has what the ledger has -/

theorem lookup_remove (notifications : Notifications) (hashes : List String) (k : String) :
    (removeNotificationsForHashes notifications hashes).lookup k =
      if k ∈ hashes then none else notifications.lookup k := by
  unfold removeNotificationsForHashes
  induction hashes generalizing notifications with
  | nil => rfl
  | cons hash hashes ih =>
    rw [List.foldl_cons, ih]
    by_cases same : k = hash
    · rw [same, AList.lookup_erase, ite_self, if_pos List.mem_cons_self]
    · rw [AList.lookup_erase_ne same]
      simp only [List.mem_cons, same, false_or]

theorem lookup_decrement (notifications : Notifications) (hash : String)
    (totalRuleCount : Option UInt32) (k : String) :
    ((decrementPendingRulesForHash notifications hash totalRuleCount).lookup k).map
        Notifier.fileBundleBinaryCount =
      if k = hash then ((notifications.lookup k).map Notifier.fileBundleBinaryCount).map
        fun count => some (decremented count totalRuleCount)
      else (notifications.lookup k).map Notifier.fileBundleBinaryCount := by
  unfold decrementPendingRulesForHash
  by_cases same : k = hash
  · subst same
    rw [if_pos rfl]
    split
    · rename_i missing
      rw [missing]
      rfl
    · rename_i notifier found
      rw [found, AList.lookup_insert]
      rfl
  · rw [if_neg same]
    split
    · rfl
    · rw [AList.lookup_insert_ne same]

def Announcement.remaining (a : Announcement) : Option Int :=
  a.total.map fun (total : Nat) => intValue (total - a.received + 1) - 1

theorem receive_remaining (a : Announcement) (totalRuleCount : Option UInt32) :
    (a.receive totalRuleCount).remaining = some (decremented a.remaining totalRuleCount) := by
  have total : (a.receive totalRuleCount).total =
      some (a.total.getD ((totalRuleCount.map UInt32.toNat).getD 1)) := rfl
  have received : (a.receive totalRuleCount).received = a.received + 1 := rfl
  unfold Announcement.remaining
  rw [total, received]
  cases known : a.total with
  | some total =>
    simp only [Option.map_some, Option.getD_some, decremented, intValue, Int.bmod_sub_bmod]
    congr 3
    omega
  | none =>
    simp only [Option.map_some, Option.map_none, Option.getD_none, a.fresh known]
    cases totalRuleCount with
    | some count =>
      simp only [Option.map_some, Option.getD_some, decremented]
      congr 3
      omega
    | none => rfl

def Same (notifications : Notifications) (l : Ledger) : Prop :=
  ∀ k, (notifications.lookup k).map Notifier.fileBundleBinaryCount =
    (l.current k).map Announcement.remaining

theorem same_drop {notifications : Notifications} {l : Ledger} (same : Same notifications l) :
    Same (if notifications.entries.length > 16 then ∅ else notifications)
      (if notifications.entries.length > 16 then l.drop else l) := by
  split
  · intro k
    rw [AList.lookup_empty]
    rfl
  · exact same

theorem same_announce {notifications : Notifications} {l : Ledger} {notification : Notifier}
    (new : notification.fileBundleBinaryCount = none ∨ notification.fileBundleBinaryCount = some 0)
    (same : Same notifications l) (hash : String) (again : Bool) :
    Same (notifications.insert hash notification)
      (l.announce hash notification.fileBundleBinaryCount.isSome again) := by
  intro k
  by_cases here : k = hash
  · subst here
    simp only [AList.lookup_insert, Ledger.announce, if_pos, Option.map_some]
    rcases new with none | zero
    · rw [none]
      rfl
    · rw [zero]
      rfl
  · simp only [AList.lookup_insert_ne here, Ledger.announce, if_neg here]
    exact same k

theorem same_remove {notifications : Notifications} {l : Ledger} (same : Same notifications l)
    (hashes : List String) :
    Same (removeNotificationsForHashes notifications hashes) (l.remove hashes) := by
  intro k
  rw [lookup_remove]
  simp only [Ledger.remove]
  split
  · rfl
  · exact same k

theorem same_receive {notifications : Notifications} {l : Ledger} (same : Same notifications l)
    (hash : String) (totalRuleCount : Option UInt32) :
    Same (decrementPendingRulesForHash notifications hash totalRuleCount)
      (l.receive hash totalRuleCount) := by
  intro k
  rw [lookup_decrement, same k]
  simp only [Ledger.receive]
  split
  · rw [Option.map_map, Option.map_map]
    congr 1
    funext a
    exact (receive_remaining a totalRuleCount).symm
  · rfl

theorem same_post {notifications : Notifications} {l : Ledger} (same : Same notifications l)
    (hashes : List String) : Same notifications (l.post hashes) := by
  intro k
  rw [same k]
  simp only [Ledger.post]
  split
  · rw [Option.map_map]
    rfl
  · rfl

theorem entry_of_current {notifications : Notifications} {l : Ledger}
    (same : Same notifications l) {k : String} {a : Announcement} (current : l.current k = some a) :
    ∃ notifier, notifications.lookup k = some notifier ∧
      notifier.fileBundleBinaryCount = a.remaining := by
  have counts := same k
  rw [current] at counts
  exact Option.map_eq_some_iff.mp counts

theorem current_of_entry {notifications : Notifications} {l : Ledger}
    (same : Same notifications l) {k : String} {notifier : Notifier}
    (entry : notifications.lookup k = some notifier) :
    ∃ a, l.current k = some a ∧ notifier.fileBundleBinaryCount = a.remaining := by
  have counts := same k
  rw [entry] at counts
  obtain ⟨a, current, count⟩ := Option.map_eq_some_iff.mp counts.symm
  exact ⟨a, current, count.symm⟩

theorem remaining_eq {a : Announcement} {total : Nat} (known : a.total = some total)
    (received : a.received ≤ total) (small : total < 2147483648) :
    a.remaining = some (total - a.received : Int) := by
  have started : a.received = 0 → total = 0 := fun none => a.counted none total known
  unfold Announcement.remaining
  rw [known, Option.map_some]
  congr 1
  rw [intValue, Int.bmod_eq_of_le (by omega) (by omega)]
  omega

/-! ### What is posted -/

theorem done_of_complete {a : Announcement} {notifier : Notifier}
    (count : notifier.fileBundleBinaryCount = a.remaining) (complete : a.total = some a.received) :
    notifier.done = true := by
  have zero : a.remaining = some 0 := by
    unfold Announcement.remaining
    rw [complete, Option.map_some, Int.sub_self]
    rfl
  unfold Notifier.done
  rw [count, zero]
  rfl

theorem complete_of_done {a : Announcement} {notifier : Notifier}
    (count : notifier.fileBundleBinaryCount = a.remaining) (done : notifier.done = true) :
    ∃ total, a.total = some total ∧ total ≤ a.received := by
  unfold Notifier.done at done
  rw [count] at done
  unfold Announcement.remaining at done
  cases known : a.total with
  | none =>
    rw [known] at done
    cases done
  | some total =>
    rw [known] at done
    refine ⟨total, rfl, ?_⟩
    have zero : intValue (intValue (total - a.received + 1) - 1) = 0 := by simpa using done
    rw [intValue, intValue, Int.bmod_sub_bmod, Int.add_sub_cancel] at zero
    have fits := a.fits total known
    have divides := Int.dvd_of_bmod_eq_zero zero
    omega

theorem mem_processed {notifications : Notifications} {k : String} :
    k ∈ processed notifications ↔
      ∃ notifier, notifications.lookup k = some notifier ∧ notifier.done = true := by
  unfold processed finished
  rw [List.map_map]
  constructor
  · intro member
    obtain ⟨entry, kept, rfl⟩ := List.mem_map.mp member
    obtain ⟨there, done⟩ := List.mem_filter.mp kept
    exact ⟨entry.2, AList.mem_lookup_iff.mpr there, done⟩
  · rintro ⟨notifier, entry, done⟩
    exact List.mem_map.mpr
      ⟨⟨k, notifier⟩, List.mem_filter.mpr ⟨AList.mem_lookup_iff.mp entry, done⟩, rfl⟩

theorem processed_nodup (notifications : Notifications) : (processed notifications).Nodup := by
  have keys := notifications.keys_nodup
  unfold processed finished
  rw [List.map_map]
  exact (List.filter_sublist.map Sigma.fst).nodup keys

/-! ### Every announcement is accounted for -/

def Ledger.Balanced (l : Ledger) (posts : String → Nat) : Prop :=
  ∀ k, l.announced k = posts k + l.lost k + l.pending k

theorem balanced_drop {l : Ledger} {posts : String → Nat} (balanced : l.Balanced posts) :
    l.drop.Balanced posts := by
  intro k
  have before := balanced k
  have none : l.drop.pending k = 0 := rfl
  rw [none]
  simp only [Ledger.drop]
  omega

theorem pending_of_current {l : Ledger} {k : String} {a : Announcement}
    (current : l.current k = some a) : l.pending k = if a.posted then 0 else 1 := by
  rw [Ledger.pending, current]

theorem pending_eq {l m : Ledger} {k : String} (same : m.current k = l.current k) :
    m.pending k = l.pending k := by
  rw [Ledger.pending, Ledger.pending, same]

theorem balanced_announce {l : Ledger} {posts : String → Nat} (balanced : l.Balanced posts)
    (hash : String) (counted again : Bool) : (l.announce hash counted again).Balanced posts := by
  intro k
  have before := balanced k
  by_cases here : k = hash
  · have current : (l.announce hash counted again).current k = some (.start counted again) :=
      if_pos here
    have one : (l.announce hash counted again).pending k = 1 := pending_of_current current
    rw [one]
    simp only [Ledger.announce, if_pos here]
    omega
  · rw [pending_eq (l := l) (if_neg here)]
    simp only [Ledger.announce, if_neg here]
    exact before

theorem balanced_remove {l : Ledger} {posts : String → Nat} (balanced : l.Balanced posts)
    (hashes : List String) : (l.remove hashes).Balanced posts := by
  intro k
  have before := balanced k
  by_cases here : k ∈ hashes
  · have current : (l.remove hashes).current k = none := if_pos here
    rw [Ledger.pending, current]
    simp only [Ledger.remove, if_pos here]
    omega
  · rw [pending_eq (l := l) (if_neg here)]
    simp only [Ledger.remove, if_neg here]
    exact before

theorem balanced_receive {l : Ledger} {posts : String → Nat} (balanced : l.Balanced posts)
    (hash : String) (totalRuleCount : Option UInt32) :
    (l.receive hash totalRuleCount).Balanced posts := by
  intro k
  have same : (l.receive hash totalRuleCount).pending k = l.pending k := by
    by_cases here : k = hash
    · have current : (l.receive hash totalRuleCount).current k =
          (l.current k).map fun a => a.receive totalRuleCount := if_pos here
      rw [Ledger.pending, Ledger.pending, current]
      cases l.current k with
      | none => rfl
      | some a => rfl
    · exact pending_eq (if_neg here)
  rw [same]
  exact balanced k

theorem balanced_post {l : Ledger} {posts : String → Nat} (balanced : l.Balanced posts)
    {hashes : List String} (nodup : hashes.Nodup)
    (pending : ∀ k ∈ hashes, ∃ a, l.current k = some a ∧ a.posted = false) :
    (l.post hashes).Balanced fun k => posts k + hashes.count k := by
  intro k
  have before := balanced k
  simp only
  by_cases here : k ∈ hashes
  · obtain ⟨a, current, unposted⟩ := pending k here
    have posted : (l.post hashes).current k = some { a with posted := true } := by
      simp only [Ledger.post, if_pos here, current, Option.map_some]
    rw [pending_of_current current, unposted] at before
    rw [pending_of_current posted, List.count_eq_one_of_mem nodup here]
    simp only [Ledger.post, Bool.false_eq_true, if_false, if_true] at before ⊢
    omega
  · rw [pending_eq (l := l) (if_neg here), List.count_eq_zero_of_not_mem here]
    exact before

/-! ### The queue -/

def Block.fromPush : Block → Prop
  | .addNotification notification _ => notification.fileBundleBinaryCount = none
  | _ => False

def Ordered (queue : List Block) : Phase → Prop
  | .idle => Block.all ∉ queue
  | .downloading .. => Block.all ∉ queue
  | .waiting => ∃ before after, queue = before ++ .all :: after ∧ Block.all ∉ before ∧
      ∀ b ∈ after, b.fromPush
  | .enumerating => ∀ b ∈ queue, b.fromPush
  | .removing _ => ∀ b ∈ queue, b.fromPush

def Block.new : Block → Prop
  | .addNotification notification _ =>
      notification.fileBundleBinaryCount = none ∨ notification.fileBundleBinaryCount = some 0
  | _ => True

theorem blockFor_spec {isV2 : Bool} {syncType : SNTSyncType} {protoRule : NotifyingRule}
    {block : Block} (made : blockFor isV2 syncType protoRule = some block) :
    block.new ∧ block.removed = [] ∧ block ≠ .all := by
  obtain ⟨rule, -, made⟩ := Option.bind_eq_some_iff.mp made
  unfold ProcessBundleNotificationsForRule at made
  split at made
  · split at made
    · cases made
    · cases made
      exact ⟨Or.inr rfl, rfl, nofun⟩
  · unfold ProcessDeprecatedBundleNotificationsForRule at made
    split at made
    · cases made
      exact ⟨trivial, rfl, nofun⟩
    · cases made

theorem not_all_of_fromPush {queue : List Block} (pushes : ∀ b ∈ queue, b.fromPush) :
    Block.all ∉ queue := fun member => pushes _ member

theorem removed_of_fromPush {queue : List Block} (pushes : ∀ b ∈ queue, b.fromPush) :
    queue.flatMap Block.removed = [] := by
  rw [List.flatMap_eq_nil_iff]
  intro b member
  cases b with
  | addNotification notification hash => rfl
  | removeNotificationsForHashes hashes => exact (pushes _ member).elim
  | decrementPendingRulesForHash hash totalRuleCount => rfl
  | all => rfl

theorem ordered_push {queue : List Block} {phase : Phase} (ordered : Ordered queue phase)
    {block : Block} (push : block.fromPush) : Ordered (queue ++ [block]) phase := by
  have other : Block.all ≠ block := by
    rintro rfl
    exact push
  have added : ∀ queue : List Block, (∀ b ∈ queue, b.fromPush) →
      ∀ b ∈ queue ++ [block], b.fromPush := by
    intro queue pushes b member
    rcases List.mem_append.mp member with old | new
    · exact pushes b old
    · rwa [List.mem_singleton.mp new]
  have absent : Block.all ∉ queue → Block.all ∉ queue ++ [block] := by
    intro absent member
    rcases List.mem_append.mp member with old | new
    · exact absent old
    · exact other (List.mem_singleton.mp new)
  cases phase with
  | idle => exact absent ordered
  | downloading syncType got rules more => exact absent ordered
  | waiting =>
    obtain ⟨before, after, split, first, pushes⟩ := ordered
    refine ⟨before, after ++ [block], ?_, first, added after pushes⟩
    rw [split, List.append_assoc, List.cons_append]
  | enumerating => exact added queue ordered
  | removing hashes => exact added queue ordered

theorem waiting_of_all {queue : List Block} {phase : Phase}
    (ordered : Ordered (.all :: queue) phase) : phase = .waiting ∧ ∀ b ∈ queue, b.fromPush := by
  cases phase with
  | idle => exact absurd List.mem_cons_self ordered
  | downloading syncType got rules more => exact absurd List.mem_cons_self ordered
  | waiting =>
    obtain ⟨before, after, split, first, pushes⟩ := ordered
    cases before with
    | nil =>
      obtain ⟨-, rfl⟩ := List.cons.inj split
      exact ⟨rfl, pushes⟩
    | cons b before =>
      obtain ⟨rfl, -⟩ := List.cons.inj split
      exact absurd List.mem_cons_self first
  | enumerating => exact absurd List.mem_cons_self (not_all_of_fromPush ordered)
  | removing hashes => exact absurd List.mem_cons_self (not_all_of_fromPush ordered)

theorem ordered_tail {block : Block} {queue : List Block} {phase : Phase}
    (ordered : Ordered (block :: queue) phase) (other : block ≠ .all) : Ordered queue phase := by
  cases phase with
  | idle => exact fun member => ordered (List.mem_cons_of_mem _ member)
  | downloading syncType got rules more =>
    exact fun member => ordered (List.mem_cons_of_mem _ member)
  | waiting =>
    obtain ⟨before, after, split, first, pushes⟩ := ordered
    cases before with
    | nil => exact absurd (List.cons.inj split).1 other
    | cons b before =>
      exact ⟨before, after, (List.cons.inj split).2,
        fun member => first (List.mem_cons_of_mem _ member), pushes⟩
  | enumerating => exact fun b member => ordered b (List.mem_cons_of_mem _ member)
  | removing hashes => exact fun b member => ordered b (List.mem_cons_of_mem _ member)

/-! ### Whole runs -/

structure Inv (w : Watched) : Prop where
  same : Same w.state.notifications w.ledger
  balanced : w.ledger.Balanced w.state.posts
  leaving : ∀ k a, w.ledger.current k = some a → a.posted = true → k ∈ w.state.leaving
  removed : ∀ k ∈ w.state.leaving, ∀ a, w.ledger.current k = some a →
    a.posted = true ∨ a.again = true
  never_before : ∀ k a, w.ledger.current k = some a → a.posted = true →
    ∃ total, a.total = some total ∧ total ≤ a.received
  posted : ∀ hashes, w.state.phase = .removing hashes → ∀ k a,
    w.ledger.current k = some a → a.total = some a.received → a.posted = true
  new : ∀ b ∈ w.state.queue, b.new
  ordered : Ordered w.state.queue w.state.phase

theorem Inv.safe {w : Watched} (inv : Inv w) : Safe w where
  once := inv.balanced
  tracked k := by
    have counts := congrArg Option.isSome (inv.same k)
    rwa [Option.isSome_map, Option.isSome_map] at counts
  remaining k a notifier total current entry known received small := by
    have counts := inv.same k
    rw [current, entry] at counts
    exact (Option.some.inj counts).trans (remaining_eq known received small)
  never_before := inv.never_before
  posted := inv.posted
  removed := inv.removed

theorem inv_moved {w : Watched} (inv : Inv w) {queue : List Block} {phase : Phase}
    (leaving : ∀ k, k ∈ queue.flatMap Block.removed ++ phase.processed ↔ k ∈ w.state.leaving)
    (new : ∀ b ∈ queue, b.new) (ordered : Ordered queue phase)
    (same : ∀ hashes, phase = .removing hashes → w.state.phase = .removing hashes) :
    Inv ⟨{ w.state with queue := queue, phase := phase }, w.ledger⟩ where
  same := inv.same
  balanced := inv.balanced
  leaving k a current posted := (leaving k).mpr (inv.leaving k a current posted)
  removed k member := inv.removed k ((leaving k).mp member)
  never_before := inv.never_before
  posted hashes now := inv.posted hashes (same hashes now)
  new := new
  ordered := ordered

theorem new_append {queue : List Block} {block : Block} (new : ∀ b ∈ queue, b.new)
    (added : block.new) : ∀ b ∈ queue ++ [block], b.new := by
  intro b member
  rcases List.mem_append.mp member with old | last
  · exact new b old
  · rwa [List.mem_singleton.mp last]

theorem not_all_append {queue : List Block} {block : Block} (absent : Block.all ∉ queue)
    (other : block ≠ .all) : Block.all ∉ queue ++ [block] := by
  intro member
  rcases List.mem_append.mp member with old | last
  · exact absent old
  · exact other (List.mem_singleton.mp last).symm

theorem removed_append (queue : List Block) (block : Block) :
    (queue ++ [block]).flatMap Block.removed = queue.flatMap Block.removed ++ block.removed := by
  rw [List.flatMap_append, List.flatMap_singleton]

theorem inv_push {w : Watched} (inv : Inv w) (fileName hash : String) :
    Inv ⟨{ w.state with
      queue := w.state.queue ++ [.addNotification ⟨fileName, none⟩ hash] }, w.ledger⟩ := by
  refine inv_moved inv (fun k => ?_) (new_append inv.new (Or.inl rfl))
    (ordered_push inv.ordered rfl) (fun _ => id)
  rw [removed_append]
  simp only [Block.removed, List.append_nil]
  rfl

def Phase.early : Phase → Prop
  | .idle => True
  | .downloading .. => True
  | _ => False

theorem ordered_early {queue : List Block} {phase : Phase} (early : phase.early) :
    Ordered queue phase ↔ Block.all ∉ queue := by
  cases phase with
  | idle => exact Iff.rfl
  | downloading syncType got rules more => exact Iff.rfl
  | waiting => exact early.elim
  | enumerating => exact early.elim
  | removing hashes => exact early.elim

theorem processed_early {phase : Phase} (early : phase.early) : phase.processed = [] := by
  cases phase with
  | removing hashes => exact early.elim
  | _ => rfl

theorem inv_early {w : Watched} (inv : Inv w) (before : w.state.phase.early) {phase : Phase}
    (after : phase.early) : Inv ⟨{ w.state with phase := phase }, w.ledger⟩ := by
  have ordered := (ordered_early after).mpr ((ordered_early before).mp inv.ordered)
  refine inv_moved inv (fun k => ?_) inv.new ordered fun hashes removing => ?_
  · rw [State.leaving, processed_early before, processed_early after]
  · rw [removing] at after
    exact after.elim

theorem inv_sync {w t : Watched} {isV2 : Bool} {syncType : SNTSyncType} (inv : Inv w)
    (taken : watch isV2 w (.sync syncType) = some t) : Inv t := by
  rw [watch, Option.map_eq_some_iff] at taken
  obtain ⟨s, taken, rfl⟩ := taken
  simp only [step] at taken
  split at taken
  · rename_i idle
    obtain rfl := Option.some.inj taken
    exact inv_early inv (by rw [idle]; trivial) trivial
  · cases taken

theorem inv_response {w t : Watched} {isV2 : Bool} {response : Response} (inv : Inv w)
    (taken : watch isV2 w (.response response) = some t) : Inv t := by
  rw [watch, Option.map_eq_some_iff] at taken
  obtain ⟨s, taken, rfl⟩ := taken
  simp only [step] at taken
  split at taken
  · rename_i syncType got downloading
    obtain rfl := Option.some.inj taken
    exact inv_early inv (by rw [downloading]; trivial) trivial
  · cases taken

theorem inv_rule {w t : Watched} {isV2 : Bool} (inv : Inv w)
    (taken : watch isV2 w .rule = some t) : Inv t := by
  rw [watch, Option.map_eq_some_iff] at taken
  obtain ⟨s, taken, rfl⟩ := taken
  simp only [step] at taken
  split at taken
  · rename_i syncType got rule rules more downloading
    obtain rfl := Option.some.inj taken
    cases made : blockFor isV2 syncType rule with
    | none =>
      rw [Option.toList_none, List.append_nil]
      exact inv_early inv (by rw [downloading]; trivial) trivial
    | some block =>
      obtain ⟨new, none_removed, other⟩ := blockFor_spec made
      have ordered := inv.ordered
      rw [downloading] at ordered
      refine inv_moved inv (fun k => ?_) (new_append inv.new new) (not_all_append ordered other)
        nofun
      rw [State.leaving, downloading, Option.toList_some, removed_append, none_removed,
        List.append_nil]
      rfl
  · cases taken

theorem inv_failed {w t : Watched} {isV2 : Bool} (inv : Inv w)
    (taken : watch isV2 w .failed = some t) : Inv t := by
  rw [watch, Option.map_eq_some_iff] at taken
  obtain ⟨s, taken, rfl⟩ := taken
  simp only [step] at taken
  split at taken
  · rename_i syncType got more downloading
    obtain rfl := Option.some.inj taken
    exact inv_early inv (by rw [downloading]; trivial) trivial
  · cases taken

theorem inv_added {w t : Watched} {isV2 : Bool} (inv : Inv w)
    (taken : watch isV2 w .added = some t) : Inv t := by
  rw [watch, Option.map_eq_some_iff] at taken
  obtain ⟨s, taken, rfl⟩ := taken
  simp only [step] at taken
  split at taken
  · rename_i syncType got downloading
    split at taken
    · obtain rfl := Option.some.inj taken
      exact inv_early inv (by rw [downloading]; trivial) trivial
    · obtain rfl := Option.some.inj taken
      have ordered := inv.ordered
      rw [downloading] at ordered
      refine inv_moved inv (fun k => ?_) (new_append inv.new trivial)
        ⟨w.state.queue, [], rfl, ordered, nofun⟩ nofun
      rw [State.leaving, downloading, removed_append]
      simp only [Block.removed, List.append_nil]
      rfl
  · cases taken

theorem inv_remove {w t : Watched} {isV2 : Bool} (inv : Inv w)
    (taken : watch isV2 w .remove = some t) : Inv t := by
  rw [watch, Option.map_eq_some_iff] at taken
  obtain ⟨s, taken, rfl⟩ := taken
  simp only [step] at taken
  split at taken
  · rename_i hashes removing
    obtain rfl := Option.some.inj taken
    have ordered := inv.ordered
    rw [removing] at ordered
    refine inv_moved inv (fun k => ?_) (new_append inv.new trivial)
      (not_all_append (not_all_of_fromPush ordered) nofun) nofun
    rw [State.leaving, removing, removed_append, Block.removed]
    simp only [Phase.processed, List.append_nil]
  · cases taken

theorem current_of_post {l : Ledger} {hashes : List String} {k : String} {a : Announcement}
    (current : (l.post hashes).current k = some a) :
    ∃ b, l.current k = some b ∧ a.total = b.total ∧ a.received = b.received ∧
      a.posted = (b.posted || decide (k ∈ hashes)) := by
  simp only [Ledger.post] at current
  split at current
  · rename_i member
    obtain ⟨b, before, rfl⟩ := Option.map_eq_some_iff.mp current
    exact ⟨b, before, rfl, rfl, by rw [decide_eq_true member, Bool.or_true]⟩
  · rename_i other
    exact ⟨a, current, rfl, rfl, by rw [decide_eq_false other, Bool.or_false]⟩

theorem unposted_of_enumerating {w : Watched} (inv : Inv w)
    (enumerating : w.state.phase = .enumerating) {k : String} {a : Announcement}
    (current : w.ledger.current k = some a) : a.posted = false := by
  have pushes := inv.ordered
  rw [enumerating] at pushes
  refine Bool.eq_false_iff.mpr fun posted => ?_
  have member := inv.leaving k a current posted
  rw [State.leaving, enumerating, removed_of_fromPush pushes] at member
  cases member

theorem posts_append (s : State) (notifications : Notifications) (phase : Phase) :
    State.posts { s with posted := s.posted ++ finished notifications, phase := phase } =
      fun k => s.posts k + (processed notifications).count k := by
  funext k
  rw [State.posts, List.map_append, List.count_append]
  rfl

theorem inv_post {w : Watched} (inv : Inv w) (enumerating : w.state.phase = .enumerating) :
    Inv ⟨{ w.state with
      posted := w.state.posted ++ finished w.state.notifications
      phase := .removing (processed w.state.notifications) },
      w.ledger.post (processed w.state.notifications)⟩ := by
  have entry : ∀ k ∈ processed w.state.notifications, ∃ a, w.ledger.current k = some a ∧
      ∃ total, a.total = some total ∧ total ≤ a.received := by
    intro k member
    obtain ⟨notifier, found, done⟩ := mem_processed.mp member
    obtain ⟨a, current, count⟩ := current_of_entry inv.same found
    exact ⟨a, current, complete_of_done count done⟩
  have pushes := inv.ordered
  rw [enumerating] at pushes
  -- the flag of a posted one is that of its hash, since none was posted before
  have flag : ∀ k a, (w.ledger.post (processed w.state.notifications)).current k = some a →
      (a.posted = true ↔ k ∈ processed w.state.notifications) ∧
        ∃ b, w.ledger.current k = some b ∧ a.total = b.total ∧ a.received = b.received := by
    intro k a current
    obtain ⟨b, before, total, received, posted⟩ := current_of_post current
    rw [unposted_of_enumerating inv enumerating before, Bool.false_or] at posted
    exact ⟨by rw [posted, decide_eq_true_iff], b, before, total, received⟩
  exact {
    same := same_post inv.same _
    balanced := by
      rw [posts_append]
      refine balanced_post inv.balanced (processed_nodup _) fun k member => ?_
      obtain ⟨a, current, -⟩ := entry k member
      exact ⟨a, current, unposted_of_enumerating inv enumerating current⟩
    leaving := fun k a current posted =>
      List.mem_append_right _ ((flag k a current).1.mp posted)
    removed := by
      intro k member a current
      rcases List.mem_append.mp member with queued | here
      · rw [removed_of_fromPush pushes] at queued
        cases queued
      · exact Or.inl ((flag k a current).1.mpr here)
    never_before := by
      intro k a current posted
      obtain ⟨iff, b, before, total, received⟩ := flag k a current
      obtain ⟨c, found, complete⟩ := entry k (iff.mp posted)
      rw [before] at found
      obtain rfl := Option.some.inj found
      rwa [total, received]
    posted := by
      intro hashes now k a current complete
      obtain ⟨iff, b, before, total, received⟩ := flag k a current
      rw [total, received] at complete
      obtain ⟨notifier, found, count⟩ := entry_of_current inv.same before
      exact iff.mpr (mem_processed.mpr ⟨notifier, found, done_of_complete count complete⟩)
    new := inv.new
    ordered := pushes }

theorem inv_enumerate {w t : Watched} {isV2 : Bool} (inv : Inv w)
    (taken : watch isV2 w .enumerate = some t) : Inv t := by
  rw [watch, Option.map_eq_some_iff] at taken
  obtain ⟨s, taken, rfl⟩ := taken
  simp only [step] at taken
  split at taken
  · rename_i enumerating
    obtain rfl := Option.some.inj taken
    exact inv_post inv enumerating
  · cases taken

/-! ### A block of the queue runs -/

section
variable {w : Watched} {queue : List Block}

theorem leaving_tail {block : Block} (head : w.state.queue = block :: queue) (phase : Phase)
    (same : phase.processed = w.state.phase.processed) (k : String) :
    k ∈ w.state.leaving ↔
      k ∈ block.removed ∨ k ∈ queue.flatMap Block.removed ++ phase.processed := by
  rw [State.leaving, head, List.flatMap_cons, List.append_assoc, List.mem_append, same]

theorem inv_all (inv : Inv w) (head : w.state.queue = .all :: queue) :
    Inv ⟨{ w.state with queue := queue, phase := .enumerating }, w.ledger⟩ := by
  have ordered := inv.ordered
  rw [head] at ordered
  obtain ⟨waiting, pushes⟩ := waiting_of_all ordered
  refine inv_moved inv (fun k => ?_) (fun b member => ?_) pushes nofun
  · rw [leaving_tail head .enumerating (by rw [waiting]; rfl) k]
    simp only [Block.removed, List.not_mem_nil, false_or]
  · exact inv.new b (head ▸ List.mem_cons_of_mem _ member)

theorem leaving_run {block : Block} (head : w.state.queue = block :: queue)
    (notifications : Notifications) (k : String) :
    k ∈ w.state.leaving ↔ k ∈ block.removed ∨
      k ∈ State.leaving { w.state with notifications := notifications, queue := queue } :=
  leaving_tail head w.state.phase rfl k

theorem new_tail (inv : Inv w) {block : Block} (head : w.state.queue = block :: queue) :
    block.new ∧ ∀ b ∈ queue, b.new := by
  have new := inv.new
  rw [head] at new
  exact List.forall_mem_cons.mp new

theorem ordered_run (inv : Inv w) {block : Block} (head : w.state.queue = block :: queue)
    (other : block ≠ .all) : Ordered queue w.state.phase := by
  have ordered := inv.ordered
  rw [head] at ordered
  exact ordered_tail ordered other

theorem fromPush_of_removing (inv : Inv w) {block : Block}
    (head : w.state.queue = block :: queue) {hashes : List String}
    (removing : w.state.phase = .removing hashes) : block.fromPush := by
  have pushes := inv.ordered
  rw [head, removing] at pushes
  exact pushes block List.mem_cons_self

theorem current_of_add {s : State} {l : Ledger} {notification : Notifier} {hash k : String}
    {a : Announcement}
    (current : (l.runBlock s (.addNotification notification hash)).current k = some a) :
    (k = hash ∧ a = .start notification.fileBundleBinaryCount.isSome (hash ∈ s.leaving)) ∨
      l.current k = some a := by
  simp only [Ledger.runBlock, Ledger.announce] at current
  split at current
  · rename_i here
    exact Or.inl ⟨here, (Option.some.inj current).symm⟩
  · split at current
    · cases current
    · exact Or.inr current

theorem inv_addNotification (inv : Inv w) {notification : Notifier} {hash : String}
    (head : w.state.queue = .addNotification notification hash :: queue) :
    Inv ⟨{ w.state with
      notifications := addNotification w.state.notifications notification hash
      queue := queue },
      w.ledger.runBlock w.state (.addNotification notification hash)⟩ where
  same := same_announce (new_tail inv head).1 (same_drop inv.same) hash _
  balanced := by
    refine balanced_announce ?_ hash _ _
    split
    · exact balanced_drop inv.balanced
    · exact inv.balanced
  leaving := by
    intro k a current posted
    rcases current_of_add current with ⟨-, rfl⟩ | before
    · cases posted
    · exact ((leaving_run head _ k).mp (inv.leaving k a before posted)).resolve_left nofun
  removed := by
    intro k member a current
    have earlier : k ∈ w.state.leaving := (leaving_run head _ k).mpr (Or.inr member)
    rcases current_of_add current with ⟨rfl, rfl⟩ | before
    · exact Or.inr (decide_eq_true earlier)
    · exact inv.removed k earlier a before
  never_before := by
    intro k a current posted
    rcases current_of_add current with ⟨-, rfl⟩ | before
    · cases posted
    · exact inv.never_before k a before posted
  posted := by
    intro hashes removing k a current complete
    rcases current_of_add current with ⟨-, rfl⟩ | before
    · have message : notification.fileBundleBinaryCount = none :=
        fromPush_of_removing inv head removing
      rw [message] at complete
      cases complete
    · exact inv.posted hashes removing k a before complete
  new := (new_tail inv head).2
  ordered := ordered_run (w := w) inv head nofun

theorem current_of_remove {l : Ledger} {hashes : List String} {k : String} {a : Announcement}
    (current : (l.remove hashes).current k = some a) : k ∉ hashes ∧ l.current k = some a := by
  simp only [Ledger.remove] at current
  split at current
  · cases current
  · rename_i other
    exact ⟨other, current⟩

theorem inv_removeNotifications (inv : Inv w) {hashes : List String}
    (head : w.state.queue = .removeNotificationsForHashes hashes :: queue) :
    Inv ⟨{ w.state with
      notifications := removeNotificationsForHashes w.state.notifications hashes
      queue := queue }, w.ledger.remove hashes⟩ where
  same := same_remove inv.same hashes
  balanced := balanced_remove inv.balanced hashes
  leaving := by
    intro k a current posted
    obtain ⟨other, before⟩ := current_of_remove current
    exact ((leaving_run head _ k).mp (inv.leaving k a before posted)).resolve_left other
  removed := by
    intro k member a current
    exact inv.removed k ((leaving_run head _ k).mpr (Or.inr member)) a
      (current_of_remove current).2
  never_before k a current := inv.never_before k a (current_of_remove current).2
  posted hashes removing k a current := inv.posted hashes removing k a (current_of_remove current).2
  new := (new_tail inv head).2
  ordered := ordered_run (w := w) inv head nofun

theorem current_of_receive {l : Ledger} {hash k : String} {totalRuleCount : Option UInt32}
    {a : Announcement} (current : (l.receive hash totalRuleCount).current k = some a) :
    ∃ b, l.current k = some b ∧ a.posted = b.posted ∧ a.again = b.again ∧
      (∀ total, b.total = some total → a.total = some total) ∧ b.received ≤ a.received := by
  simp only [Ledger.receive] at current
  split at current
  · obtain ⟨b, before, rfl⟩ := Option.map_eq_some_iff.mp current
    refine ⟨b, before, rfl, rfl, fun total known => ?_, Nat.le_succ _⟩
    simp only [Announcement.receive, known, Option.getD_some]
  · exact ⟨a, current, rfl, rfl, fun _ => id, Nat.le_refl _⟩

theorem inv_decrementPendingRules (inv : Inv w) {hash : String} {totalRuleCount : Option UInt32}
    (head : w.state.queue = .decrementPendingRulesForHash hash totalRuleCount :: queue) :
    Inv ⟨{ w.state with
      notifications := decrementPendingRulesForHash w.state.notifications hash totalRuleCount
      queue := queue }, w.ledger.receive hash totalRuleCount⟩ where
  same := same_receive inv.same hash totalRuleCount
  balanced := balanced_receive inv.balanced hash totalRuleCount
  leaving := by
    intro k a current posted
    obtain ⟨b, before, same, -⟩ := current_of_receive current
    rw [same] at posted
    exact ((leaving_run head _ k).mp (inv.leaving k b before posted)).resolve_left nofun
  removed := by
    intro k member a current
    obtain ⟨b, before, posted, again, -⟩ := current_of_receive current
    rw [posted, again]
    exact inv.removed k ((leaving_run head _ k).mpr (Or.inr member)) b before
  never_before := by
    intro k a current posted
    obtain ⟨b, before, same, -, known, more⟩ := current_of_receive current
    rw [same] at posted
    obtain ⟨total, of_b, complete⟩ := inv.never_before k b before posted
    exact ⟨total, known total of_b, Nat.le_trans complete more⟩
  posted hashes removing := (fromPush_of_removing inv head removing).elim
  new := (new_tail inv head).2
  ordered := ordered_run (w := w) inv head nofun

end

theorem inv_run {w t : Watched} {isV2 : Bool} (inv : Inv w)
    (taken : watch isV2 w .run = some t) : Inv t := by
  rw [watch, Option.map_eq_some_iff] at taken
  obtain ⟨s, taken, rfl⟩ := taken
  simp only [step] at taken
  split at taken
  · cases taken
  · rename_i block queue head
    obtain rfl := Option.some.inj taken
    have recorded : w.ledger.after w.state .run = w.ledger.runBlock w.state block := by
      simp only [Ledger.after, head]
    rw [recorded]
    cases block with
    | addNotification notification hash => exact inv_addNotification inv head
    | removeNotificationsForHashes hashes => exact inv_removeNotifications inv head
    | decrementPendingRulesForHash hash totalRuleCount => exact inv_decrementPendingRules inv head
    | all => exact inv_all inv head

theorem step_keeps {isV2 : Bool} (w : Watched) (l : Label) (t : Watched) (inv : Inv w)
    (taken : watch isV2 w l = some t) : Inv t := by
  cases l with
  | push fileName hash =>
    obtain rfl := Option.some.inj taken
    exact inv_push inv fileName hash
  | sync syncType => exact inv_sync inv taken
  | response response => exact inv_response inv taken
  | rule => exact inv_rule inv taken
  | failed => exact inv_failed inv taken
  | added => exact inv_added inv taken
  | run => exact inv_run inv taken
  | enumerate => exact inv_enumerate inv taken
  | remove => exact inv_remove inv taken

theorem inv_start : Inv .start where
  same k := by
    rw [Watched.start, State.start, AList.lookup_empty]
    rfl
  balanced _ := rfl
  leaving := nofun
  removed := nofun
  never_before := nofun
  posted := nofun
  new := nofun
  ordered := nofun

/-- For any messages at any time, pages, orders of rules and syncs, failed or not. -/
theorem announcements_kept (isV2 : Bool) (ls : List Label) :
    Runs.Always (watch isV2) Safe .start ls :=
  Runs.always_mono (fun _ inv => inv.safe) (Runs.always_of_keep Inv step_keeps inv_start ls)

/-! ### Entries that are not posted -/

theorem decrement_zero {notifications : Notifications} {hash : String} {notifier : Notifier}
    (found : notifications.lookup hash = some notifier)
    (first : notifier.fileBundleBinaryCount = none) :
    ((decrementPendingRulesForHash notifications hash (some 0)).lookup hash).map
      Notifier.fileBundleBinaryCount = some (some (-1)) := by
  have value : decremented none (some 0) = -1 := by decide
  rw [lookup_decrement, if_pos rfl, found, Option.map_some, first, Option.map_some, value]

def binaryHash : String := String.ofList (List.replicate 64 'a')

def onlyRule : NotifyingRule where
  identifier := binaryHash
  deprecatedSHA256 := ""
  policy := .allowlist
  ruleType := .binary
  customMsg := ""
  customURL := ""
  celExpr := ""
  notificationAppName := ""
  fileBundleHash := ""
  fileBundleBinaryCount := 1

def messages (others : Nat) : List Label :=
  (List.range others).flatMap fun n => [.push "other" (String.ofList (List.replicate n 'b')), .run]

def download : List Label :=
  [.sync .normal, .response ⟨[onlyRule], [], ""⟩, .rule, .run, .added, .run, .enumerate, .remove]

/-- With seventeen more messages the announced binary is forgotten before its rule comes. -/
theorem forgotten_unposted :
    (Runs.run (step true) .start ([.push "app" binaryHash, .run] ++ messages 17 ++ download)).map
      State.posted = some [] := by
  decide +kernel

end SantaUnblockNotifications
