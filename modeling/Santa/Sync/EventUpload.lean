import Mathlib.Data.Finset.Lattice.Lemmas
import Santa.Common.Configurator
import Santa.FileAccess.FAAPolicyProcessor
import Santa.Library.Batches

/-!
Event upload. The stored events are sent in batches, and the daemon is told after
each batch which events to remove. What a message only copies from its event is
kept as one value, its details. An answer names the bundles whose binaries the
server asks for; a request without one has failed.
-/
namespace SantaEventUpload
open SantaPolicy (SNTEventState)
open SantaFAA (FileAccessPolicyDecision)
open SantaConfigurator (SNTSyncType)

/-! ### Events and their messages -/

inductive StoredDecision where
  | decided (state : SNTEventState)
  | bundleBinary
  | block
  | allow
  deriving DecidableEq, Repr

inductive StoredContents (Details : Type) where
  | execution (decision : StoredDecision) (occurrenceDate : Int) (details : Details)
  | fileAccess (decision : FileAccessPolicyDecision) (details : Details)
  | temporaryMonitorModeEnter (details : Details)
  | temporaryMonitorModeLeave (details : Details)
  | temporaryMonitorMode (details : Details)
  | networkMount (details : Details)
  | other
  deriving DecidableEq, Repr

structure SNTStoredEvent (Details : Type) where
  idx : Option Nat
  contents : StoredContents Details
  deriving DecidableEq, Repr

inductive Decision where
  | allowUnknown
  | allowBinary
  | allowCertificate
  | allowScope
  | allowTeamID
  | allowSigningID
  | allowCDHash
  | blockUnknown
  | blockBinary
  | blockCertificate
  | blockScope
  | blockTeamID
  | blockSigningID
  | blockCDHash
  | bundleBinary
  deriving DecidableEq, Repr

inductive FileAccessDecision where
  | denied
  | deniedInvalidSignature
  | auditOnly
  deriving DecidableEq, Repr

structure ExecutionMessage (Details : Type) where
  decision : Decision
  executionTime : Option Int
  details : Details
  deriving DecidableEq, Repr

structure FileAccessMessage (Details : Type) where
  decision : FileAccessDecision
  details : Details
  deriving DecidableEq, Repr

inductive AuditMessage (Details : Type) where
  | enter (details : Details)
  | leave (details : Details)
  deriving DecidableEq, Repr

def decisionOf : StoredDecision → Option Decision
  | .decided .allowUnknown => some .allowUnknown
  | .decided .allowBinary => some .allowBinary
  | .decided .allowCompilerBinary => some .allowBinary
  | .decided .allowCertificate => some .allowCertificate
  | .decided .allowScope => some .allowScope
  | .decided .allowTeamID => some .allowTeamID
  | .decided .allowSigningID => some .allowSigningID
  | .decided .allowCompilerSigningID => some .allowSigningID
  | .decided .allowCDHash => some .allowCDHash
  | .decided .allowCompilerCDHash => some .allowCDHash
  | .decided .blockUnknown => some .blockUnknown
  | .decided .blockBinary => some .blockBinary
  | .decided .blockCertificate => some .blockCertificate
  | .decided .blockScope => some .blockScope
  | .decided .blockTeamID => some .blockTeamID
  | .decided .blockSigningID => some .blockSigningID
  | .decided .blockCDHash => some .blockCDHash
  | .decided .allowTransitive | .decided .allowLocalBinary | .decided .allowLocalSigningID
  | .decided .allowPendingTransitive | .decided .blockLongPath | .decided .unknown
  | .allow | .block => none
  | .bundleBinary => some .bundleBinary

def fileAccessDecisionOf : FileAccessPolicyDecision → Option FileAccessDecision
  | .denied => some .denied
  | .deniedInvalidSignature => some .deniedInvalidSignature
  | .allowedAuditOnly => some .auditOnly
  | .noPolicy | .allowed | .allowedReadAccess => none

section
variable {Details : Type}

/-- A binary found in a bundle was not executed. -/
def MessageForExecutionEvent (decision : StoredDecision) (occurrenceDate : Int)
    (details : Details) : Option (ExecutionMessage Details) :=
  (decisionOf decision).map fun made =>
    ⟨made, if made = .bundleBinary then none else some occurrenceDate, details⟩

def MessageForFileAccessEvent (decision : FileAccessPolicyDecision) (details : Details) :
    Option (FileAccessMessage Details) :=
  (fileAccessDecisionOf decision).map fun made => ⟨made, details⟩

structure EventUploadRequest (Details : Type) where
  events : List (ExecutionMessage Details) := []
  fileAccessEvents : List (FileAccessMessage Details) := []
  auditEvents : List (AuditMessage Details) := []
  networkMountEvents : List Details := []
  deriving DecidableEq, Repr

namespace EventUploadRequest

def totalEventCount (req : EventUploadRequest Details) : Nat :=
  req.events.length + req.fileAccessEvents.length + req.auditEvents.length +
    req.networkMountEvents.length

/-- The first protocol has neither audit events nor network mounts. -/
def add (isV2 : Bool) (req : EventUploadRequest Details) (event : SNTStoredEvent Details) :
    EventUploadRequest Details :=
  match event.contents with
  | .execution decision occurrenceDate details =>
      let message := MessageForExecutionEvent decision occurrenceDate details
      { req with events := req.events ++ message.toList }
  | .fileAccess decision details =>
      let message := MessageForFileAccessEvent decision details
      { req with fileAccessEvents := req.fileAccessEvents ++ message.toList }
  | .temporaryMonitorModeEnter details =>
      if isV2 then { req with auditEvents := req.auditEvents ++ [.enter details] } else req
  | .temporaryMonitorModeLeave details =>
      if isV2 then { req with auditEvents := req.auditEvents ++ [.leave details] } else req
  | .networkMount details =>
      if isV2 then { req with networkMountEvents := req.networkMountEvents ++ [details] } else req
  | .temporaryMonitorMode _ | .other => req

end EventUploadRequest

def convertible (isV2 : Bool) (event : SNTStoredEvent Details) : Bool :=
  match event.contents with
  | .execution decision _ _ => (decisionOf decision).isSome
  | .fileAccess decision _ => (fileAccessDecisionOf decision).isSome
  | .temporaryMonitorModeEnter _ | .temporaryMonitorModeLeave _ | .networkMount _ => isV2
  | .temporaryMonitorMode _ | .other => false

def requestOf (isV2 : Bool) (batch : List (SNTStoredEvent Details)) : EventUploadRequest Details :=
  batch.foldl (EventUploadRequest.add isV2) {}

theorem requestOf_concat (isV2 : Bool) (batch : List (SNTStoredEvent Details))
    (event : SNTStoredEvent Details) :
    requestOf isV2 (batch ++ [event]) = (requestOf isV2 batch).add isV2 event := by
  rw [requestOf, List.foldl_append]
  rfl

theorem add_of_not_convertible {isV2 : Bool} {event : SNTStoredEvent Details}
    (not : convertible isV2 event = false) (req : EventUploadRequest Details) :
    req.add isV2 event = req := by
  obtain ⟨idx, contents⟩ := event
  rw [convertible] at not
  rw [EventUploadRequest.add]
  cases contents with
  | execution decision _ _ =>
    have unsent : decisionOf decision = none := by simpa using not
    simp only [MessageForExecutionEvent, unsent, Option.map_none, Option.toList_none,
      List.append_nil]
  | fileAccess decision _ =>
    have unsent : fileAccessDecisionOf decision = none := by simpa using not
    simp only [MessageForFileAccessEvent, unsent, Option.map_none, Option.toList_none,
      List.append_nil]
  | temporaryMonitorModeEnter | temporaryMonitorModeLeave | networkMount =>
    simp only at not
    simp only [not, Bool.false_eq_true, if_false]
  | temporaryMonitorMode | other => rfl

theorem totalEventCount_add {isV2 : Bool} {event : SNTStoredEvent Details}
    (conv : convertible isV2 event = true) (req : EventUploadRequest Details) :
    (req.add isV2 event).totalEventCount = req.totalEventCount + 1 := by
  obtain ⟨idx, contents⟩ := event
  rw [convertible] at conv
  rw [EventUploadRequest.add]
  cases contents with
  | execution decision _ _ =>
    obtain ⟨made, sent⟩ := Option.isSome_iff_exists.mp conv
    simp only [MessageForExecutionEvent, sent, EventUploadRequest.totalEventCount,
      Option.map_some, Option.toList_some, List.length_append, List.length_singleton]
    omega
  | fileAccess decision _ =>
    obtain ⟨made, sent⟩ := Option.isSome_iff_exists.mp conv
    simp only [MessageForFileAccessEvent, sent, EventUploadRequest.totalEventCount,
      Option.map_some, Option.toList_some, List.length_append, List.length_singleton]
    omega
  | temporaryMonitorModeEnter | temporaryMonitorModeLeave | networkMount =>
    simp only at conv
    simp only [conv, if_true, EventUploadRequest.totalEventCount, List.length_append,
      List.length_singleton]
    omega
  | temporaryMonitorMode | other => exact absurd conv Bool.false_ne_true

theorem totalEventCount_requestOf (isV2 : Bool) (batch : List (SNTStoredEvent Details)) :
    (requestOf isV2 batch).totalEventCount = batch.countP (convertible isV2) := by
  induction batch using List.reverseRecOn with
  | nil => rfl
  | append_singleton batch event ih =>
    rw [requestOf_concat, List.countP_append, List.countP_singleton]
    by_cases conv : convertible isV2 event = true
    · rw [totalEventCount_add conv, ih, if_pos conv]
    · rw [add_of_not_convertible (eq_false_of_ne_true conv), ih, if_neg conv, Nat.add_zero]

theorem requestOf_filter (isV2 : Bool) (batch : List (SNTStoredEvent Details)) :
    requestOf isV2 (batch.filter (convertible isV2)) = requestOf isV2 batch := by
  induction batch using List.reverseRecOn with
  | nil => rfl
  | append_singleton batch event ih =>
    rw [List.filter_append, requestOf_concat]
    by_cases conv : convertible isV2 event = true
    · rw [List.filter_cons_of_pos conv, List.filter_nil, requestOf_concat, ih]
    · rw [List.filter_cons_of_neg conv, List.filter_nil, List.append_nil, ih,
        add_of_not_convertible (eq_false_of_ne_true conv)]

/-! ### The upload -/

/-- What an upload depends on besides the events: the sync state, the configuration, and the answer
    to each of its requests. -/
structure Session where
  isV2 : Bool
  syncType : SNTSyncType
  eventBatchSize : Nat
  enableCleanSyncEventUpload : Bool
  answers : Nat → Option (List String)

/-- The ids to be removed with the batch, the batch, the requests performed so far and what the
    daemon was told to remove. -/
structure Upload (Details : Type) where
  eventIds : Finset Nat := ∅
  request : EventUploadRequest Details := {}
  sent : List (EventUploadRequest Details) := []
  removed : List (Finset Nat) := []
  bundleBinaryRequests : Option (List String) := none
  success : Bool := true

def Session.performs (c : Session) : Bool :=
  c.syncType = .normal || c.enableCleanSyncEventUpload

def PerformRequest (c : Session) (eventsInBatch : Nat) (u : Upload Details) :
    Bool × Upload Details :=
  if eventsInBatch = 0 then (true, u)
  else if c.performs then
    let performed := { u with sent := u.sent ++ [u.request] }
    match c.answers u.sent.length with
    | none => (false, performed)
    | some [] => (true, performed)
    | some bundles => (true, { performed with bundleBinaryRequests := some bundles })
  else (true, u)

/-- The id is taken whether the event can be converted or not. -/
def track (c : Session) (u : Upload Details) (event : SNTStoredEvent Details) : Upload Details :=
  { u with
    eventIds := event.idx.elim u.eventIds (insert · u.eventIds)
    request := u.request.add c.isV2 event }

def databaseRemoveEventsWithIDs (u : Upload Details) : Upload Details :=
  { u with removed := u.removed ++ [u.eventIds] }

/-- The last index is that of the event which no other follows. -/
def enumerate (c : Session) : List (SNTStoredEvent Details) → Upload Details → Upload Details
  | [], u => u
  | event :: events, u =>
      let u := track c u event
      let totalEventCount := u.request.totalEventCount
      if c.eventBatchSize ≤ totalEventCount ∨ events = [] then
        match PerformRequest c totalEventCount u with
        | (false, u) => { u with success := false }
        | (true, u) =>
            enumerate c events
              { databaseRemoveEventsWithIDs u with eventIds := ∅, request := {} }
      else enumerate c events u

def uploadEvents (c : Session) (events : List (SNTStoredEvent Details)) : Upload Details :=
  let u := enumerate c events {}
  if u.success && decide (u.eventIds ≠ ∅) then databaseRemoveEventsWithIDs u else u

/-! ### The batches -/

def batches (c : Session) (events : List (SNTStoredEvent Details)) :
    List (List (SNTStoredEvent Details)) :=
  Batches.cut (convertible c.isV2) c.eventBatchSize [] events

def ids (batch : List (SNTStoredEvent Details)) : Finset Nat :=
  (batch.filterMap SNTStoredEvent.idx).toFinset

def groups (c : Session) (bs : List (List (SNTStoredEvent Details))) :
    List (List (SNTStoredEvent Details)) :=
  (bs.map (List.filter (convertible c.isV2))).filter (· ≠ [])

/-- The requests for batches; in a clean sync there may be none. -/
def requests (c : Session) (bs : List (List (SNTStoredEvent Details))) :
    List (EventUploadRequest Details) :=
  if c.performs then (groups c bs).map (requestOf c.isV2) else []

theorem groups_append (c : Session) (as bs : List (List (SNTStoredEvent Details))) :
    groups c (as ++ bs) = groups c as ++ groups c bs := by
  rw [groups, List.map_append, List.filter_append]
  rfl

theorem requests_append (c : Session) (as bs : List (List (SNTStoredEvent Details))) :
    requests c (as ++ bs) = requests c as ++ requests c bs := by
  unfold requests
  split
  · rw [groups_append, List.map_append]
  · rfl

theorem requests_nil (c : Session) :
    requests c ([] : List (List (SNTStoredEvent Details))) = [] := by
  unfold requests
  split
  · rfl
  · rfl

theorem requests_singleton (c : Session) (b : List (SNTStoredEvent Details)) :
    requests c [b] =
      if b.countP (convertible c.isV2) ≠ 0 ∧ c.performs = true then [requestOf c.isV2 b]
      else [] := by
  have group : groups c [b] =
      if b.countP (convertible c.isV2) ≠ 0 then [b.filter (convertible c.isV2)] else [] := by
    rw [groups, List.map_singleton, List.countP_eq_length_filter]
    cases b.filter (convertible c.isV2) with
    | nil => rfl
    | cons event events => rfl
  unfold requests
  rw [group]
  by_cases some_events : b.countP (convertible c.isV2) ≠ 0
  · rw [if_pos some_events, List.map_singleton, requestOf_filter]
    by_cases performs : c.performs = true
    · rw [if_pos performs, if_pos ⟨some_events, performs⟩]
    · rw [if_neg performs, if_neg fun both => performs both.2]
  · have not_both : ¬ (b.countP (convertible c.isV2) ≠ 0 ∧ c.performs = true) :=
      fun both => some_events both.1
    rw [if_neg some_events, if_neg not_both, List.map_nil, ite_self]

theorem ids_concat (batch : List (SNTStoredEvent Details)) (event : SNTStoredEvent Details) :
    ids (batch ++ [event]) = event.idx.elim (ids batch) (insert · (ids batch)) := by
  unfold ids
  rw [List.filterMap_append, List.filterMap_cons]
  cases event.idx with
  | none => rw [List.filterMap_nil, List.append_nil, Option.elim_none]
  | some id =>
    rw [List.filterMap_nil, List.toFinset_append, Option.elim_some, List.toFinset_cons,
      List.toFinset_nil, Finset.union_comm, Finset.insert_union, Finset.empty_union]

inductive Performed (c : Session) (b : List (SNTStoredEvent Details)) (u : Upload Details) :
    Bool × Upload Details → Prop
  | acknowledged (after : Upload Details) (sent : after.sent = u.sent ++ requests c [b])
      (answered : ∀ i < (requests c [b]).length, (c.answers (u.sent.length + i)).isSome = true)
      (removed : after.removed = u.removed) (eventIds : after.eventIds = u.eventIds)
      (success : after.success = u.success) : Performed c b u (true, after)
  | refused (after : Upload Details) (sent : after.sent = u.sent ++ requests c [b])
      (some_request : requests c [b] ≠ []) (unanswered : c.answers u.sent.length = none)
      (removed : after.removed = u.removed) : Performed c b u (false, after)

theorem performed_without {c : Session} {b : List (SNTStoredEvent Details)} (u : Upload Details)
    (without : requests c [b] = []) : Performed c b u (true, u) := by
  apply Performed.acknowledged u _ _ rfl rfl rfl
  · rw [without, List.append_nil]
  · rw [without]
    exact fun i impossible => absurd impossible (Nat.not_lt_zero i)

theorem performRequest_cases {c : Session} {b : List (SNTStoredEvent Details)}
    {u : Upload Details} (request : u.request = requestOf c.isV2 b) :
    Performed c b u (PerformRequest c u.request.totalEventCount u) := by
  have one := requests_singleton c b
  rw [request, totalEventCount_requestOf, PerformRequest]
  by_cases empty : b.countP (convertible c.isV2) = 0
  · rw [if_pos empty]
    rw [if_neg fun both => both.1 empty] at one
    exact performed_without u one
  rw [if_neg empty]
  by_cases performs : c.performs = true
  · rw [if_pos ⟨empty, performs⟩] at one
    rw [if_pos performs, request]
    have sent : u.sent ++ [requestOf c.isV2 b] = u.sent ++ requests c [b] := by rw [one]
    cases answer : c.answers u.sent.length with
    | none =>
      have some_request : requests c [b] ≠ [] := by
        rw [one]
        exact List.cons_ne_nil _ _
      exact .refused _ sent some_request answer rfl
    | some bundles =>
      have answered : ∀ i < (requests c [b]).length,
          (c.answers (u.sent.length + i)).isSome = true := by
        intro i below
        rw [one, List.length_singleton, Nat.lt_one_iff] at below
        rw [below, Nat.add_zero, answer]
        rfl
      cases bundles with
      | nil => exact .acknowledged _ sent answered rfl rfl rfl
      | cons bundle bundles => exact .acknowledged _ sent answered rfl rfl rfl
  · rw [if_neg fun both => performs both.2] at one
    rw [if_neg performs]
    exact performed_without u one

/-- How far the batches got: those done with, and the rest from the refused one on. -/
structure Progress (c : Session) (before after : Upload Details)
    (done rest : List (List (SNTStoredEvent Details))) : Prop where
  success : after.success = true ↔ rest = []
  removed : after.removed = before.removed ++ done.map ids
  sent : after.sent = before.sent ++ requests c (done ++ rest.take 1)
  answered : ∀ i < (requests c done).length, (c.answers (before.sent.length + i)).isSome = true
  refused : rest ≠ [] → requests c (rest.take 1) ≠ [] ∧
    c.answers (before.sent.length + (requests c done).length) = none

theorem Progress.start {c : Session} {u : Upload Details} (success : u.success = true) :
    Progress c u u [] [] where
  success := iff_of_true success rfl
  removed := by rw [List.map_nil, List.append_nil]
  sent := by rw [List.take_nil, List.append_nil, requests_nil, List.append_nil]
  answered := by
    rw [requests_nil]
    exact fun i impossible => absurd impossible (Nat.not_lt_zero i)
  refused := fun ne => absurd rfl ne

theorem Progress.of_eq {c : Session} {before middle after : Upload Details}
    {done rest : List (List (SNTStoredEvent Details))}
    (progress : Progress c middle after done rest) (sent : middle.sent = before.sent)
    (removed : middle.removed = before.removed) :
    Progress c before after done rest := by
  constructor
  · exact progress.success
  · rw [← removed]
    exact progress.removed
  · rw [← sent]
    exact progress.sent
  · rw [← sent]
    exact progress.answered
  · rw [← sent]
    exact progress.refused

theorem Progress.cons {c : Session} {before middle after : Upload Details}
    {b : List (SNTStoredEvent Details)} {done rest : List (List (SNTStoredEvent Details))}
    (removed : middle.removed = before.removed ++ [ids b])
    (sent : middle.sent = before.sent ++ requests c [b])
    (answered : ∀ i < (requests c [b]).length,
      (c.answers (before.sent.length + i)).isSome = true)
    (later : Progress c middle after done rest) : Progress c before after (b :: done) rest := by
  have first : requests c (b :: done) = requests c [b] ++ requests c done :=
    requests_append c [b] done
  have further : middle.sent.length = before.sent.length + (requests c [b]).length := by
    rw [sent, List.length_append]
  constructor
  · exact later.success
  · rw [later.removed, removed, List.append_assoc]
    rfl
  · rw [later.sent, sent, List.append_assoc, ← requests_append]
    rfl
  · intro i below
    rw [first, List.length_append] at below
    by_cases own : i < (requests c [b]).length
    · exact answered i own
    · have shifted := later.answered (i - (requests c [b]).length) (by omega)
      rw [further] at shifted
      rwa [Nat.add_assoc, Nat.add_sub_cancel' (Nat.le_of_not_lt own)] at shifted
  · intro ne
    obtain ⟨performed, none⟩ := later.refused ne
    refine ⟨performed, ?_⟩
    rw [first, List.length_append, ← Nat.add_assoc, ← further]
    exact none

theorem Progress.stop {c : Session} {before after : Upload Details}
    {b : List (SNTStoredEvent Details)} {later : List (List (SNTStoredEvent Details))}
    (success : after.success = false) (sent : after.sent = before.sent ++ requests c [b])
    (some_request : requests c [b] ≠ []) (unanswered : c.answers before.sent.length = none)
    (removed : after.removed = before.removed) : Progress c before after [] (b :: later) := by
  have one : (b :: later).take 1 = [b] := rfl
  constructor
  · rw [success]
    exact iff_of_false Bool.false_ne_true (List.cons_ne_nil b later)
  · rw [removed, List.map_nil, List.append_nil]
  · rw [one]
    exact sent
  · rw [requests_nil]
    exact fun i impossible => absurd impossible (Nat.not_lt_zero i)
  · intro _
    rw [one, requests_nil]
    exact ⟨some_request, unanswered⟩

theorem enumerate_progress (c : Session) (events batch : List (SNTStoredEvent Details))
    (u : Upload Details) (request : u.request = requestOf c.isV2 batch)
    (eventIds : u.eventIds = ids batch) (success : u.success = true) :
    ∃ done rest, Batches.cut (convertible c.isV2) c.eventBatchSize batch events = done ++ rest ∧
      Progress c u (enumerate c events u) done rest := by
  induction events generalizing batch u with
  | nil => exact ⟨[], [], rfl, .start success⟩
  | cons event events ih =>
    rw [enumerate]
    have tracked_request : (track c u event).request = requestOf c.isV2 (batch ++ [event]) := by
      rw [requestOf_concat, ← request]
      rfl
    have tracked_ids : (track c u event).eventIds = ids (batch ++ [event]) := by
      rw [ids_concat, ← eventIds]
      rfl
    have tracked_sent : (track c u event).sent = u.sent := rfl
    have tracked_removed : (track c u event).removed = u.removed := rfl
    have tracked_success : (track c u event).success = true := success
    generalize track c u event = tracked at *
    have total : tracked.request.totalEventCount =
        (batch ++ [event]).countP (convertible c.isV2) := by
      rw [tracked_request, totalEventCount_requestOf]
    by_cases full : c.eventBatchSize ≤ (batch ++ [event]).countP (convertible c.isV2) ∨ events = []
    · rw [Batches.cut_full full]
      simp only
      rw [total, if_pos full, ← total]
      have performed := performRequest_cases tracked_request
      revert performed
      generalize PerformRequest c tracked.request.totalEventCount tracked = outcome
      rintro (⟨after, sent, answered, removed, eventIds, success⟩ |
        ⟨after, sent, some_request, unanswered, removed⟩)
      · rw [tracked_sent] at sent answered
        obtain ⟨done, rest, parts, progress⟩ := ih [] { databaseRemoveEventsWithIDs after with
          eventIds := ∅, request := {} } rfl rfl (success.trans tracked_success)
        refine ⟨_ :: done, rest, congrArg _ parts, .cons ?_ ?_ answered progress⟩
        · simp only [databaseRemoveEventsWithIDs]
          rw [removed, tracked_removed, eventIds, tracked_ids]
        · exact sent
      · rw [tracked_sent] at sent unanswered
        exact ⟨[], _, rfl, .stop rfl sent some_request unanswered (removed.trans tracked_removed)⟩
    · rw [Batches.cut_more full]
      simp only
      rw [total, if_neg full]
      obtain ⟨done, rest, parts, progress⟩ :=
        ih (batch ++ [event]) tracked tracked_request tracked_ids tracked_success
      exact ⟨done, rest, parts, progress.of_eq tracked_sent tracked_removed⟩

theorem enumerate_eventIds (c : Session) (events : List (SNTStoredEvent Details))
    (u : Upload Details) (some_left : u.eventIds = ∅ ∨ events ≠ [])
    (success : (enumerate c events u).success = true) : (enumerate c events u).eventIds = ∅ := by
  induction events generalizing u with
  | nil =>
    rcases some_left with none | ne
    · exact none
    · exact absurd rfl ne
  | cons event events ih =>
    rw [enumerate] at success ⊢
    generalize track c u event = tracked at success ⊢
    simp only at success ⊢
    split at success
    next full =>
      rw [if_pos full]
      generalize PerformRequest c tracked.request.totalEventCount tracked = outcome at success ⊢
      obtain ⟨ok, after⟩ := outcome
      cases ok with
      | false => exact absurd success Bool.false_ne_true
      | true => exact ih _ (.inl rfl) success
    next more =>
      rw [if_neg more]
      exact ih tracked (.inr fun none => more (.inr none)) success

/-- Nothing is left for the removal at the end. -/
theorem uploadEvents_eq (c : Session) (events : List (SNTStoredEvent Details)) :
    uploadEvents c events = enumerate c events {} := by
  rw [uploadEvents]
  by_cases success : (enumerate c events {}).success = true
  · rw [enumerate_eventIds c events {} (.inl rfl) success, success]
    rfl
  · rw [eq_false_of_ne_true success, Bool.false_and, if_neg Bool.false_ne_true]

theorem uploadEvents_progress (c : Session) (events : List (SNTStoredEvent Details)) :
    ∃ done rest, batches c events = done ++ rest ∧
      Progress c {} (uploadEvents c events) done rest := by
  rw [uploadEvents_eq]
  exact enumerate_progress c events [] {} rfl rfl rfl

theorem uploadEvents_success_iff (c : Session) (events : List (SNTStoredEvent Details)) :
    (uploadEvents c events).success = true ↔
      ∀ i < (requests c (batches c events)).length, (c.answers i).isSome = true := by
  obtain ⟨done, rest, parts, progress⟩ := uploadEvents_progress c events
  rw [progress.success, parts, requests_append]
  have answered := progress.answered
  have refused := progress.refused
  simp only [List.length_nil, Nat.zero_add] at answered refused
  constructor
  · intro none
    rw [none, requests_nil, List.append_nil]
    exact answered
  · intro all
    cases rest with
    | nil => rfl
    | cons b later =>
      obtain ⟨performed, none⟩ := refused (List.cons_ne_nil b later)
      have among : requests c (b :: later) = requests c [b] ++ requests c later :=
        requests_append c [b] later
      have positive : 0 < (requests c [b]).length := List.length_pos_iff.mpr performed
      have some_answer := all (requests c done).length (by
        rw [among, List.length_append, List.length_append]
        omega)
      rw [none] at some_answer
      exact absurd some_answer Bool.false_ne_true

/-! ### The table -/

structure EventTable (Details : Type) where
  rows : List (SNTStoredEvent Details)
  indexed : ∀ event ∈ rows, event.idx.isSome = true
  distinct : (rows.map SNTStoredEvent.idx).Nodup

def deleted (ids : Finset Nat) (event : SNTStoredEvent Details) : Bool :=
  event.idx.any fun id => decide (id ∈ ids)

def EventTable.deleteEventsWithIds (table : EventTable Details) (ids : Finset Nat) :
    EventTable Details where
  rows := table.rows.filter fun event => !deleted ids event
  indexed event member := table.indexed event (List.mem_filter.mp member).1
  distinct := table.distinct.sublist (List.filter_sublist.map _)

def EventTable.after (table : EventTable Details) (u : Upload Details) : EventTable Details :=
  u.removed.foldl EventTable.deleteEventsWithIds table

/-- The events pending are uploaded; what comes of it is not looked at. -/
def sync (c : Session) (table : EventTable Details) : Bool × Upload Details × EventTable Details :=
  let u := if table.rows = [] then {} else uploadEvents c table.rows
  (true, u, table.after u)

theorem deleted_ids_iff {batch : List (SNTStoredEvent Details)} {event : SNTStoredEvent Details} :
    deleted (ids batch) event = true ↔ ∃ id, event.idx = some id ∧ some id ∈ batch.map (·.idx) := by
  rw [deleted, Option.any_eq_true]
  apply exists_congr
  intro id
  rw [decide_eq_true_iff, ids, List.mem_toFinset, List.mem_filterMap, List.mem_map]

theorem filter_deleted {batch later : List (SNTStoredEvent Details)}
    (indexed : ∀ event ∈ batch ++ later, event.idx.isSome = true)
    (distinct : ((batch ++ later).map SNTStoredEvent.idx).Nodup) :
    ((batch ++ later).filter fun event => !deleted (ids batch) event) = later := by
  rw [List.map_append, List.nodup_append] at distinct
  obtain ⟨-, -, apart⟩ := distinct
  rw [List.filter_append, List.filter_eq_nil_iff.mpr, List.nil_append, List.filter_eq_self.mpr]
  · intro event member
    rw [Bool.not_eq_true', ← Bool.not_eq_true, deleted_ids_iff]
    rintro ⟨id, own, other⟩
    exact apart _ other _ (List.mem_map_of_mem member) own.symm
  · intro event member
    obtain ⟨id, own⟩ := Option.isSome_iff_exists.mp (indexed event (List.mem_append_left _ member))
    rw [deleted_ids_iff.mpr ⟨id, own, own ▸ List.mem_map_of_mem member⟩]
    exact Bool.false_ne_true

theorem rows_after_batches (table : EventTable Details)
    (done : List (List (SNTStoredEvent Details))) (later : List (SNTStoredEvent Details))
    (parts : table.rows = done.flatten ++ later) :
    ((done.map ids).foldl EventTable.deleteEventsWithIds table).rows = later := by
  induction done generalizing table with
  | nil => exact parts
  | cons batch done ih =>
    rw [List.flatten_cons, List.append_assoc] at parts
    apply ih (table.deleteEventsWithIds (ids batch))
    have indexed := table.indexed
    have distinct := table.distinct
    rw [parts] at indexed distinct
    change (table.rows.filter fun event => !deleted (ids batch) event) = _
    rw [parts]
    exact filter_deleted indexed distinct

/-! ### What is sent and what is kept -/

theorem groups_flatten (c : Session) (bs : List (List (SNTStoredEvent Details))) :
    (groups c bs).flatten = bs.flatten.filter (convertible c.isV2) := by
  induction bs with
  | nil => rfl
  | cons b bs ih =>
    have first : groups c (b :: bs) = groups c [b] ++ groups c bs := groups_append c [b] bs
    have one : (groups c [b]).flatten = b.filter (convertible c.isV2) := by
      rw [groups, List.map_singleton]
      cases b.filter (convertible c.isV2) with
      | nil => rfl
      | cons event events => exact List.append_nil _
    rw [first, List.flatten_append, one, ih, List.flatten_cons, List.filter_append]

theorem groups_bounded {c : Session} (positive : 1 ≤ c.eventBatchSize)
    (events : List (SNTStoredEvent Details)) :
    ∀ group ∈ groups c (batches c events), group ≠ [] ∧ group.length ≤ c.eventBatchSize := by
  intro group member
  obtain ⟨mapped, some_events⟩ := List.mem_filter.mp member
  obtain ⟨b, cut, rfl⟩ := List.mem_map.mp mapped
  refine ⟨of_decide_eq_true some_events, ?_⟩
  rw [← List.countP_eq_length_filter]
  have room : ([] : List (SNTStoredEvent Details)).countP (convertible c.isV2) <
      c.eventBatchSize := positive
  exact Batches.countP_le_of_mem_cut positive room b cut

def Acknowledged (c : Session) (sent : List (List (SNTStoredEvent Details)))
    (event : SNTStoredEvent Details) : Prop :=
  ∃ i b, sent[i]? = some b ∧ (c.answers i).isSome = true ∧ event ∈ b

/-- No event is removed before the server has it. -/
def RemovesOnlyAcknowledged (c : Session) (table : EventTable Details) : Prop :=
  let after := uploadEvents c table.rows
  let stored := (table.after after).rows
  ∃ sent : List (List (SNTStoredEvent Details)),
    after.sent = sent.map (requestOf c.isV2) ∧
    sent.flatten <+: table.rows.filter (convertible c.isV2) ∧
    (∀ b ∈ sent, b.length ≤ c.eventBatchSize) ∧
    (∀ event ∈ table.rows,
      event ∉ stored ↔ Acknowledged c sent event ∨ convertible c.isV2 event = false) ∧
    (after.success = true → ∀ event ∈ table.rows,
      Acknowledged c sent event ∨ convertible c.isV2 event = false) ∧
    ∀ i b, sent[i]? = some b → c.answers i = none → ∀ event ∈ b,
      ∀ earlier later, table.rows = earlier ++ event :: later →
        ∀ kept ∈ event :: later, kept ∈ stored

/-- The events of the batches that are done with are removed, and only these; the others stay from
    the batch whose request failed on. Requests may be left out of a clean sync. -/
structure Delivers (c : Session) (table : EventTable Details)
    (done rest : List (List (SNTStoredEvent Details))) : Prop where
  rows : table.rows = done.flatten ++ rest.flatten
  sent : (uploadEvents c table.rows).sent =
    if c.performs then (groups c (done ++ rest.take 1)).map (requestOf c.isV2) else []
  convertible : (groups c (done ++ rest.take 1)).flatten <+:
    table.rows.filter (convertible c.isV2)
  bounded : ∀ group ∈ groups c (done ++ rest.take 1),
    group ≠ [] ∧ group.length ≤ c.eventBatchSize
  answered : c.performs = true → ∀ i < (groups c done).length, (c.answers i).isSome = true
  refused : rest ≠ [] → c.performs = true ∧ groups c (rest.take 1) ≠ [] ∧
    c.answers (groups c done).length = none
  stored : (table.after (uploadEvents c table.rows)).rows = rest.flatten
  success : (uploadEvents c table.rows).success = true ↔ rest = []

theorem uploadEvents_delivers (c : Session) (positive : 1 ≤ c.eventBatchSize)
    (table : EventTable Details) : ∃ done rest, Delivers c table done rest := by
  obtain ⟨done, rest, parts, progress⟩ := uploadEvents_progress c table.rows
  have rows : table.rows = done.flatten ++ rest.flatten := by
    rw [← List.flatten_append, ← parts]
    exact (Batches.flatten_cut_nil table.rows).symm
  have first : done ++ rest = (done ++ rest.take 1) ++ rest.drop 1 := by
    rw [List.append_assoc, List.take_append_drop]
  have among : groups c (done ++ rest) =
      groups c (done ++ rest.take 1) ++ groups c (rest.drop 1) := by
    rw [first, groups_append]
  refine ⟨done, rest, rows, progress.sent, ?_, ?_, ?_, ?_, ?_, progress.success⟩
  · rw [rows, ← List.flatten_append, ← groups_flatten, among, List.flatten_append]
    exact List.prefix_append _ _
  · intro group member
    apply groups_bounded positive table.rows group
    rw [parts, among]
    exact List.mem_append_left _ member
  · intro performs i below
    have answered := progress.answered i
    rw [requests, if_pos performs, List.length_map, List.length_nil, Nat.zero_add] at answered
    exact answered below
  · intro ne
    obtain ⟨performed, none⟩ := progress.refused ne
    unfold requests at performed none
    by_cases performs : c.performs = true
    · rw [if_pos performs] at performed none
      rw [List.length_map, List.length_nil, Nat.zero_add] at none
      exact ⟨performs, fun empty => performed (by rw [empty]; rfl), none⟩
    · rw [if_neg performs] at performed
      exact absurd rfl performed
  · rw [EventTable.after, progress.removed]
    exact rows_after_batches table done rest.flatten rows

end

/-- Two batches of one event each, the second of which fails. -/
theorem failed_batch_delivers : ∃ done rest, Delivers
    ⟨true, .normal, 1, false, fun i => if i = 1 then none else some []⟩
    (⟨[⟨some 1, .execution (.decided .blockUnknown) 0 ()⟩,
        ⟨some 2, .temporaryMonitorModeEnter ()⟩], by decide, by decide⟩ :
      EventTable Unit) done rest :=
  uploadEvents_delivers _ (by decide) _

/-- A clean sync removes an event that it has not sent. -/
theorem clean_sync_removes_unsent :
    ¬ RemovesOnlyAcknowledged ⟨true, .cleanAll, 50, false, fun _ => some []⟩
      (⟨[⟨some 1, .execution (.decided .blockUnknown) 0 ()⟩], by decide, by decide⟩ :
        EventTable Unit) := by
  rintro ⟨sent, requests, -, -, removed, -, -⟩
  have none : sent = [] := List.map_eq_nil_iff.mp requests.symm
  have gone := (removed _ (.head _)).mp (by decide)
  rcases gone with ⟨i, b, there, -⟩ | not_convertible
  · rw [none] at there
    cases there
  · exact absurd not_convertible (by decide)

end SantaEventUpload
