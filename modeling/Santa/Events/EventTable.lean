import Santa.Common.SantaCache
import Santa.Events.StoredEvents
import Santa.Library.Inserts
import Santa.Library.Runs

/-!
The table of events that wait for their upload. A list of events is checked, thinned
out by the back-off, archived and inserted in one transaction, which is committed
whatever its statements answer. A row is read by decoding its archive; one that cannot
be decoded is deleted. A database that works is assumed: a statement fails only on a
constraint.
-/
namespace SantaEventTable
open SantaStoredEvents

structure Row where
  idx : Nat
  uniqueid : String
  eventdata : Option NSObject

abbrev EventTable := Inserts Row Nat String Row.idx Row.uniqueid

def kUnactionableEventCacheTimeSeconds : Int := 60 * 60 * 4

structure SNTEventTable where
  table : EventTable
  storeBackoff : SantaCache String (Option Int)
  unactionableEventCacheTimeSeconds : Int

def hasLength (s : Option String) : Bool := s.any (· ≠ "")

/-- An event of another class is never valid, and not modelled. -/
def isValidStoredEvent (event : StoredEvent) : Bool :=
  match event with
  | .execution se => hasLength event.uniqueID && hasLength se.filePath && decide (se.decision ≠ 0)
  | .fileAccess se =>
      hasLength se.ruleVersion && hasLength se.ruleName && hasLength se.accessedPath &&
        hasLength (se.process.bind (·.filePath)) && hasLength event.uniqueID
  | .temporaryMonitorModeEnter se => se.uuid.isSome
  | .temporaryMonitorModeLeave se => se.uuid.isSome

namespace SNTEventTable

def new : SNTEventTable :=
  ⟨⟨[], List.nodup_nil, List.nodup_nil⟩, .new 2048, kUnactionableEventCacheTimeSeconds⟩

def backoffForPrimaryHash (s : SNTEventTable) (hash : Option String) (now : Int) :
    Bool × SNTEventTable :=
  let backoff := (s.storeBackoff.get (hash.getD "")).getD 0
  if now - backoff < s.unactionableEventCacheTimeSeconds then (true, s)
  else (false, { s with storeBackoff := (s.storeBackoff.set (hash.getD "") (some now) none).2 })

def suppressed (s : SNTEventTable) (event : StoredEvent) (now : Int) : Bool × SNTEventTable :=
  if event.unactionableEvent then s.backoffForPrimaryHash event.uniqueID now else (false, s)

/-- The events to store. Each comes with the time at which it is looked at; one of a class
    that the table does not know is none. -/
def keepEvents (s : SNTEventTable) :
    List (Option StoredEvent × Int) → List StoredEvent × SNTEventTable
  | [] => ([], s)
  | (none, _) :: events => keepEvents s events
  | (some event, now) :: events =>
      if !isValidStoredEvent event then keepEvents s events
      else
        let r := s.suppressed event now
        let rest := keepEvents r.2 events
        if r.1 then rest else (event :: rest.1, rest.2)

end SNTEventTable

/-- The events under their archives; of equal archives the last one stays. -/
def eventsData (kept : List StoredEvent) :
    KeyedRows NSObject (NSObject × StoredEvent) Prod.fst :=
  (kept.map fun event => (event.archivedData, event)).foldl KeyedRows.put .empty

/-- A unique id that is nil breaks a constraint of its column. -/
def executeUpdate (t : EventTable) (eventData : NSObject) (event : StoredEvent) :
    Bool × EventTable :=
  match event.uniqueID with
  | none => (false, t)
  | some uniqueid => t.insert ⟨event.idx, uniqueid, some eventData⟩

/-- The first statement that fails stops the enumeration. -/
def enumerateKeysAndObjects (success : Bool) (t : EventTable) :
    List (NSObject × StoredEvent) → Bool × EventTable
  | [] => (success, t)
  | (eventData, event) :: entries =>
      if (executeUpdate t eventData event).1 then
        enumerateKeysAndObjects true (executeUpdate t eventData event).2 entries
      else executeUpdate t eventData event

abbrev Order := List (NSObject × StoredEvent) → List (NSObject × StoredEvent)

/-- A dictionary is enumerated in an order of its own. -/
def addStoredEvents (order : Order) (s : SNTEventTable)
    (events : List (Option StoredEvent × Int)) : Bool × SNTEventTable :=
  let kept := s.keepEvents events
  let r := enumerateKeysAndObjects false s.table (order (eventsData kept.1).rows)
  (r.1, { kept.2 with table := r.2 })

def eventFromResultSet (rs : Row) : Option StoredEvent :=
  match rs.eventdata with
  | none => none
  | some eventData =>
      match StoredEvent.unarchivedObject eventData with
      | none => none
      | some event => if isValidStoredEvent event then some event else none

def deleteEventsWithIds (t : EventTable) (indexes : List Nat) : EventTable :=
  t.select fun row => decide (row.idx ∉ indexes)

def pendingEvents (t : EventTable) : List StoredEvent × EventTable :=
  let undecodable := t.rows.filter fun row => (eventFromResultSet row).isNone
  (t.rows.filterMap eventFromResultSet, deleteEventsWithIds t (undecodable.map Row.idx))

/-! ### Rows of events -/

def rowOf (event : StoredEvent) : Row :=
  ⟨event.idx, event.uniqueID.getD "", some event.archivedData⟩

theorem valid_uniqueID {event : StoredEvent} (valid : isValidStoredEvent event = true) :
    event.uniqueID = some (rowOf event).uniqueid := by
  cases event with
  | execution se =>
    have length : hasLength se.fileSHA256 = true := by
      simp only [isValidStoredEvent, Bool.and_eq_true] at valid
      exact valid.1.1
    show se.fileSHA256 = some (se.fileSHA256.getD "")
    cases hash : se.fileSHA256 with
    | none =>
      rw [hash] at length
      cases length
    | some hash => rfl
  | fileAccess se => rfl
  | temporaryMonitorModeEnter se => rfl
  | temporaryMonitorModeLeave se => rfl

theorem executeUpdate_eq {event : StoredEvent} (valid : isValidStoredEvent event = true)
    (t : EventTable) : executeUpdate t event.archivedData event = t.insert (rowOf event) := by
  rw [executeUpdate, valid_uniqueID valid]
  rfl

theorem eventFromResultSet_rowOf {event : StoredEvent}
    (valid : isValidStoredEvent event = true) :
    eventFromResultSet (rowOf event) =
      if event.permittedEntitlements then some event else none := by
  show (match StoredEvent.unarchivedObject event.archivedData with
    | none => none
    | some e => if isValidStoredEvent e then some e else none) = _
  rw [unarchivedObject_archivedData]
  by_cases permitted : event.permittedEntitlements = true
  · rw [if_pos permitted]
    exact if_pos valid
  · rw [if_neg permitted]

theorem keepEvents_valid {s : SNTEventTable} {events : List (Option StoredEvent × Int)}
    {event : StoredEvent} (member : event ∈ (s.keepEvents events).1) :
    isValidStoredEvent event = true := by
  induction events generalizing s with
  | nil => cases member
  | cons first events ih =>
    obtain ⟨e, now⟩ := first
    cases e with
    | none => exact ih member
    | some e =>
      rw [SNTEventTable.keepEvents] at member
      by_cases valid : isValidStoredEvent e = true
      · rw [valid, Bool.not_true, if_neg Bool.false_ne_true] at member
        by_cases left : (s.suppressed e now).1 = true
        · rw [if_pos left] at member
          exact ih member
        · rw [if_neg left] at member
          rcases List.mem_cons.mp member with head | tail
          · rw [head]
            exact valid
          · exact ih tail
      · rw [if_pos (by simpa using valid)] at member
        exact ih member

theorem get_eventsData (kept : List StoredEvent) (eventData : NSObject) :
    (eventsData kept).get eventData =
      (kept.map fun event => (event.archivedData, event)).reverse.find?
        fun entry => entry.1 = eventData := by
  rw [eventsData, KeyedRows.get_foldl_put]
  exact Option.or_none

theorem mem_eventsData {kept : List StoredEvent} {entry : NSObject × StoredEvent}
    (member : entry ∈ (eventsData kept).rows) :
    entry.1 = entry.2.archivedData ∧ entry.2 ∈ kept := by
  have found := KeyedRows.mem_get member
  rw [get_eventsData] at found
  have listed := List.mem_reverse.mp (List.mem_of_find?_eq_some found)
  obtain ⟨event, kept, rfl⟩ := List.mem_map.mp listed
  exact ⟨rfl, kept⟩

theorem eventsData_covers {kept : List StoredEvent} {event : StoredEvent} (member : event ∈ kept) :
    ∃ entry ∈ (eventsData kept).rows, entry.1 = event.archivedData := by
  cases found : (eventsData kept).get event.archivedData with
  | some entry => exact ⟨entry, KeyedRows.get_mem found, KeyedRows.get_key found⟩
  | none =>
    rw [get_eventsData, List.find?_eq_none] at found
    have listed : (event.archivedData, event) ∈
        (kept.map fun event => (event.archivedData, event)).reverse :=
      List.mem_reverse.mpr (List.mem_map.mpr ⟨event, member, rfl⟩)
    exact absurd (decide_eq_true rfl) (found _ listed)

theorem enumerate_eq {entries : List (NSObject × StoredEvent)}
    (archived : ∀ entry ∈ entries,
      entry.1 = entry.2.archivedData ∧ isValidStoredEvent entry.2 = true)
    (success : Bool) (t : EventTable) :
    enumerateKeysAndObjects success t entries =
      Inserts.insertAll success t (entries.map fun entry => rowOf entry.2) := by
  induction entries generalizing success t with
  | nil => rfl
  | cons entry entries ih =>
    obtain ⟨eventData, event⟩ := entry
    obtain ⟨data, valid⟩ := archived _ List.mem_cons_self
    dsimp only at data valid
    subst data
    rw [enumerateKeysAndObjects, List.map_cons, Inserts.insertAll, executeUpdate_eq valid,
      ih fun entry member => archived entry (List.mem_cons_of_mem _ member)]

/-! ### What a batch does -/

section Batch
variable (order : Order) (s : SNTEventTable) (events : List (Option StoredEvent × Int))

def Enumerated : Prop :=
  (order (eventsData (s.keepEvents events).1).rows).Perm (eventsData (s.keepEvents events).1).rows

def batch : List Row :=
  (order (eventsData (s.keepEvents events).1).rows).map fun entry => rowOf entry.2

/-- The rows whose unique id the table does not have; of one unique id the first. -/
def newRows : List Row :=
  Inserts.fresh Row.uniqueid (s.table.rows.map Row.uniqueid) (batch order s events)

/-- Either the first new row has an index of the table, or the new rows have indexes of their
    own and archives that can be decoded. -/
def Storable : Prop :=
  (∃ row later, newRows order s events = row :: later ∧ row.idx ∈ s.table.rows.map Row.idx) ∨
    ((s.table.rows ++ newRows order s events).map Row.idx).Nodup ∧
      ∀ event ∈ (s.keepEvents events).1, rowOf event ∈ newRows order s events →
        event.permittedEntitlements = true

/-- The answer tells whether every event is represented, a refusal leaves the table as it was,
    and what was stored is read back and survives a look at the pending events. -/
structure Survives (r : Bool × SNTEventTable) : Prop where
  answer : r.1 = true ↔ ∀ event ∈ (s.keepEvents events).1,
    ∃ row ∈ r.2.table.rows, event.uniqueID = some row.uniqueid
  unchanged : r.1 = false → r.2.table.rows = s.table.rows
  readable : ∀ row ∈ r.2.table.rows, row ∉ s.table.rows →
    ∃ event ∈ (s.keepEvents events).1, rowOf event = row ∧ eventFromResultSet row = some event
  pending : ∀ row ∈ r.2.table.rows, row ∉ s.table.rows →
    ∀ later : EventTable, row ∈ later.rows → row ∈ (pendingEvents later).2.rows

variable {order s events}

theorem mem_batch (enumerated : Enumerated order s events) {row : Row}
    (member : row ∈ batch order s events) :
    ∃ event ∈ (s.keepEvents events).1, rowOf event = row := by
  obtain ⟨entry, listed, same⟩ := List.mem_map.mp member
  exact ⟨entry.2, (mem_eventsData (enumerated.mem_iff.mp listed)).2, same⟩

theorem batch_covers (enumerated : Enumerated order s events) {event : StoredEvent}
    (member : event ∈ (s.keepEvents events).1) :
    ∃ row ∈ batch order s events, event.uniqueID = some row.uniqueid := by
  obtain ⟨entry, listed, same⟩ := eventsData_covers member
  obtain ⟨archived, kept⟩ := mem_eventsData listed
  refine ⟨rowOf entry.2, List.mem_map.mpr ⟨entry, enumerated.mem_iff.mpr listed, rfl⟩, ?_⟩
  rw [← valid_uniqueID (keepEvents_valid kept)]
  exact uniqueID_of_archivedData (same.symm.trans archived)

theorem addStoredEvents_eq (enumerated : Enumerated order s events) :
    ((addStoredEvents order s events).1, (addStoredEvents order s events).2.table) =
      Inserts.insertAll false s.table (batch order s events) := by
  refine enumerate_eq ?_ false s.table
  intro entry listed
  obtain ⟨archived, kept⟩ := mem_eventsData (enumerated.mem_iff.mp listed)
  exact ⟨archived, keepEvents_valid kept⟩

theorem addStoredEvents_ends (enumerated : Enumerated order s events)
    (given : (s.keepEvents events).1 ≠ []) :
    Inserts.Ends s.table (batch order s events)
      ((addStoredEvents order s events).1, (addStoredEvents order s events).2.table) := by
  rw [addStoredEvents_eq enumerated]
  refine Inserts.insertAll_ends s.table _ ?_
  intro empty
  obtain ⟨event, member⟩ := List.exists_mem_of_ne_nil _ given
  obtain ⟨row, listed, _⟩ := batch_covers enumerated member
  rw [empty] at listed
  cases listed

theorem mem_pendingEvents {t : EventTable} {row : Row} (member : row ∈ t.rows)
    (reads : (eventFromResultSet row).isSome = true) : row ∈ (pendingEvents t).2.rows := by
  refine List.mem_filter.mpr ⟨member, decide_eq_true ?_⟩
  intro deleted
  obtain ⟨other, undecodable, same⟩ := List.mem_map.mp deleted
  obtain ⟨listed, fails⟩ := List.mem_filter.mp undecodable
  rw [List.inj_on_of_nodup_map t.primaries listed member same, Option.isNone_iff_eq_none] at fails
  rw [fails] at reads
  cases reads

theorem answer_iff (enumerated : Enumerated order s events) {r : Bool × EventTable}
    (ends : Inserts.Ends s.table (batch order s events) r) :
    r.1 = true ↔ ∀ event ∈ (s.keepEvents events).1,
      ∃ row ∈ r.2.rows, event.uniqueID = some row.uniqueid := by
  rw [Inserts.success_iff ends]
  constructor
  · intro all event member
    obtain ⟨row, listed, same⟩ := batch_covers enumerated member
    obtain ⟨there, member, equal⟩ := List.mem_map.mp (all row listed)
    exact ⟨there, member, same.trans (congrArg some equal.symm)⟩
  · intro all row listed
    obtain ⟨event, member, rfl⟩ := mem_batch enumerated listed
    obtain ⟨there, present, same⟩ := all event member
    rw [valid_uniqueID (keepEvents_valid member)] at same
    exact List.mem_map.mpr ⟨there, present, (Option.some.inj same).symm⟩

/-- Stored events survive exactly when no row of the batch but its first new one clashes, and
    nothing in it is left out by the decoder. -/
theorem survives_iff (enumerated : Enumerated order s events)
    (given : (s.keepEvents events).1 ≠ []) :
    Survives s events (addStoredEvents order s events) ↔ Storable order s events := by
  have ends := addStoredEvents_ends enumerated given
  have answer := answer_iff enumerated ends
  generalize addStoredEvents order s events = r at ends answer ⊢
  constructor
  · intro survives
    rcases (Inserts.unchanged_iff ends).mp survives.unchanged with clash | distinct
    · exact .inl clash
    · refine .inr ⟨distinct, ?_⟩
      intro event member new
      have rows : r.2.table.rows = s.table.rows ++ newRows order s events :=
        Inserts.inserted_of_nodup ends distinct
      have added : rowOf event ∉ s.table.rows := fun old =>
        Inserts.fresh_new s.table.uniques new (List.mem_map_of_mem old)
      obtain ⟨_, _, _, reads⟩ :=
        survives.readable (rowOf event) (rows ▸ List.mem_append_right _ new) added
      rw [eventFromResultSet_rowOf (keepEvents_valid member)] at reads
      by_contra forbidden
      rw [if_neg forbidden] at reads
      cases reads
  · intro storable
    have unchanged : r.1 = false → r.2.table.rows = s.table.rows :=
      (Inserts.unchanged_iff ends).mpr (storable.imp_right And.left)
    have readable : ∀ row ∈ r.2.table.rows, row ∉ s.table.rows →
        ∃ event ∈ (s.keepEvents events).1,
          rowOf event = row ∧ eventFromResultSet row = some event := by
      intro row member new
      rcases storable with ⟨first, later, split, old⟩ | ⟨distinct, permitted⟩
      · have same : r.2.table.rows = s.table.rows := Inserts.unchanged_of_clash ends split old
        rw [same] at member
        exact absurd member new
      · have rows : r.2.table.rows = s.table.rows ++ newRows order s events :=
          Inserts.inserted_of_nodup ends distinct
        rw [rows] at member
        have fresh := (List.mem_append.mp member).resolve_left new
        obtain ⟨event, kept, rfl⟩ := mem_batch enumerated (Inserts.fresh_mem fresh)
        refine ⟨event, kept, rfl, ?_⟩
        rw [eventFromResultSet_rowOf (keepEvents_valid kept), if_pos (permitted event kept fresh)]
    refine ⟨answer, unchanged, readable, ?_⟩
    intro row member new later listed
    obtain ⟨event, _, _, reads⟩ := readable row member new
    exact mem_pendingEvents listed (reads ▸ rfl)

end Batch

def bundleBinary (idx : Nat) (hash : String) : StoredEvent :=
  .execution
    { idx
      occurrenceDate := 0
      fileSHA256 := some hash
      filePath := some "/Applications/Notes.app/Contents/MacOS/Notes"
      decision := SNTEventStateBlockBinary }

def distinctBinaries : List (Option StoredEvent × Int) :=
  [(some (bundleBinary 1 "aa"), 0), (some (bundleBinary 2 "bb"), 0)]

theorem distinct_binaries_survive :
    Survives .new distinctBinaries (addStoredEvents id .new distinctBinaries) := by
  have given : (SNTEventTable.new.keepEvents distinctBinaries).1 ≠ [] := by decide +kernel
  have indexes : ((SNTEventTable.new.table.rows ++ newRows id .new distinctBinaries).map
      Row.idx).Nodup := by decide +kernel
  have permitted : ∀ event ∈ (SNTEventTable.new.keepEvents distinctBinaries).1,
      event.permittedEntitlements = true := by decide +kernel
  have enumerated : Enumerated id .new distinctBinaries := List.Perm.refl _
  exact (survives_iff enumerated given).mpr
    (.inr ⟨indexes, fun event member _ => permitted event member⟩)

def clashingBinaries : List (Option StoredEvent × Int) :=
  [(some (bundleBinary 5 "aa"), 0), (some (bundleBinary 5 "bb"), 0)]

/-- The second row fails, and the first one stays. -/
theorem clashing_binaries_half_stored :
    ¬ Survives .new clashingBinaries (addStoredEvents id .new clashingBinaries) := by
  intro survives
  have refused : (addStoredEvents id .new clashingBinaries).1 = false := by decide +kernel
  have same := congrArg List.length (survives.unchanged refused)
  have stored : (addStoredEvents id .new clashingBinaries).2.table.rows.length = 1 := by
    decide +kernel
  rw [stored] at same
  exact absurd same (by decide)

/-- A date is a property list too, but the row of an event with one cannot be read. -/
example : eventFromResultSet (rowOf (.execution
    { idx := 1
      occurrenceDate := 0
      fileSHA256 := some "aa"
      filePath := some "/bin/ls"
      decision := SNTEventStateBlockBinary
      entitlements := some [("com.example.expires", nsDate 0)] })) = none := by rfl

/-! ### Runs -/

section Operations
variable (order : Order)

inductive Operation where
  | add (events : List (Option StoredEvent × Int))
  | pending
  | delete (indexes : List Nat)

def step (s : SNTEventTable) : Operation → Option SNTEventTable
  | .add events => some (addStoredEvents order s events).2
  | .pending => some { s with table := (pendingEvents s.table).2 }
  | .delete indexes => some { s with table := deleteEventsWithIds s.table indexes }

def Adds (s : SNTEventTable) : Operation → Prop
  | .add events => Storable order s events
  | .pending => True
  | .delete _ => True

def Complete (s : SNTEventTable) : Prop :=
  ∀ row ∈ s.table.rows, (eventFromResultSet row).isSome = true

variable {order}

theorem addStoredEvents_nothing (orders : ∀ entries, (order entries).Perm entries)
    {s : SNTEventTable} {events : List (Option StoredEvent × Int)}
    (nothing : (s.keepEvents events).1 = []) :
    (addStoredEvents order s events).2.table = s.table := by
  have empty : order (eventsData (s.keepEvents events).1).rows = [] := by
    rw [nothing]
    exact (orders _).eq_nil
  show (enumerateKeysAndObjects false s.table (order (eventsData (s.keepEvents events).1).rows)).2
    = s.table
  rw [empty]
  rfl

theorem complete_step (orders : ∀ entries, (order entries).Perm entries) {s t : SNTEventTable}
    {op : Operation} (complete : Complete s) (adds : Adds order s op)
    (h : step order s op = some t) : Complete t := by
  cases op with
  | add events =>
    cases h
    intro row member
    by_cases nothing : (s.keepEvents events).1 = []
    · rw [addStoredEvents_nothing orders nothing] at member
      exact complete row member
    · by_cases old : row ∈ s.table.rows
      · exact complete row old
      · have survives := (survives_iff (orders _) nothing).mpr adds
        obtain ⟨event, _, _, reads⟩ := survives.readable row member old
        rw [reads]
        rfl
  | pending =>
    cases h
    exact fun row member => complete row (List.mem_filter.mp member).1
  | delete indexes =>
    cases h
    exact fun row member => complete row (List.mem_filter.mp member).1

theorem complete_pending {s : SNTEventTable} (complete : Complete s) :
    (pendingEvents s.table).2.rows = s.table.rows :=
  List.filter_eq_self.mpr fun row member =>
    (List.mem_filter.mp (mem_pendingEvents member (complete row member))).2

/-- As long as what is added can be stored, a look at the pending events deletes nothing. -/
theorem pending_complete (orders : ∀ entries, (order entries).Perm entries) {s : SNTEventTable}
    {ops : List Operation} (complete : Complete s)
    (adds : Runs.Meets (step order) (Adds order) s ops) :
    Runs.Always (step order)
      (fun s => (pendingEvents s.table).2.rows = s.table.rows) s ops :=
  Runs.always_mono (fun _ => complete_pending)
    (Runs.always_of_meets (fun _ _ _ => complete_step orders) complete adds)

end Operations

end SantaEventTable
