import Santa.Events.DropCounts
import Santa.FileAccess.FAAPolicyProcessor
import Santa.Library.Tallies

/-!
The counts that are exported. Events are counted in caches under what they are; an export
writes the caches to the metrics under their names, empties them, and sends the metrics.
Two decisions of file access have one name, and a policy's name ends at its first null.
A value without a name raises an exception. The reading of a string is a parameter.
-/
namespace SantaMetricCounts
open Tallies
open SantaMetrics (Processor EventType processorToString eventTypeToString lookup_inj)
open SantaFAA (FileAccessPolicyDecision)

instance instAddCommMonoidInt64 : AddCommMonoid Int64 where
  add_assoc := Int64.add_assoc
  zero_add := Int64.zero_add
  add_zero := Int64.add_zero
  add_comm := Int64.add_comm
  nsmul := nsmulRec

inductive EventDisposition where
  | processed
  | dropped
  deriving DecidableEq, Repr

inductive FileAccessMetricStatus where
  | ok
  | blockedUser
  deriving DecidableEq, Repr

def eventDispositionToString : EventDisposition → String
  | .dropped => "Dropped"
  | .processed => "Processed"

def fileAccessMetricStatusToString : FileAccessMetricStatus → String
  | .ok => "OK"
  | .blockedUser => "BLOCKED_USER"

def fileAccessPolicyDecisionToString : FileAccessPolicyDecision → Option String
  | .denied => some "Denied"
  | .deniedInvalidSignature => some "Denied"
  | .allowedAuditOnly => some "AllowedAuditOnly"
  | _ => none

abbrev EventCountTuple := Processor × EventType × EventDisposition
abbrev EventTimesTuple := Processor × EventType

structure FileAccessEventCountTuple where
  policyVersion : List UInt8
  policyName : List UInt8
  status : FileAccessMetricStatus
  eventType : EventType
  decision : FileAccessPolicyDecision
  deriving DecidableEq, Repr

structure SNTMetricSet where
  eventProcessingTimes : Table (List String) Int64
  eventCounts : Table (List String) Int64
  rateLimitCounts : Table (List String) Int64
  faaEventCounts : Table (List String) Int64

structure Metrics where
  metricSet : SNTMetricSet
  eventCountsCache : Table EventCountTuple Int64
  eventTimesCache : Table EventTimesTuple Int64
  rateLimitCountsCache : Int64
  faaEventCountsCache : Table FileAccessEventCountTuple Int64

def Metrics.new : Metrics := ⟨⟨[], [], [], []⟩, [], [], 0, []⟩

def kFileAccessMetricsAccessType : String := "access"

def eventCountNames (key : EventCountTuple) : Option (List String) := do
  let processorName ← processorToString key.1
  let eventName ← eventTypeToString key.2.1
  some [processorName, eventName, eventDispositionToString key.2.2]

def eventTimesNames (key : EventTimesTuple) : Option (List String) := do
  let processorName ← processorToString key.1
  let eventName ← eventTypeToString key.2
  some [processorName, eventName]

section counting
variable (stringWithUTF8String : List UInt8 → Option String)

/-- A string that is given by a pointer to its bytes ends at the first null. -/
def stringOf (bytes : List UInt8) : Option String := stringWithUTF8String (bytes.takeWhile (· ≠ 0))

def faaEventCountNames (key : FileAccessEventCountTuple) : Option (List String) := do
  let policyVersion ← stringOf stringWithUTF8String key.policyVersion
  let policyName ← stringOf stringWithUTF8String key.policyName
  let eventName ← eventTypeToString key.eventType
  let status := fileAccessMetricStatusToString key.status
  let decision ← fileAccessPolicyDecisionToString key.decision
  some [policyVersion, kFileAccessMetricsAccessType, policyName, status, eventName, decision]

/-- The block on the queue of the events; the count of limits is exchanged by an atomic step. -/
def flushMetrics (m : Metrics) : Option Metrics := do
  let eventCounts ← writeOut eventCountNames Table.add m.eventCountsCache m.metricSet.eventCounts
  let eventProcessingTimes ←
    writeOut eventTimesNames Table.put m.eventTimesCache m.metricSet.eventProcessingTimes
  let rateLimitCounts := m.metricSet.rateLimitCounts.add [] m.rateLimitCountsCache
  let faaEventCounts ← writeOut (faaEventCountNames stringWithUTF8String) Table.add
    m.faaEventCountsCache m.metricSet.faaEventCounts
  some ⟨⟨eventProcessingTimes, eventCounts, rateLimitCounts, faaEventCounts⟩, [], [], 0, []⟩

def setEventMetrics (m : Metrics) (processor : Processor) (eventDisposition : EventDisposition)
    (nanos : Int64) (eventType : EventType) : Metrics :=
  { m with
    eventCountsCache := m.eventCountsCache.add (processor, eventType, eventDisposition) 1
    eventTimesCache := m.eventTimesCache.put (processor, eventType) nanos }

def addRateLimitingMetrics (m : Metrics) (eventsRateLimitedCount : Int64) : Metrics :=
  { m with rateLimitCountsCache := m.rateLimitCountsCache + eventsRateLimitedCount }

def setFileAccessEventMetrics (m : Metrics) (key : FileAccessEventCountTuple) : Metrics :=
  { m with faaEventCountsCache := m.faaEventCountsCache.add key 1 }

inductive Call where
  | setEventMetrics (processor : Processor) (eventDisposition : EventDisposition) (nanos : Int64)
      (eventType : EventType)
  | addRateLimitingMetrics (eventsRateLimitedCount : Int64)
  | setFileAccessEventMetrics (key : FileAccessEventCountTuple)
  | exportMetrics
  deriving DecidableEq, Repr

structure Service where
  metrics : Metrics
  calls : List Call
  sent : List (SNTMetricSet × List Call)

def Service.start : Service := ⟨.new, [], []⟩

def step (s : Service) (call : Call) : Option Service :=
  match call with
  | .setEventMetrics processor disposition nanos eventType => some { s with
      metrics := setEventMetrics s.metrics processor disposition nanos eventType
      calls := s.calls ++ [call] }
  | .addRateLimitingMetrics count => some { s with
      metrics := addRateLimitingMetrics s.metrics count
      calls := s.calls ++ [call] }
  | .setFileAccessEventMetrics key => some { s with
      metrics := setFileAccessEventMetrics s.metrics key
      calls := s.calls ++ [call] }
  | .exportMetrics => (flushMetrics stringWithUTF8String s.metrics).map fun metrics =>
      ⟨metrics, s.calls ++ [call], s.sent ++ [(metrics.metricSet, s.calls)]⟩

/-! ### What an export is to say -/

def Call.eventNames : Call → Option (List String)
  | .setEventMetrics processor disposition _ eventType =>
      eventCountNames (processor, eventType, disposition)
  | _ => none

def Call.faaNames : Call → Option (List String)
  | .setFileAccessEventMetrics key => faaEventCountNames stringWithUTF8String key
  | _ => none

def Call.time (names : List String) : Call → Option Int64
  | .setEventMetrics processor _ nanos eventType =>
      if eventTimesNames (processor, eventType) = some names then some nanos else none
  | _ => none

def Call.limited : Call → Int64
  | .addRateLimitingMetrics count => count
  | _ => 0

structure Reports (calls : List Call) (set : SNTMetricSet) : Prop where
  events : ∀ names, set.eventCounts.total names =
    Int64.ofNat (calls.countP fun call => call.eventNames = some names)
  times : ∀ names, set.eventProcessingTimes.get names = calls.reverse.findSome? (Call.time names)
  limits : set.rateLimitCounts.total [] = (calls.map Call.limited).sum
  faaEvents : ∀ names, set.faaEventCounts.total names =
    Int64.ofNat (calls.countP fun call => call.faaNames stringWithUTF8String = some names)

/-! ### The invariant -/

theorem eventTimesNames_apart : LabelledApart eventTimesNames := by
  have processors : (SantaMetrics.processorNames.map Prod.snd).Nodup := by decide +kernel
  have eventTypes : (SantaMetrics.eventTypeNames.map Prod.snd).Nodup := by decide +kernel
  intro k k' names first second
  obtain ⟨processor, hp, rest⟩ := Option.bind_eq_some_iff.mp first
  obtain ⟨eventType, he, same⟩ := Option.bind_eq_some_iff.mp rest
  obtain ⟨processor', hp', rest'⟩ := Option.bind_eq_some_iff.mp second
  obtain ⟨eventType', he', same'⟩ := Option.bind_eq_some_iff.mp rest'
  cases same
  cases same'
  exact Prod.ext (lookup_inj processors hp hp') (lookup_inj eventTypes he he')

structure Counted (s : Service) : Prop where
  events : ∀ names, s.metrics.metricSet.eventCounts.total names +
      pending eventCountNames s.metrics.eventCountsCache names =
    Int64.ofNat (s.calls.countP fun call => call.eventNames = some names)
  times : ∀ names, latest eventTimesNames s.metrics.eventTimesCache
      s.metrics.metricSet.eventProcessingTimes names =
    s.calls.reverse.findSome? (Call.time names)
  limits : s.metrics.metricSet.rateLimitCounts.total [] + s.metrics.rateLimitCountsCache =
    (s.calls.map Call.limited).sum
  faaEvents : ∀ names, s.metrics.metricSet.faaEventCounts.total names +
      pending (faaEventCountNames stringWithUTF8String) s.metrics.faaEventCountsCache names =
    Int64.ofNat (s.calls.countP fun call => call.faaNames stringWithUTF8String = some names)
  unique : (s.metrics.eventTimesCache.map Prod.fst).Nodup
  reports : ∀ e ∈ s.sent, Reports stringWithUTF8String e.2 e.1

theorem count_call (calls : List Call) (call : Call) (p : Call → Prop) [DecidablePred p] :
    Int64.ofNat ((calls ++ [call]).countP p) =
      Int64.ofNat (calls.countP p) + if p call then 1 else 0 := by
  rw [List.countP_append, Int64.ofNat_add]
  by_cases counts : p call
  · simp [counts]
  · simp [counts]

theorem flushMetrics_counted {s : Service} {m : Metrics}
    (counted : Counted stringWithUTF8String s)
    (flushed : flushMetrics stringWithUTF8String s.metrics = some m) :
    Reports stringWithUTF8String s.calls m.metricSet ∧
      m = { Metrics.new with metricSet := m.metricSet } := by
  obtain ⟨eventCounts, events, rest⟩ := Option.bind_eq_some_iff.mp flushed
  obtain ⟨eventProcessingTimes, times, rest⟩ := Option.bind_eq_some_iff.mp rest
  obtain ⟨faaEventCounts, faaEvents, same⟩ := Option.bind_eq_some_iff.mp rest
  cases same
  refine ⟨⟨fun names => ?_, fun names => ?_, ?_, fun names => ?_⟩, rfl⟩
  · rw [writeOut_total events, counted.events]
  · rw [writeOut_latest eventTimesNames_apart counted.unique times, counted.times]
  · rw [total_add, if_pos rfl, counted.limits]
  · rw [writeOut_total faaEvents, counted.faaEvents]

theorem step_counted (s : Service) (call : Call) (t : Service)
    (counted : Counted stringWithUTF8String s) (h : step stringWithUTF8String s call = some t) :
    Counted stringWithUTF8String t := by
  cases call with
  | setEventMetrics processor disposition nanos eventType =>
    rw [← Option.some.inj h]
    refine ⟨fun names => ?_, fun names => ?_, ?_, fun names => ?_, ?_, counted.reports⟩
    · rw [count_call, ← counted.events]
      simp only [setEventMetrics, pending_add, Call.eventNames, add_assoc]
      congr
    · simp only [setEventMetrics, latest_put eventTimesNames_apart, counted.times,
        List.reverse_append, List.reverse_singleton, List.singleton_append, List.findSome?_cons,
        Call.time]
      split
      · simp
      · simp
    · simpa [setEventMetrics, Call.limited] using counted.limits
    · rw [count_call]
      simpa [setEventMetrics, Call.faaNames] using counted.faaEvents names
    · exact alter_nodup counted.unique _ _
  | addRateLimitingMetrics count =>
    rw [← Option.some.inj h]
    refine ⟨fun names => ?_, fun names => ?_, ?_, fun names => ?_, counted.unique,
      counted.reports⟩
    · rw [count_call]
      simpa [addRateLimitingMetrics, Call.eventNames] using counted.events names
    · simpa [addRateLimitingMetrics, List.findSome?_cons, Call.time] using counted.times names
    · simp only [addRateLimitingMetrics, List.map_append, List.sum_append, ← counted.limits,
        List.map_cons, List.map_nil, List.sum_singleton, Call.limited, add_assoc]
    · rw [count_call]
      simpa [addRateLimitingMetrics, Call.faaNames] using counted.faaEvents names
  | setFileAccessEventMetrics key =>
    rw [← Option.some.inj h]
    refine ⟨fun names => ?_, fun names => ?_, ?_, fun names => ?_, counted.unique,
      counted.reports⟩
    · rw [count_call]
      simpa [setFileAccessEventMetrics, Call.eventNames] using counted.events names
    · simpa [setFileAccessEventMetrics, List.findSome?_cons, Call.time] using counted.times names
    · simpa [setFileAccessEventMetrics, Call.limited] using counted.limits
    · rw [count_call, ← counted.faaEvents]
      simp only [setFileAccessEventMetrics, pending_add, Call.faaNames, add_assoc]
      congr
  | exportMetrics =>
    obtain ⟨m, flushed, same⟩ := Option.map_eq_some_iff.mp h
    obtain ⟨reports, empty⟩ := flushMetrics_counted stringWithUTF8String counted flushed
    rw [← same, empty]
    refine ⟨fun names => ?_, fun names => ?_, ?_, fun names => ?_, .nil, fun e member => ?_⟩
    · rw [count_call]
      simpa [Metrics.new, pending, Call.eventNames] using reports.events names
    · simpa [Metrics.new, latest, List.findSome?_cons, Call.time] using reports.times names
    · simpa [Metrics.new, Call.limited] using reports.limits
    · rw [count_call]
      simpa [Metrics.new, pending, Call.faaNames] using reports.faaEvents names
    · rcases List.mem_append.mp member with before | now
      · exact counted.reports e before
      · rw [List.mem_singleton.mp now]
        exact reports

theorem start_counted : Counted stringWithUTF8String .start := by
  refine ⟨fun _ => ?_, fun _ => ?_, ?_, fun _ => ?_, .nil,
    fun _ none => absurd none List.not_mem_nil⟩
  · simp [Service.start, Metrics.new, Table.total, Table.get, pending]
  · simp [Service.start, Metrics.new, latest, Table.get]
  · simp [Service.start, Metrics.new, Table.total, Table.get]
  · simp [Service.start, Metrics.new, Table.total, Table.get, pending]

/-- However the calls and the exports come, every export counts each event before it once, and
    has the last time of each kind. -/
theorem exports_exact (calls : List Call) :
    Runs.Always (step stringWithUTF8String)
      (fun s => ∀ e ∈ s.sent, Reports stringWithUTF8String e.2 e.1) .start calls :=
  Runs.always_mono (fun _ counted => counted.reports)
    (Runs.always_of_keep (Counted stringWithUTF8String) (step_counted stringWithUTF8String)
      (start_counted stringWithUTF8String) calls)

end counting
end SantaMetricCounts
