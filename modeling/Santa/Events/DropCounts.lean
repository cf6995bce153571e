import Santa.Library.MachineWords
import Santa.Library.Runs
import Mathlib.Data.List.Nodup

/-!
Dropped events. For each processor and event type the metrics keep the next sequence number
and the drops that are still to be reported; the global sequence numbers of a processor are
kept under the event type that no message has. Drops are signed numbers of 64 bits.
-/
namespace SantaMetrics
open Runs

inductive Processor where
  | unknown | authorizer | deviceManager | recorder | tamperResistance
  | dataFileAccessAuthorizer | processFileAccessAuthorizer
  deriving DecidableEq, Repr

inductive EventType where
  | authClone | authCopyfile | authCreate | authExchangedata | authExec | authKextload | authLink
  | authMount | authOpen | authRemount | authRename | authSignal | authProcSuspendResume
  | authTruncate | authUnlink | notifyClone | notifyClose | notifyCopyfile | notifyCsInvalidated
  | notifyExchangedata | notifyExec | notifyExit | notifyFork | notifyLink | notifyRename
  | notifyUnlink | notifyUnmount | notifyAuthentication | notifyLoginLogin | notifyLoginLogout
  | notifyLwSessionLogin | notifyLwSessionLogout | notifyLwSessionLock | notifyLwSessionUnlock
  | notifyScreensharingAttach | notifyScreensharingDetach | notifyOpensshLogin
  | notifyOpensshLogout | notifyBtmLaunchItemAdd | notifyBtmLaunchItemRemove
  | notifyXpMalwareDetected | notifyXpMalwareRemediated | notifyGatekeeperUserOverride
  | notifyTccModify
  | last
  | other (type : Nat)
  deriving DecidableEq, Repr

def processorNames : List (Processor × String) :=
  [(.authorizer, "Authorizer"), (.deviceManager, "DeviceManager"), (.recorder, "Recorder"),
   (.tamperResistance, "TamperResistance"),
   (.dataFileAccessAuthorizer, "DataFileAccessAuthorizer"),
   (.processFileAccessAuthorizer, "ProcessFileAccessAuthorizer")]

def eventTypeNames : List (EventType × String) :=
  [(.authClone, "AuthClone"), (.authCopyfile, "AuthCopyfile"), (.authCreate, "AuthCreate"),
   (.authExchangedata, "AuthExchangedata"), (.authExec, "AuthExec"),
   (.authKextload, "AuthKextload"), (.authLink, "AuthLink"), (.authMount, "AuthMount"),
   (.authOpen, "AuthOpen"), (.authRemount, "AuthRemount"), (.authRename, "AuthRename"),
   (.authSignal, "AuthSignal"), (.authProcSuspendResume, "AuthProcSuspendResume"),
   (.authTruncate, "AuthTruncate"), (.authUnlink, "AuthUnlink"), (.notifyClone, "NotifyClone"),
   (.notifyClose, "NotifyClose"), (.notifyCopyfile, "NotifyCopyfile"),
   (.notifyCsInvalidated, "NotifyCodesigningInvalidated"),
   (.notifyExchangedata, "NotifyExchangedata"), (.notifyExec, "NotifyExec"),
   (.notifyExit, "NotifyExit"), (.notifyFork, "NotifyFork"), (.notifyLink, "NotifyLink"),
   (.notifyRename, "NotifyRename"), (.notifyUnlink, "NotifyUnlink"),
   (.notifyUnmount, "NotifyUnmount"), (.notifyAuthentication, "NotifyAuthentication"),
   (.notifyLoginLogin, "NotifyLoginLogin"), (.notifyLoginLogout, "NotifyLoginLogout"),
   (.notifyLwSessionLogin, "NotifyLWSessionLogin"),
   (.notifyLwSessionLogout, "NotifyLWSessionLogout"),
   (.notifyLwSessionLock, "NotifyLWSessionLock"),
   (.notifyLwSessionUnlock, "NotifyLWSessionUnlock"),
   (.notifyScreensharingAttach, "NotifyScreensharingAttach"),
   (.notifyScreensharingDetach, "NotifyScreensharingDetach"),
   (.notifyOpensshLogin, "NotifyOpenSSHLogin"), (.notifyOpensshLogout, "NotifyOpenSSHLogout"),
   (.notifyBtmLaunchItemAdd, "NotifyLaunchItemAdd"),
   (.notifyBtmLaunchItemRemove, "NotifyLaunchItemRemove"),
   (.notifyXpMalwareDetected, "NotifyXProtectDetected"),
   (.notifyXpMalwareRemediated, "NotifyXProtectRemediated"),
   (.notifyGatekeeperUserOverride, "NotifyGatekeeperOverride"),
   (.notifyTccModify, "NotifyTCCModification"), (.last, "Global")]

/-- A value without a name raises an exception. -/
def processorToString (processor : Processor) : Option String := processorNames.lookup processor

def eventTypeToString (eventType : EventType) : Option String := eventTypeNames.lookup eventType

/-! ### The cache -/

structure SequenceStats where
  nextSeqNum : UInt64
  drops : Int64
  deriving DecidableEq, Repr

abbrev EventStatsTuple := Processor × EventType

/-- The entries of the cache are given by their keys; a key without an entry has no stats yet. -/
structure Metrics where
  keys : List EventStatsTuple
  dropCache : EventStatsTuple → SequenceStats
  dropCounts : String × String → Int64

def Metrics.new : Metrics := ⟨[], fun _ => ⟨0, 0⟩, fun _ => 0⟩

/-- No message has the type that stands for the global sequence numbers. -/
structure Message where
  eventType : EventType
  seqNum : UInt64
  globalSeqNum : UInt64
  event : eventType ≠ .last

def SequenceStats.receive (stats : SequenceStats) (seqNum : UInt64) : SequenceStats :=
  ⟨seqNum + 1, stats.drops + (seqNum - stats.nextSeqNum).toInt64⟩

def Metrics.setStats (m : Metrics) (key : EventStatsTuple) (stats : SequenceStats) : Metrics :=
  { m with
    keys := if key ∈ m.keys then m.keys else key :: m.keys
    dropCache := fun k => if k = key then stats else m.dropCache k }

def updateEventStats (m : Metrics) (processor : Processor) (msg : Message) : Metrics :=
  let eventStats := (m.dropCache (processor, msg.eventType)).receive msg.seqNum
  let globalStats := (m.dropCache (processor, .last)).receive msg.globalSeqNum
  (m.setStats (processor, msg.eventType) eventStats).setStats (processor, .last) globalStats

def statsNames (key : EventStatsTuple) : Option (String × String) :=
  (processorToString key.1).bind fun processorName =>
    (eventTypeToString key.2).map fun eventName => (processorName, eventName)

def flushKey (m : Metrics) (key : EventStatsTuple) : Option Metrics :=
  if (m.dropCache key).drops > 0 then
    (statsNames key).map fun names =>
      { m with
        dropCounts := fun n =>
          if n = names then m.dropCounts n + (m.dropCache key).drops else m.dropCounts n
        dropCache := fun k => if k = key then { m.dropCache key with drops := 0 }
          else m.dropCache k }
  else some m

def flushMetrics (m : Metrics) : Option Metrics := m.keys.foldlM flushKey m

/-! ### Messages and flushes -/

inductive Call where
  | updateEventStats (processor : Processor) (msg : Message)
  | flushMetrics

structure Received where
  metrics : Metrics
  messages : EventStatsTuple → Nat

def Received.new : Received := ⟨Metrics.new, fun _ => 0⟩

def step (s : Received) : Call → Option Received
  | .updateEventStats processor msg =>
      some ⟨updateEventStats s.metrics processor msg, fun key =>
        if key = (processor, msg.eventType) ∨ key = (processor, .last) then s.messages key + 1
        else s.messages key⟩
  | .flushMetrics => (flushMetrics s.metrics).map fun m => ⟨m, s.messages⟩

def Metrics.reported (m : Metrics) (key : EventStatsTuple) : Int64 :=
  ((statsNames key).map m.dropCounts).getD 0

/-- The drops under a key, reported or pending, are the messages that are missing. -/
def Balanced (s : Received) : Prop :=
  ∀ key, (s.metrics.reported key).toInt + (s.metrics.dropCache key).drops.toInt =
    (s.metrics.dropCache key).nextSeqNum.toNat - s.messages key

def BalancedBits (s : Received) : Prop :=
  ∀ key, (s.metrics.reported key + (s.metrics.dropCache key).drops).toUInt64 =
    (s.metrics.dropCache key).nextSeqNum - UInt64.ofNat (s.messages key)

/-- The sequence numbers of a message do not go back, and lie below 2^63. -/
def Forward (s : Received) : Call → Prop
  | .updateEventStats processor msg =>
      ((s.metrics.dropCache (processor, msg.eventType)).nextSeqNum ≤ msg.seqNum ∧
        msg.seqNum.toNat < 9223372036854775808) ∧
      (s.metrics.dropCache (processor, .last)).nextSeqNum ≤ msg.globalSeqNum ∧
        msg.globalSeqNum.toNat < 9223372036854775808
  | .flushMetrics => True

instance (s : Received) (call : Call) : Decidable (Forward s call) := by
  cases call with
  | updateEventStats processor msg => exact inferInstanceAs (Decidable ((_ ∧ _) ∧ _ ∧ _))
  | flushMetrics => exact inferInstanceAs (Decidable True)

/-! ### Names -/

theorem lookup_inj {K : Type} [DecidableEq K] {table : List (K × String)}
    (distinct : (table.map Prod.snd).Nodup) {k k' : K} {name : String}
    (first : table.lookup k = some name) (second : table.lookup k' = some name) : k = k' := by
  have member {k : K} (found : table.lookup k = some name) : (k, name) ∈ table := by
    obtain ⟨before, after, split, -⟩ := List.lookup_eq_some_iff.mp found
    rw [split]
    exact List.mem_append_right before List.mem_cons_self
  exact congrArg Prod.fst (List.inj_on_of_nodup_map distinct (member first) (member second) rfl)

theorem statsNames_inj {key key' : EventStatsTuple} {names : String × String}
    (first : statsNames key = some names) (second : statsNames key' = some names) : key = key' := by
  have processors : (processorNames.map Prod.snd).Nodup := by decide +kernel
  have eventTypes : (eventTypeNames.map Prod.snd).Nodup := by decide +kernel
  unfold statsNames at first second
  obtain ⟨processor, hp, rest⟩ := Option.bind_eq_some_iff.mp first
  obtain ⟨eventType, he, rfl⟩ := Option.map_eq_some_iff.mp rest
  obtain ⟨processor', hp', rest'⟩ := Option.bind_eq_some_iff.mp second
  obtain ⟨eventType', he', same⟩ := Option.map_eq_some_iff.mp rest'
  obtain ⟨rfl, rfl⟩ := Prod.mk.inj same
  exact Prod.ext (lookup_inj processors hp hp') (lookup_inj eventTypes he he')

/-! ### Flushes -/

theorem reported_of_names {m : Metrics} {key : EventStatsTuple} {names : String × String}
    (named : statsNames key = some names) : m.reported key = m.dropCounts names := by
  unfold Metrics.reported
  rw [named]
  rfl

theorem flushKey_key {m m' : Metrics} {key : EventStatsTuple} (flushed : flushKey m key = some m')
    (k : EventStatsTuple) :
    (m'.reported k = m.reported k ∧ m'.dropCache k = m.dropCache k) ∨
      m'.reported k = m.reported k + (m.dropCache k).drops ∧
        m'.dropCache k = { m.dropCache k with drops := 0 } := by
  unfold flushKey at flushed
  split at flushed
  · obtain ⟨names, named, rfl⟩ := Option.map_eq_some_iff.mp flushed
    by_cases here : k = key
    · subst here
      refine .inr ⟨?_, if_pos rfl⟩
      rw [reported_of_names named, reported_of_names named]
      exact if_pos rfl
    · refine .inl ⟨?_, if_neg here⟩
      cases other : statsNames k with
      | none => simp only [Metrics.reported, other, Option.map_none]
      | some names' =>
        rw [reported_of_names other, reported_of_names other]
        refine if_neg fun same => here ?_
        rw [same] at other
        exact statsNames_inj other named
  · obtain rfl := Option.some.inj flushed
    exact .inl ⟨rfl, rfl⟩

theorem flushMetrics_keeps {inv : Metrics → Prop}
    (keep : ∀ m key m', inv m → flushKey m key = some m' → inv m') {m m' : Metrics}
    (start : inv m) (flushed : flushMetrics m = some m') : inv m' :=
  foldlM_keeps keep start flushed

/-! ### Messages -/

theorem updateEventStats_key (s : Received) (processor : Processor) (msg : Message)
    {t : Received} (next : step s (.updateEventStats processor msg) = some t)
    (key : EventStatsTuple) :
    t.metrics.reported key = s.metrics.reported key ∧
      ((t.metrics.dropCache key = s.metrics.dropCache key ∧ t.messages key = s.messages key) ∨
        t.messages key = s.messages key + 1 ∧ ∃ seqNum,
          t.metrics.dropCache key = (s.metrics.dropCache key).receive seqNum ∧
          (Forward s (.updateEventStats processor msg) →
            (s.metrics.dropCache key).nextSeqNum ≤ seqNum ∧
              seqNum.toNat < 9223372036854775808)) := by
  obtain rfl := Option.some.inj next
  refine ⟨rfl, ?_⟩
  by_cases global : key = (processor, .last)
  · subst global
    exact .inr ⟨if_pos (.inr rfl), msg.globalSeqNum, if_pos rfl, fun forward => forward.2⟩
  · by_cases own : key = (processor, msg.eventType)
    · subst own
      exact .inr ⟨if_pos (.inl rfl), msg.seqNum, by simp [updateEventStats, Metrics.setStats, global],
        fun forward => forward.1⟩
    · exact .inl ⟨by simp [updateEventStats, Metrics.setStats, global, own],
        if_neg (by simp [global, own])⟩

theorem step_balancedBits (s : Received) (call : Call) (t : Received) (balanced : BalancedBits s)
    (next : step s call = some t) : BalancedBits t := by
  cases call with
  | updateEventStats processor msg =>
    intro key
    have before := balanced key
    obtain ⟨reported, ⟨same, messages⟩ | ⟨messages, seqNum, received, -⟩⟩ :=
      updateEventStats_key s processor msg next key
    · rw [reported, same, messages]
      exact before
    · rw [reported, received, messages]
      simp only [SequenceStats.receive, MachineWords.toUInt64_add, MachineWords.toUInt64_toInt64,
        UInt64.ofNat_add] at before ⊢
      grind
  | flushMetrics =>
    obtain ⟨m, flushed, rfl⟩ := Option.map_eq_some_iff.mp next
    have keep : ∀ m key m', BalancedBits ⟨m, s.messages⟩ → flushKey m key = some m' →
        BalancedBits ⟨m', s.messages⟩ := by
      intro m key m' balanced flushed k
      have before := balanced k
      rcases flushKey_key flushed k with ⟨reported, stats⟩ | ⟨reported, stats⟩
      · simp only [reported, stats]
        exact before
      · simp only [reported, stats, Int64.add_zero]
        exact before
    exact @flushMetrics_keeps (fun m => BalancedBits ⟨m, s.messages⟩) keep _ _ balanced flushed

/-! ### Numbers that do not wrap -/

structure Exact (reported : Int64) (stats : SequenceStats) (messages : Nat) : Prop where
  nonneg : 0 ≤ reported.toInt
  pending : 0 ≤ stats.drops.toInt
  sum : reported.toInt + stats.drops.toInt = stats.nextSeqNum.toNat - messages
  next : stats.nextSeqNum.toNat ≤ 9223372036854775808
  received : stats.nextSeqNum.toNat = 0 ∨ 1 ≤ messages

def AllExact (messages : EventStatsTuple → Nat) (m : Metrics) : Prop :=
  ∀ key, Exact (m.reported key) (m.dropCache key) (messages key)

theorem Exact.receive {reported : Int64} {stats : SequenceStats} {messages : Nat}
    (exact : Exact reported stats messages) {seqNum : UInt64} (forward : stats.nextSeqNum ≤ seqNum)
    (small : seqNum.toNat < 9223372036854775808) :
    Exact reported (stats.receive seqNum) (messages + 1) := by
  obtain ⟨nonneg, pending, sum, next, received⟩ := exact
  have order := UInt64.le_iff_toNat_le.mp forward
  have gap : (seqNum - stats.nextSeqNum).toNat = seqNum.toNat - stats.nextSeqNum.toNat :=
    UInt64.toNat_sub_of_le _ _ forward
  have signed : (seqNum - stats.nextSeqNum).toInt64.toInt =
      seqNum.toNat - stats.nextSeqNum.toNat := by
    rw [MachineWords.toInt_toInt64 (by omega), gap]
    omega
  have number : (stats.receive seqNum).nextSeqNum.toNat = seqNum.toNat + 1 := by
    unfold SequenceStats.receive
    rw [UInt64.toNat_add, UInt64.toNat_one, Nat.mod_eq_of_lt (by omega)]
  have drops : (stats.receive seqNum).drops.toInt =
      stats.drops.toInt + (seqNum.toNat - stats.nextSeqNum.toNat) := by
    unfold SequenceStats.receive
    rw [MachineWords.toInt_add (by omega) (by omega), signed]
  exact ⟨nonneg, by omega, by omega, by omega, .inr (by omega)⟩

theorem Exact.flush {reported : Int64} {stats : SequenceStats} {messages : Nat}
    (exact : Exact reported stats messages) :
    Exact (reported + stats.drops) { stats with drops := 0 } messages := by
  obtain ⟨nonneg, pending, sum, next, received⟩ := exact
  have grown : (reported + stats.drops).toInt = reported.toInt + stats.drops.toInt :=
    MachineWords.toInt_add (by omega) (by omega)
  have none : (0 : Int64).toInt = 0 := rfl
  exact ⟨by omega, Int.le_of_eq none.symm, by simp only [none]; omega, next, received⟩

theorem step_exact (s : Received) (call : Call) (t : Received)
    (exact : AllExact s.messages s.metrics) (forward : Forward s call)
    (next : step s call = some t) : AllExact t.messages t.metrics := by
  cases call with
  | updateEventStats processor msg =>
    intro key
    obtain ⟨reported, ⟨same, messages⟩ | ⟨messages, seqNum, received, ahead⟩⟩ :=
      updateEventStats_key s processor msg next key
    · rw [reported, same, messages]
      exact exact key
    · rw [reported, received, messages]
      obtain ⟨order, small⟩ := ahead forward
      exact (exact key).receive order small
  | flushMetrics =>
    obtain ⟨m, flushed, rfl⟩ := Option.map_eq_some_iff.mp next
    have keep : ∀ m key m', AllExact s.messages m → flushKey m key = some m' →
        AllExact s.messages m' := by
      intro m key m' exact flushed k
      rcases flushKey_key flushed k with ⟨reported, stats⟩ | ⟨reported, stats⟩
      · rw [reported, stats]
        exact exact k
      · rw [reported, stats]
        exact (exact k).flush
    exact flushMetrics_keeps keep exact flushed

theorem new_reported (key : EventStatsTuple) : Metrics.new.reported key = 0 := by
  unfold Metrics.reported
  cases statsNames key <;> rfl

theorem new_exact : AllExact Received.new.messages Received.new.metrics := by
  intro key
  have start : Exact 0 ⟨0, 0⟩ 0 := ⟨by decide, by decide, rfl, by decide, .inl rfl⟩
  exact (congrArg (fun reported => Exact reported ⟨0, 0⟩ 0) (new_reported key)).mpr start

theorem new_balancedBits : BalancedBits Received.new := by
  intro key
  have start : ((0 : Int64) + 0).toUInt64 = 0 - UInt64.ofNat 0 := by decide
  exact (congrArg (fun reported => (reported + 0 : Int64).toUInt64 = 0 - UInt64.ofNat 0)
    (new_reported key)).mpr start

/-- Drops are accounted for in 64 bits in every run, and as numbers while the sequence numbers do
    not go back and lie below 2^63. -/
theorem drops_accounted (calls : List Call) :
    Always step BalancedBits Received.new calls ∧
      (Meets step Forward Received.new calls → Always step Balanced Received.new calls) := by
  constructor
  · exact always_of_keep BalancedBits step_balancedBits new_balancedBits calls
  · intro forward
    have always : Always step (fun s => AllExact s.messages s.metrics) Received.new calls :=
      always_of_meets step_exact new_exact forward
    exact always_mono (fun s exact key => (exact key).sum) always

def gapOfThree : List Call :=
  [.updateEventStats .recorder ⟨.notifyExec, 3, 7, by decide⟩, .flushMetrics,
    .updateEventStats .recorder ⟨.notifyExec, 4, 9, by decide⟩]

theorem gap_accounted : Always step Balanced Received.new gapOfThree :=
  (drops_accounted gapOfThree).2 (by decide +kernel)

/-- A gap of 2^63 becomes a negative number of drops. -/
theorem wide_gap_unbalanced :
    ¬ Always step Balanced Received.new
      [.updateEventStats .recorder ⟨.notifyExec, 9223372036854775808, 0, by decide⟩] := by
  intro always
  have balanced := always_last always rfl (.recorder, .notifyExec)
  revert balanced
  decide +kernel

end SantaMetrics
