import Santa.Common.Configurator
import Santa.Rules.DecisionCacheFlush
import Santa.Rules.RuleAddition

/-!
Rule download. The server answers page by page until it gives no cursor; the
cleanup that a clean sync asks for is done by the daemon when it adds the rules.
A file access rule of a page is given as the rule it is converted to, if it is a
valid one. Notifications about unblocked binaries are left out.
-/
namespace SantaRuleDownload
open SantaRule SantaRuleTable SantaRuleAddition SantaRuleFlush SantaConfigurator

/-! ### Rules of the server -/

inductive Policy where
  | unknown
  | allowlist
  | allowlistCompiler
  | blocklist
  | silentBlocklist
  | remove
  | cel
  deriving DecidableEq, Repr

inductive RuleType where
  | unknown
  | binary
  | certificate
  | teamID
  | signingID
  | cdHash
  deriving DecidableEq, Repr

structure ProtoRule where
  identifier : String
  deprecatedSHA256 : String
  policy : Policy
  ruleType : RuleType
  customMsg : String
  customURL : String
  celExpr : String
  deriving DecidableEq, Repr

def stateOf (isV2 : Bool) : Policy → Option SNTRuleState
  | .allowlist => some .allow
  | .allowlistCompiler => some .allowCompiler
  | .blocklist => some .block
  | .silentBlocklist => some .silentBlock
  | .remove => some .remove
  | .cel => some (if isV2 then .celv2 else .cel)
  | .unknown => none

def typeOf : RuleType → Option SNTRuleType
  | .binary => some .binary
  | .certificate => some .certificate
  | .teamID => some .teamID
  | .signingID => some .signingID
  | .cdHash => some .cdHash
  | .unknown => none

def nonEmpty (text : String) : Option String := if text = "" then none else some text

def ruleFromProtoRule (isV2 : Bool) (rule : ProtoRule) : Option SNTRule :=
  let identifier := if rule.identifier = "" then rule.deprecatedSHA256 else rule.identifier
  if identifier = "" then none
  else
    (stateOf isV2 rule.policy).bind fun state =>
      (typeOf rule.ruleType).bind fun type =>
        (SNTRule.mk identifier state type (nonEmpty rule.customMsg) (nonEmpty rule.customURL) 0
          none (nonEmpty rule.celExpr)).init

theorem ruleFromProtoRule_state {isV2 : Bool} {rule : ProtoRule} {r : SNTRule}
    (converted : ruleFromProtoRule isV2 rule = some r) : r.state ≠ .allowTransitive := by
  rw [ruleFromProtoRule] at converted
  generalize (if rule.identifier = "" then _ else _) = identifier at converted
  by_cases missing : identifier = ""
  · rw [if_pos missing] at converted
    cases converted
  rw [if_neg missing] at converted
  obtain ⟨state, policy, rest⟩ := Option.bind_eq_some_iff.mp converted
  obtain ⟨type, -, built⟩ := Option.bind_eq_some_iff.mp rest
  rw [(init_fields built).1]
  rintro transitive
  cases of_policy : rule.policy <;> rw [of_policy] at policy <;> cases policy <;>
    cases isV2 <;> cases transitive

structure Page where
  rules : List ProtoRule
  fileAccessRules : List (Option SNTFileAccessRule)
  cursor : String

/-- The rules that were good, and how many there were. -/
structure SNTDownloadedRuleSets where
  executionRules : List SNTRule
  fileAccessRules : List SNTFileAccessRule
  rulesReceived : Nat
  fileAccessRulesReceived : Nat

namespace SNTDownloadedRuleSets

def none : SNTDownloadedRuleSets := ⟨[], [], 0, 0⟩

/-- Only the second protocol has file access rules. -/
def add (isV2 : Bool) (got : SNTDownloadedRuleSets) (page : Page) : SNTDownloadedRuleSets where
  executionRules := got.executionRules ++ page.rules.filterMap (ruleFromProtoRule isV2)
  fileAccessRules :=
    if isV2 then got.fileAccessRules ++ page.fileAccessRules.filterMap id else got.fileAccessRules
  rulesReceived := got.rulesReceived + page.rules.length
  fileAccessRulesReceived :=
    if isV2 then got.fileAccessRulesReceived + page.fileAccessRules.length
    else got.fileAccessRulesReceived

def isEmpty (got : SNTDownloadedRuleSets) : Bool :=
  got.executionRules.isEmpty && got.fileAccessRules.isEmpty

end SNTDownloadedRuleSets

/-- The responses are given in order; none is a request that failed. Without one the request is
    still waiting. -/
def DownloadNewRulesFromServer (isV2 : Bool) :
    List (Option Page) → SNTDownloadedRuleSets → Option SNTDownloadedRuleSets
  | [], _ => Option.none
  | Option.none :: _, _ => Option.none
  | some page :: responses, got =>
      if page.cursor = "" then some (got.add isV2 page)
      else DownloadNewRulesFromServer isV2 responses (got.add isV2 page)

theorem downloaded_state {isV2 : Bool} {responses : List (Option Page)}
    {got all : SNTDownloadedRuleSets}
    (before : ∀ r ∈ got.executionRules, r.state ≠ .allowTransitive)
    (downloaded : DownloadNewRulesFromServer isV2 responses got = some all) :
    ∀ r ∈ all.executionRules, r.state ≠ .allowTransitive := by
  have added : ∀ (got : SNTDownloadedRuleSets) (page : Page),
      (∀ r ∈ got.executionRules, r.state ≠ .allowTransitive) →
        ∀ r ∈ (got.add isV2 page).executionRules, r.state ≠ .allowTransitive := by
    intro got page before r member
    rcases List.mem_append.mp member with old | new
    · exact before r old
    · obtain ⟨rule, -, converted⟩ := List.mem_filterMap.mp new
      exact ruleFromProtoRule_state converted
  induction responses generalizing got with
  | nil => cases downloaded
  | cons response responses ih =>
    cases response with
    | none => cases downloaded
    | some page =>
      rw [DownloadNewRulesFromServer] at downloaded
      split at downloaded
      · rw [Option.some.injEq] at downloaded
        subst all
        exact added got page before
      · exact ih (added got page before) downloaded

/-! ### Outdated transitive rules -/

def kTransitiveRuleCullingThreshold : Nat := 500000
def kTransitiveRuleExpirationSeconds : Nat := 6 * 30 * 24 * 3600

structure Culling where
  lastTransitiveRuleCulling : Option Nat
  now : Nat
  fails : Bool

/-- It is time, and the table is large. -/
def Culling.due (c : Culling) (ruleCount : Nat) : Bool :=
  !c.lastTransitiveRuleCulling.any (fun last => c.now - last < 3600) &&
    decide (kTransitiveRuleCullingThreshold ≤ ruleCount) && !c.fails

def Culling.outdated (c : Culling) (r : SNTRule) : Bool :=
  r.state = .allowTransitive && decide (r.timestamp < c.now - kTransitiveRuleExpirationSeconds)

def removeOutdatedTransitiveRules (c : Culling) (rows : ExecutionRules) : ExecutionRules :=
  if c.due rows.rows.length then rows.select fun r => !c.outdated r else rows

/-! ### The stage -/

def SyncTypeToRuleCleanup : SNTSyncType → SNTRuleCleanup
  | .normal => .none
  | .clean => .nonTransitive
  | .cleanAll => .all

/-- What the stage depends on besides the responses: the daemon's side, and whether its reply
    comes in time. -/
structure Daemon where
  compile : Bool → String → Option String
  hash : FileAccessRules → String
  fails : Nat → Option String
  config : RuleSources
  culling : Culling
  inTime : Bool

structure Synced where
  success : Bool
  recorded : Bool
  table : RuleTable

def addRules (d : Daemon) (table : RuleTable) (got : SNTDownloadedRuleSets)
    (cleanupType : SNTRuleCleanup) : AddReply × RuleTable :=
  let (reply, table) := databaseRuleAddExecutionRules d.compile d.hash d.fails d.config table
    got.executionRules got.fileAccessRules cleanupType .syncService
  let rows := removeOutdatedTransitiveRules d.culling table.db.executionRules
  (reply, { table with db := { table.db with executionRules := rows } })

def sync (d : Daemon) (isV2 : Bool) (syncType : SNTSyncType) (responses : List (Option Page))
    (table : RuleTable) : Synced :=
  match DownloadNewRulesFromServer isV2 responses .none with
  | none => ⟨false, false, table⟩
  | some got =>
      -- nothing is added, and so nothing cleaned up
      if got.isEmpty then ⟨true, false, table⟩
      else
        let (reply, table) := addRules d table got (SyncTypeToRuleCleanup syncType)
        if d.inTime && reply.success then ⟨true, true, table⟩ else ⟨false, false, table⟩

/-! ### What a clean sync leaves -/

def foldOver (d : Daemon) (got : SNTDownloadedRuleSets) (db : Database) : Database where
  executionRules := db.executionRules.writeAll (executionWrites d.compile got.executionRules)
  fileAccessRules := db.fileAccessRules.writeAll (fileAccessWrites got.fileAccessRules)

def slate : SNTSyncType → Database → Database
  | .normal, db => db
  | .clean, db => ⟨db.executionRules.select fun r => r.state = .allowTransitive, .empty⟩
  | .cleanAll, _ => ⟨.empty, .empty⟩

def CleanMeansClean (d : Daemon) (isV2 : Bool) (syncType : SNTSyncType)
    (responses : List (Option Page)) (table : RuleTable) : Prop :=
  let after := sync d isV2 syncType responses table
  after.success = true → syncType ≠ .normal →
    ∀ got, DownloadNewRulesFromServer isV2 responses .none = some got →
      SameTables after.table.db (foldOver d got (slate syncType table.db))

section
variable (d : Daemon) (syncType : SNTSyncType) (got : SNTDownloadedRuleSets) (db : Database)

def Succeeds : Prop :=
  got.isEmpty = true ∨ (d.inTime = true ∧ Accepted d.compile d.fails got.executionRules
    got.fileAccessRules (SyncTypeToRuleCleanup syncType))

def culled (r : SNTRule) : Bool :=
  d.culling.due (written d.compile d.fails (SyncTypeToRuleCleanup syncType) got.executionRules
    got.fileAccessRules db).executionRules.rows.length && d.culling.outdated r

def stays (r : SNTRule) : Bool :=
  got.isEmpty || (leavesExecution d.fails (SyncTypeToRuleCleanup syncType) r &&
    !culled d syncType got db r)

def mayStay (r : SNTRule) : Bool := syncType = .clean && r.state = .allowTransitive

def fileAccessStays : Bool :=
  got.isEmpty || leavesFileAccess d.fails (SyncTypeToRuleCleanup syncType)

structure Cleans : Prop where
  execution : ∀ r ∈ db.executionRules.rows, stays d syncType got db r = mayStay syncType r ∨
    ∃ w ∈ executionWrites d.compile got.executionRules, ruleKey w.2 = ruleKey r
  fileAccess : ∀ r ∈ db.fileAccessRules.rows, fileAccessStays d syncType got = false ∨
    ∃ w ∈ fileAccessWrites got.fileAccessRules, w.2.name = r.name

def left : Database where
  executionRules := (db.executionRules.select (stays d syncType got db)).writeAll
    (executionWrites d.compile got.executionRules)
  fileAccessRules := (db.fileAccessRules.select fun _ => fileAccessStays d syncType got).writeAll
    (fileAccessWrites got.fileAccessRules)

end

theorem foldOver_slate {d : Daemon} {syncType : SNTSyncType} (clean : syncType ≠ .normal)
    (got : SNTDownloadedRuleSets) (db : Database) :
    SameTables (foldOver d got (slate syncType db))
      ⟨(db.executionRules.select (mayStay syncType)).writeAll
          (executionWrites d.compile got.executionRules),
        (db.fileAccessRules.select fun _ => false).writeAll
          (fileAccessWrites got.fileAccessRules)⟩ := by
  cases syncType with
  | normal => exact absurd rfl clean
  | clean =>
    constructor
    · exact KeyedRows.Same.writeAll (fun _ => rfl) _
    · exact (KeyedRows.same_select_none fun _ => rfl).writeAll _
  | cleanAll =>
    constructor
    · exact (KeyedRows.same_select_none fun _ => rfl).writeAll _
    · exact (KeyedRows.same_select_none fun _ => rfl).writeAll _

theorem isEmpty_iff {got : SNTDownloadedRuleSets} :
    got.isEmpty = true ↔ got.executionRules = [] ∧ got.fileAccessRules = [] := by
  rw [SNTDownloadedRuleSets.isEmpty, Bool.and_eq_true, List.isEmpty_iff, List.isEmpty_iff]

theorem left_of_isEmpty {d : Daemon} {syncType : SNTSyncType} {got : SNTDownloadedRuleSets}
    {db : Database} (empty : got.isEmpty = true) : SameTables db (left d syncType got db) := by
  obtain ⟨execution, fileAccess⟩ := isEmpty_iff.mp empty
  unfold left
  rw [execution, fileAccess]
  constructor
  · apply KeyedRows.same_select_all
    intro r
    rw [stays, empty]
    rfl
  · apply KeyedRows.same_select_all
    intro r
    rw [fileAccessStays, empty]
    rfl

theorem removeOutdated_same {c : Culling} {rows rows' : ExecutionRules}
    (same : KeyedRows.Same rows rows') :
    KeyedRows.Same (removeOutdatedTransitiveRules c rows)
      (rows'.select fun r => !(c.due rows'.rows.length && c.outdated r)) := by
  rw [removeOutdatedTransitiveRules, same.length]
  generalize c.due rows'.rows.length = due
  cases due with
  | true =>
    simp only [Bool.true_and, if_true]
    exact same.select _
  | false =>
    simp only [Bool.false_and, Bool.false_eq_true, if_false]
    exact same.trans (KeyedRows.same_select_all fun _ => rfl)

theorem written_not_culled {d : Daemon} {isV2 : Bool} {responses : List (Option Page)}
    {got : SNTDownloadedRuleSets} {syncType : SNTSyncType} {db : Database}
    (downloaded : DownloadNewRulesFromServer isV2 responses .none = some got) :
    ∀ w ∈ executionWrites d.compile got.executionRules,
      (!culled d syncType got db w.2) = true := by
  intro w member
  obtain ⟨r, compiled, rfl⟩ := List.mem_map.mp member
  have state := @downloaded_state isV2 responses .none got (fun _ impossible => nomatch impossible)
    downloaded r (List.mem_filter.mp compiled).1
  have kept : d.culling.outdated r = false := by
    rw [Culling.outdated, decide_eq_false state, Bool.false_and]
  rw [culled, kept, Bool.and_false]
  rfl

theorem addRules_cases (d : Daemon) (table : RuleTable) {isV2 : Bool}
    {responses : List (Option Page)} {got : SNTDownloadedRuleSets} (syncType : SNTSyncType)
    (some_rules : got.isEmpty = false)
    (downloaded : DownloadNewRulesFromServer isV2 responses .none = some got) :
    let outcome := addRules d table got (SyncTypeToRuleCleanup syncType)
    (¬ Accepted d.compile d.fails got.executionRules got.fileAccessRules
        (SyncTypeToRuleCleanup syncType) ∧ outcome.1.success = false) ∨
    (Accepted d.compile d.fails got.executionRules got.fileAccessRules
        (SyncTypeToRuleCleanup syncType) ∧ outcome.1.success = true ∧
      SameTables outcome.2.db (left d syncType got table.db)) := by
  intro outcome
  rcases @addExecutionRules_cases d.compile d.fails d.hash table
    got.executionRules got.fileAccessRules (SyncTypeToRuleCleanup syncType) with
    ⟨not_accepted, refused⟩ | ⟨accepted, wrote⟩
  · exact .inl ⟨not_accepted, refused.success⟩
  apply Or.inr
  refine ⟨accepted, wrote.success, ?_, ?_⟩
  · have stays_eq : stays d syncType got table.db = fun r =>
        leavesExecution d.fails (SyncTypeToRuleCleanup syncType) r &&
          !culled d syncType got table.db r := by
      funext r
      rw [stays, some_rules, Bool.false_or]
    rw [left, stays_eq]
    have removed := removeOutdated_same (c := d.culling) wrote.db.1
    have commutes := KeyedRows.same_select_writeAll
      (p := fun r => !culled d syncType got table.db r)
      (t := table.db.executionRules.select
        (leavesExecution d.fails (SyncTypeToRuleCleanup syncType)))
      fun w member _ => written_not_culled downloaded w member
    have both := (KeyedRows.same_select_select table.db.executionRules
      (leavesExecution d.fails (SyncTypeToRuleCleanup syncType))
      fun r => !culled d syncType got table.db r).writeAll
        (executionWrites d.compile got.executionRules)
    exact removed.trans (commutes.trans both)
  · have stays_eq : fileAccessStays d syncType got =
        leavesFileAccess d.fails (SyncTypeToRuleCleanup syncType) := by
      rw [fileAccessStays, some_rules, Bool.false_or]
    rw [left, stays_eq]
    exact wrote.db.2

theorem sync_cases (d : Daemon) (table : RuleTable) {isV2 : Bool}
    {responses : List (Option Page)} {got : SNTDownloadedRuleSets} (syncType : SNTSyncType)
    (downloaded : DownloadNewRulesFromServer isV2 responses .none = some got) :
    let after := sync d isV2 syncType responses table
    (after.success = true ↔ Succeeds d syncType got) ∧
      (after.success = true → SameTables after.table.db (left d syncType got table.db)) := by
  intro after
  have unfolded : after =
      if got.isEmpty then ⟨true, false, table⟩
      else
        let outcome := addRules d table got (SyncTypeToRuleCleanup syncType)
        if d.inTime && outcome.1.success then ⟨true, true, outcome.2⟩
        else ⟨false, false, outcome.2⟩ := by
    simp only [after, sync, downloaded]
  clear_value after
  by_cases empty : got.isEmpty = true
  · rw [if_pos empty] at unfolded
    rw [unfolded]
    exact ⟨iff_of_true rfl (.inl empty), fun _ => left_of_isEmpty empty⟩
  rw [if_neg empty] at unfolded
  simp only at unfolded
  have some_rules := eq_false_of_ne_true empty
  rcases addRules_cases d table syncType some_rules downloaded with
    ⟨not_accepted, refused⟩ | ⟨accepted, added, tables⟩
  · rw [refused, Bool.and_false, if_neg Bool.false_ne_true] at unfolded
    rw [unfolded]
    refine ⟨iff_of_false Bool.false_ne_true ?_, fun success => absurd success Bool.false_ne_true⟩
    rintro (none | ⟨-, accepted⟩)
    · exact empty none
    · exact not_accepted accepted
  · rw [added, Bool.and_true] at unfolded
    by_cases inTime : d.inTime = true
    · rw [if_pos inTime] at unfolded
      rw [unfolded]
      exact ⟨iff_of_true rfl (.inr ⟨inTime, accepted⟩), fun _ => tables⟩
    · rw [if_neg inTime] at unfolded
      rw [unfolded]
      refine ⟨iff_of_false Bool.false_ne_true ?_, fun success => absurd success Bool.false_ne_true⟩
      rintro (none | ⟨answered, -⟩)
      · exact empty none
      · exact inTime answered

theorem left_slate_iff {d : Daemon} {syncType : SNTSyncType} (clean : syncType ≠ .normal)
    (got : SNTDownloadedRuleSets) (db : Database) :
    SameTables (left d syncType got db) (foldOver d got (slate syncType db)) ↔
      Cleans d syncType got db := by
  have slate_tables := foldOver_slate (d := d) clean got db
  have both : SameTables (left d syncType got db) (foldOver d got (slate syncType db)) ↔
      SameTables (left d syncType got db)
        ⟨(db.executionRules.select (mayStay syncType)).writeAll
            (executionWrites d.compile got.executionRules),
          (db.fileAccessRules.select fun _ => false).writeAll
            (fileAccessWrites got.fileAccessRules)⟩ := by
    constructor
    · exact fun same => ⟨same.1.trans slate_tables.1, same.2.trans slate_tables.2⟩
    · exact fun same =>
        ⟨same.1.trans slate_tables.1.symm, same.2.trans slate_tables.2.symm⟩
  rw [both, SameTables, left, KeyedRows.same_select_iff, KeyedRows.same_select_iff]
  constructor
  · rintro ⟨execution, fileAccess⟩
    exact ⟨execution, fileAccess⟩
  · rintro ⟨execution, fileAccess⟩
    exact ⟨execution, fileAccess⟩

/-- A clean sync is clean as far as the download cleans. -/
theorem cleanMeansClean_iff (d : Daemon) (isV2 : Bool) (syncType : SNTSyncType)
    (responses : List (Option Page)) (table : RuleTable) :
    CleanMeansClean d isV2 syncType responses table ↔
      (syncType ≠ .normal → ∀ got, DownloadNewRulesFromServer isV2 responses .none = some got →
        Succeeds d syncType got → Cleans d syncType got table.db) := by
  constructor
  · intro means clean got downloaded succeeds
    obtain ⟨success_iff, tables⟩ := sync_cases d table syncType downloaded
    have success := success_iff.mpr succeeds
    have same := means success clean got downloaded
    exact (left_slate_iff clean got table.db).mp ((sameTables_iff (tables success)).mp same)
  · intro condition success clean got downloaded
    obtain ⟨success_iff, tables⟩ := sync_cases d table syncType downloaded
    have cleans := condition clean got downloaded (success_iff.mp success)
    exact (sameTables_iff (tables success)).mpr ((left_slate_iff clean got table.db).mpr cleans)

/-- A server without rules answers a sync that is to remove all of them. -/
theorem no_rules_not_clean :
    let d : Daemon :=
      ⟨fun _ _ => none, fun _ => "0", fun _ => none, ⟨none, 0⟩, ⟨none, 0, false⟩, true⟩
    let old : SNTRule := ⟨"EQHXZ8M8AV", .block, .teamID, none, none, 0, none, none⟩
    let table : RuleTable := ⟨⟨KeyedRows.empty.put old, .empty⟩, "", ""⟩
    (sync d true .cleanAll [some ⟨[], [], ""⟩] table).success = true ∧
      ¬ CleanMeansClean d true .cleanAll [some ⟨[], [], ""⟩] table := by
  intro d old table
  refine ⟨rfl, ?_⟩
  intro means
  have same := (means rfl (by decide) _ rfl).1 ("EQHXZ8M8AV", .teamID)
  exact absurd same (by decide)

end SantaRuleDownload
