import Mathlib.Data.List.TakeWhile
import Santa.FileAccess.RuleConfig
import Santa.Rules.RuleAddition

/-!
File access rules from the server. A message is translated into the dictionary that a
configuration profile would hold, checked by the parser of configurations, archived
into the rule table, and parsed again when the rules are loaded. A message with an
entry of a kind that is not known should be refused as a whole.
-/
namespace SantaFileAccessRules
open SantaRuleTable SantaRuleAddition SantaKillingMachine SantaFAA SantaProcessMatching
open SantaWatchItems SantaRuleConfig

/-! ### Messages -/

/-- Enumerations are open: a newer server may send other numbers. -/
inductive PathType where
  | unspecified
  | literal
  | leading
  | undeclared (raw : Int)
  deriving DecidableEq, Repr

inductive RuleType where
  | unspecified
  | pathsWithAllowedProcesses
  | pathsWithDeniedProcesses
  | processesWithAllowedPaths
  | processesWithDeniedPaths
  | undeclared (raw : Int)
  deriving DecidableEq, Repr

/-- A process has one identifier. One of a kind that is not declared is read as not set. -/
inductive Process where
  | binaryPath (path : String)
  | cdHash (hash : String)
  | signingId (id : String)
  | certificateSha256 (hash : String)
  | teamId (id : String)
  | notSet
  deriving DecidableEq, Repr

structure Path where
  path : String
  pathType : PathType
  deriving DecidableEq, Repr

structure Add where
  name : String
  version : String
  paths : List Path
  allowReadAccess : Bool
  blockViolations : Bool
  ruleType : RuleType
  enableSilentMode : Bool
  enableSilentTtyMode : Bool
  blockMessage : String
  eventDetailText : String
  eventDetailUrl : String
  processes : List Process
  deriving DecidableEq, Repr

/-! ### The translation -/

/-- A string is read up to its first NUL character. -/
def stringToNSString (s : String) : String := String.ofList (s.toList.takeWhile (· ≠ '\x00'))

def pathDict (path : Path) : Option PlistValue :=
  let pathString := (kWatchItemConfigKeyPathsPath, PlistValue.string (stringToNSString path.path))
  match path.pathType with
  | .unspecified | .literal =>
      some (.dict [pathString, (kWatchItemConfigKeyPathsIsPrefix, .number 0)])
  | .leading => some (.dict [pathString, (kWatchItemConfigKeyPathsIsPrefix, .number 1)])
  | .undeclared _ => none

def pathsFromProtoFAARulePaths (paths : List Path) : Option (List PlistValue) :=
  paths.mapM pathDict

def ruleTypeFromProto : RuleType → Option String
  | .unspecified | .pathsWithAllowedProcesses => some kRuleTypePathsWithAllowedProcesses
  | .pathsWithDeniedProcesses => some kRuleTypePathsWithDeniedProcesses
  | .processesWithAllowedPaths => some kRuleTypeProcessesWithAllowedPaths
  | .processesWithDeniedPaths => some kRuleTypeProcessesWithDeniedPaths
  | .undeclared _ => none

def number (value : Bool) : PlistValue := .number (if value then 1 else 0)

/-- Setting a key to nil leaves it out. -/
def textEntry (key text : String) : NSDictionary :=
  if text = "" then [] else [(key, .string (stringToNSString text))]

def optionsFromProtoFAARuleAdd (pbAddRule : Add) : Option NSDictionary :=
  (ruleTypeFromProto pbAddRule.ruleType).map fun ruleType =>
    [(kWatchItemConfigKeyOptionsRuleType, .string ruleType),
      (kWatchItemConfigKeyVersion, .string (stringToNSString pbAddRule.version)),
      (kWatchItemConfigKeyOptionsAllowReadAccess, number pbAddRule.allowReadAccess),
      (kWatchItemConfigKeyOptionsAuditOnly, number !pbAddRule.blockViolations),
      (kWatchItemConfigKeyOptionsEnableSilentMode, number pbAddRule.enableSilentMode),
      (kWatchItemConfigKeyOptionsEnableSilentTTYMode, number pbAddRule.enableSilentTtyMode)] ++
    (textEntry kWatchItemConfigKeyOptionsCustomMessage pbAddRule.blockMessage ++
      (textEntry kWatchItemConfigKeyEventDetailText pbAddRule.eventDetailText ++
        textEntry kWatchItemConfigKeyEventDetailURL pbAddRule.eventDetailUrl))

def processDict : Process → Option PlistValue
  | .binaryPath path =>
      some (.dict [(kWatchItemConfigKeyProcessesBinaryPath, .string (stringToNSString path))])
  | .cdHash hash =>
      some (.dict [(kWatchItemConfigKeyProcessesCDHash, .string (stringToNSString hash))])
  | .signingId id =>
      some (.dict [(kWatchItemConfigKeyProcessesSigningID, .string (stringToNSString id))])
  | .certificateSha256 hash =>
      some (.dict
        [(kWatchItemConfigKeyProcessesCertificateSha256, .string (stringToNSString hash))])
  | .teamId id =>
      some (.dict [(kWatchItemConfigKeyProcessesTeamID, .string (stringToNSString id))])
  | .notSet => none

def processesFromProtoFAARuleProcesses (processes : List Process) : Option (List PlistValue) :=
  processes.mapM processDict

/-- The paths are looked at again where the processes were meant: without processes the key is
    left out. -/
def detailsFromProtoFAARuleAdd (pbAddRule : Add) : Option NSDictionary := do
  let paths ← pathsFromProtoFAARulePaths pbAddRule.paths
  let optionsDict ← optionsFromProtoFAARuleAdd pbAddRule
  let processes := processesFromProtoFAARuleProcesses pbAddRule.processes
  some ([(kWatchItemConfigKeyPaths, .array paths),
      (kWatchItemConfigKeyOptions, .dict optionsDict)] ++
    (processes.map fun processes =>
      (kWatchItemConfigKeyProcesses, PlistValue.array processes)).toList)

def faaRuleFromProtoFAARuleAdd (archive : NSDictionary → List UInt8) (description : String)
    (pbAddRule : Add) : Option SNTFileAccessRule := do
  let details ← detailsFromProtoFAARuleAdd pbAddRule
  let name := stringToNSString pbAddRule.name
  if isValidRule name details then some ⟨.add, name, archive details, description⟩ else none

/-! ### Loading -/

def retrieveAllFileAccessRules (unarchive : List UInt8 → Option NSDictionary)
    (rows : FileAccessRules) : List (String × NSDictionary) :=
  rows.rows.filterMap fun row => (unarchive row.ruleData).map fun details => (row.name, details)

def loadDBRules (unarchive : List UInt8 → Option NSDictionary) (table : RuleTable) :
    Option (ParsedConfig WatchItemPolicyBase) :=
  parseConfig (dbConfig (retrieveAllFileAccessRules unarchive table.db.fileAccessRules))

/-! ### What was sent -/

def sentPathType : PathType → WatchItemPathType
  | .leading => .kPrefix
  | _ => .kLiteral

def sentPath (read : String → String) (path : Path) : PairPathAndType :=
  (read path.path, sentPathType path.pathType)

def sentRuleType : RuleType → WatchItemRuleType
  | .pathsWithDeniedProcesses => .pathsWithDeniedProcesses
  | .processesWithAllowedPaths => .processesWithAllowedPaths
  | .processesWithDeniedPaths => .processesWithDeniedPaths
  | _ => .pathsWithAllowedProcesses

def sentProcess (read : String → String) : Process → Except String WatchItemProcess
  | .binaryPath path => WatchItemProcess.create (some (read path)) none none none none false
  | .cdHash hash => WatchItemProcess.create none none none (some (read hash)) none false
  | .signingId id => WatchItemProcess.create none (some (read id)) none none none false
  | .certificateSha256 hash => WatchItemProcess.create none none none none (some (read hash)) false
  | .teamId id => WatchItemProcess.create none none (some (read id)) none none false
  | .notSet => .error "identifier not set"

/-- The rule is that of the message, option by option, with every string as `read` reads it. -/
structure Carries (read : String → String) (pbAddRule : Add) (rule : ParsedRule) : Prop where
  name : rule.base.name = read pbAddRule.name
  version : rule.base.version = read pbAddRule.version
  paths : rule.pathList = pbAddRule.paths.map (sentPath read)
  allowReadAccess : rule.base.allowReadAccess = pbAddRule.allowReadAccess
  auditOnly : rule.base.auditOnly = !pbAddRule.blockViolations
  ruleType : rule.base.ruleType = sentRuleType pbAddRule.ruleType
  silent : rule.base.silent = pbAddRule.enableSilentMode
  silentTty : rule.base.silentTty = pbAddRule.enableSilentTtyMode
  customMessage : rule.base.customMessage = nonEmpty (some (read pbAddRule.blockMessage))
  eventDetailText : rule.base.eventDetailText = nonEmpty (some (read pbAddRule.eventDetailText))
  eventDetailUrl : rule.base.eventDetailUrl =
    (nonEmpty (some pbAddRule.eventDetailUrl)).map read
  processes : rule.base.processes.map .ok = pbAddRule.processes.map (sentProcess read)

def AsSent (pbAddRule : Add) (rule : ParsedRule) : Prop := Carries id pbAddRule rule

/-- Loading gives under the name of the stored rule the policies of the message, and no others. -/
def Enforced (pbAddRule : Add) (stored : SNTFileAccessRule)
    (loaded : Option (ParsedConfig WatchItemPolicyBase)) : Prop :=
  ∃ parsed rule, loaded = some parsed ∧ AsSent pbAddRule rule ∧
    (parsed.dataPolicies.filter fun policy => policy.base.name = stored.name) =
      rule.dataPolicies ∧
    (parsed.procPolicies.filter fun policy => policy.1.name = stored.name) = rule.procPolicies

structure AllKnown (pbAddRule : Add) : Prop where
  paths : ∀ path ∈ pbAddRule.paths, ∀ raw, path.pathType ≠ .undeclared raw
  ruleType : ∀ raw, pbAddRule.ruleType ≠ .undeclared raw
  processes : .notSet ∉ pbAddRule.processes

/-! ### What is received -/

theorem map_of_mapM {α β γ δ : Type} {f : α → Option β} {g : β → Option γ} {k : γ → δ} {h : α → δ}
    (agree : ∀ x y z, f x = some y → g y = some z → k z = h x) {xs : List α} {ys : List β}
    {zs : List γ} (translated : xs.mapM f = some ys) (checked : ys.mapM g = some zs) :
    zs.map k = xs.map h := by
  induction xs generalizing ys zs with
  | nil =>
    rw [List.mapM_nil] at translated
    obtain rfl := Option.some.inj translated
    rw [List.mapM_nil] at checked
    obtain rfl := Option.some.inj checked
    rfl
  | cons x xs ih =>
    rw [List.mapM_cons] at translated
    obtain ⟨y, first, rest⟩ := Option.bind_eq_some_iff.mp translated
    obtain ⟨ys', later, same⟩ := Option.bind_eq_some_iff.mp rest
    obtain rfl := Option.some.inj same
    rw [List.mapM_cons] at checked
    obtain ⟨z, first', rest'⟩ := Option.bind_eq_some_iff.mp checked
    obtain ⟨zs', later', same'⟩ := Option.bind_eq_some_iff.mp rest'
    obtain rfl := Option.some.inj same'
    rw [List.map_cons, List.map_cons, agree x y z first first', ih later later']

@[simp] theorem boolValue_number (value : Bool) : boolValue (number value) = value := by
  cases value <;> rfl

theorem path_verified {path : Path} {value : PlistValue} {pair : PairPathAndType}
    (translated : pathDict path = some value) (verified : verifyPath value = some pair) :
    pair = sentPath stringToNSString path := by
  obtain ⟨text, pathType⟩ := path
  cases pathType with
  | undeclared raw => cases translated
  | unspecified | literal | leading =>
    obtain rfl := Option.some.inj translated
    simp [verifyPath, stringFor, getBoolValue, boolValue, List.lookup_cons] at verified
    simp [← verified.2, sentPath, sentPathType]

theorem ok_of_toOption {α : Type} {made : Except String α} {a : α}
    (some_ : made.toOption = some a) : made = .ok a := by
  cases made with
  | error message => cases some_
  | ok b => exact congrArg Except.ok (Option.some.inj some_)

theorem process_verified {process : Process} {value : PlistValue} {entry : WatchItemProcess}
    (translated : processDict process = some value) (verified : verifyProcess value = some entry) :
    sentProcess stringToNSString process = .ok entry := by
  cases process with
  | notSet => cases translated
  | binaryPath text | cdHash text | signingId text | certificateSha256 text | teamId text =>
    obtain rfl := Option.some.inj translated
    simp only [verifyProcess] at verified
    split at verified
    · have made := ok_of_toOption verified
      simpa [stringFor, List.lookup_cons, getBoolValue, sentProcess] using made
    · cases verified

theorem lookup_textEntry (key text key' : String) :
    (textEntry key text).lookup key' = if key' = key ∧ text ≠ "" then
      some (.string (stringToNSString text)) else none := by
  unfold textEntry
  by_cases empty : text = ""
  · simp [empty]
  · by_cases same : key' = key <;> simp [empty, same]

@[simp] theorem stringToNSString_empty : stringToNSString "" = "" := rfl

theorem getRuleType_fromProto {ruleType : RuleType} {text : String}
    (known : ruleTypeFromProto ruleType = some text) :
    getRuleType text = some (sentRuleType ruleType) := by
  cases ruleType <;> simp only [ruleTypeFromProto, Option.some.injEq, reduceCtorEq] at known <;>
    subst known <;> decide +kernel

theorem options_received {pbAddRule : Add} {options : NSDictionary} {version : String}
    {processes : List WatchItemProcess} {pathList : List PairPathAndType}
    (translated : optionsFromProtoFAARuleAdd pbAddRule = some options)
    (versioned : policyVersion options "" = some version)
    (paths : pathList = pbAddRule.paths.map (sentPath stringToNSString))
    (made : processes.map .ok = pbAddRule.processes.map (sentProcess stringToNSString)) :
    Carries stringToNSString pbAddRule
      ⟨policyBase (stringToNSString pbAddRule.name) version options processes, pathList⟩ := by
  obtain ⟨ruleType, known, same⟩ := Option.map_eq_some_iff.mp translated
  subst same
  constructor
  case name => rfl
  case paths => exact paths
  case processes => exact made
  case version =>
    simp [policyVersion, verifyString, stringFor, List.lookup_cons] at versioned
    exact versioned.2.symm
  case allowReadAccess => simp [policyBase, getBoolValue, List.lookup_cons]
  case auditOnly => simp [policyBase, getBoolValue, List.lookup_cons]
  case silent => simp [policyBase, getBoolValue, List.lookup_cons]
  case silentTty => simp [policyBase, getBoolValue, List.lookup_cons]
  case ruleType =>
    simp [policyBase, ruleTypeOf, stringFor, List.lookup_cons, getRuleType_fromProto known]
  case customMessage =>
    by_cases empty : pbAddRule.blockMessage = "" <;>
      simp [policyBase, stringFor, List.lookup_cons, List.lookup_append, lookup_textEntry, empty]
  case eventDetailText =>
    by_cases empty : pbAddRule.eventDetailText = "" <;>
      simp [policyBase, stringFor, List.lookup_cons, List.lookup_append, lookup_textEntry, empty]
  case eventDetailUrl =>
    by_cases empty : pbAddRule.eventDetailUrl = "" <;>
      simp [policyBase, stringFor, List.lookup_cons, List.lookup_append, lookup_textEntry, empty]

theorem paths_received {paths : List Path} {values : List PlistValue}
    {pathList : List PairPathAndType} (translated : pathsFromProtoFAARulePaths paths = some values)
    (verified : verifyConfigWatchItemPaths values = some pathList) :
    pathList ≠ [] ∧ pathList = paths.map (sentPath stringToNSString) := by
  obtain ⟨mapped, nonempty⟩ := Option.filter_eq_some_iff.mp verified
  refine ⟨by simpa using nonempty, ?_⟩
  rw [← map_of_mapM (fun _ _ _ => path_verified) translated mapped, List.map_id']

theorem processesFromProto_isSome {processes : List Process} (known : .notSet ∉ processes) :
    ∃ values, processesFromProtoFAARuleProcesses processes = some values := by
  induction processes with
  | nil => exact ⟨[], rfl⟩
  | cons process processes ih =>
    rw [List.mem_cons, not_or] at known
    obtain ⟨values, rest⟩ := ih known.2
    have first : ∃ value, processDict process = some value := by
      cases process with
      | notSet => exact absurd rfl known.1
      | _ => exact ⟨_, rfl⟩
    obtain ⟨value, first⟩ := first
    refine ⟨value :: values, ?_⟩
    rw [processesFromProtoFAARuleProcesses] at rest ⊢
    rw [List.mapM_cons, first, rest]
    rfl

theorem details_received {pbAddRule : Add} {details : NSDictionary} {rule : ParsedRule}
    (known : .notSet ∉ pbAddRule.processes)
    (translated : detailsFromProtoFAARuleAdd pbAddRule = some details)
    (parsed : parseConfigSingleWatchItem (stringToNSString pbAddRule.name) "" details =
      some rule) :
    rule.pathList ≠ [] ∧ Carries stringToNSString pbAddRule rule := by
  obtain ⟨paths, pathsMade, rest⟩ := Option.bind_eq_some_iff.mp translated
  obtain ⟨options, optionsMade, rest⟩ := Option.bind_eq_some_iff.mp rest
  obtain ⟨values, processesMade⟩ := processesFromProto_isSome known
  rw [processesMade] at rest
  obtain rfl := Option.some.inj rest
  obtain ⟨pathList, pathsFound, rest⟩ := Option.bind_eq_some_iff.mp parsed
  obtain ⟨options', optionsFound, rest⟩ := Option.bind_eq_some_iff.mp rest
  obtain ⟨version, versioned, rest⟩ := Option.bind_eq_some_iff.mp rest
  obtain ⟨processes, processesFound, rest⟩ := Option.bind_eq_some_iff.mp rest
  obtain rfl := Option.some.inj rest
  simp [pathsOf] at pathsFound
  simp [optionsOf, List.lookup_cons] at optionsFound
  simp [verifyConfigWatchItemProcesses, List.lookup_cons] at processesFound
  obtain ⟨_, rfl⟩ := optionsFound
  obtain ⟨nonempty, paths⟩ := paths_received pathsMade pathsFound
  exact ⟨nonempty, options_received optionsMade versioned paths
    (map_of_mapM (fun _ _ _ made verified => (process_verified made verified).symm)
      processesMade processesFound)⟩

/-! ### What is loaded -/

theorem stored_row {compile : Bool → String → Option String} {hash : FileAccessRules → String}
    {fails : Nat → Option String} {table : RuleTable} {executionRules : List SantaRule.SNTRule}
    {rule : SNTFileAccessRule} {cleanupType : SNTRuleCleanup} (add : rule.state = .add)
    (stored : (addExecutionRules compile hash fails table executionRules [rule]
      cleanupType).1.success = true) :
    (addExecutionRules compile hash fails table executionRules [rule]
      cleanupType).2.db.fileAccessRules.get rule.name = some ⟨rule.name, rule.details⟩ := by
  rcases @addExecutionRules_cases compile fails hash table executionRules [rule] cleanupType with
    ⟨-, refused⟩ | ⟨-, wrote⟩
  · rw [refused.success] at stored
    cases stored
  · rw [wrote.db.2 rule.name]
    simp [written, KeyedRows.writeAll, fileAccessWrites, KeyedRows.get_write, add]

theorem parseEntry_name {policyVersion : String} {entry : String × PlistValue} {rule : ParsedRule}
    (parsed : parseEntry policyVersion entry = some rule) : rule.base.name = entry.1 := by
  unfold parseEntry at parsed
  split at parsed
  · split at parsed
    · obtain ⟨_, _, rest⟩ := Option.bind_eq_some_iff.mp parsed
      obtain ⟨_, _, rest⟩ := Option.bind_eq_some_iff.mp rest
      obtain ⟨_, _, rest⟩ := Option.bind_eq_some_iff.mp rest
      obtain ⟨_, _, rest⟩ := Option.bind_eq_some_iff.mp rest
      obtain rfl := Option.some.inj rest
      rfl
    · cases parsed
  · cases parsed

theorem dataPolicies_base {rule : ParsedRule} {policy : DataWatchItemPolicy WatchItemPolicyBase}
    (member : policy ∈ rule.dataPolicies) : policy.base = rule.base := by
  unfold ParsedRule.dataPolicies at member
  split at member
  · obtain ⟨_, _, rfl⟩ := List.mem_map.mp member
    rfl
  · obtain ⟨_, _, rfl⟩ := List.mem_map.mp member
    rfl
  · cases member
  · cases member

theorem procPolicies_base {rule : ParsedRule} {policy : WatchItemPolicyBase × List PairPathAndType}
    (member : policy ∈ rule.procPolicies) : policy.1 = rule.base := by
  unfold ParsedRule.procPolicies at member
  split at member
  · cases member
  · cases member
  · rw [List.mem_singleton.mp member]
  · rw [List.mem_singleton.mp member]

theorem filter_policies {Policy : Type} (policies : ParsedRule → List Policy)
    (nameOf : Policy → String)
    (named : ∀ rule policy, policy ∈ policies rule → nameOf policy = rule.base.name)
    (rules : List ParsedRule) (name : String) :
    (rules.flatMap policies).filter (fun policy => nameOf policy = name) =
      (rules.filter fun rule => rule.base.name = name).flatMap policies := by
  induction rules with
  | nil => rfl
  | cons rule rules ih =>
    rw [List.flatMap_cons, List.filter_append, ih]
    by_cases same : rule.base.name = name
    · rw [List.filter_cons_of_pos (by simpa using same), List.flatMap_cons,
        List.filter_eq_self.mpr fun policy member => by simp [named rule policy member, same]]
    · rw [List.filter_cons_of_neg (by simpa using same),
        List.filter_eq_nil_iff.mpr fun policy member => by simp [named rule policy member, same],
        List.nil_append]

def rowRule (unarchive : List UInt8 → Option NSDictionary) (row : FileAccessRow) :
    Option ParsedRule :=
  (unarchive row.ruleData).bind fun details => parseEntry "" (row.name, .dict details)

theorem loadedRules_dbConfig (unarchive : List UInt8 → Option NSDictionary)
    (rows : FileAccessRules) :
    loadedRules (dbConfig (retrieveAllFileAccessRules unarchive rows)) =
      some (rows.rows.filterMap (rowRule unarchive)) := by
  simp [loadedRules, dbConfig, verifyString, verifyConfigKey, stringFor, List.lookup_cons,
    retrieveAllFileAccessRules, List.filterMap_filterMap]
  refine List.filterMap_congr ?_
  intro row _
  rw [rowRule, Option.bind_map]
  rfl

theorem rowRule_name {unarchive : List UInt8 → Option NSDictionary} {row : FileAccessRow}
    {rule : ParsedRule} (parsed : rowRule unarchive row = some rule) :
    rule.base.name = row.name := by
  obtain ⟨_, _, entry⟩ := Option.bind_eq_some_iff.mp parsed
  exact parseEntry_name entry

theorem loaded_policies {unarchive : List UInt8 → Option NSDictionary} {table : RuleTable}
    {row : FileAccessRow} {rule : ParsedRule}
    (here : table.db.fileAccessRules.get row.name = some row)
    (readable : rowRule unarchive row = some rule) :
    ∃ parsed, loadDBRules unarchive table = some parsed ∧
      (parsed.dataPolicies.filter fun policy => policy.base.name = row.name) =
        rule.dataPolicies ∧
      (parsed.procPolicies.filter fun policy => policy.1.name = row.name) = rule.procPolicies := by
  have named : (table.db.fileAccessRules.rows.filterMap (rowRule unarchive)).filter
      (fun rule => rule.base.name = row.name) = [rule] := by
    rw [KeyedRows.filter_filterMap (fun _ _ => rowRule_name), here, Option.bind_some, readable]
    rfl
  refine ⟨_, by rw [loadDBRules, parseConfig, loadedRules_dbConfig]; rfl, ?_, ?_⟩
  · rw [filter_policies ParsedRule.dataPolicies (fun policy => policy.base.name)
      (fun _ _ member => by rw [dataPolicies_base member]), named]
    exact List.append_nil _
  · rw [filter_policies ParsedRule.procPolicies (fun policy => policy.1.name)
      (fun _ _ member => by rw [procPolicies_base member]), named]
    exact List.append_nil _

theorem dataPolicies_injective {base base' : WatchItemPolicyBase}
    {pathList pathList' : List PairPathAndType} (nonempty : pathList ≠ [])
    (same : (pathList.map fun (path, pathType) =>
        (⟨base, path, pathType⟩ : DataWatchItemPolicy WatchItemPolicyBase)) =
      pathList'.map fun (path, pathType) => ⟨base', path, pathType⟩) :
    base = base' ∧ pathList = pathList' := by
  have bases : base = base' := by
    cases pathList with
    | nil => exact absurd rfl nonempty
    | cons pair pairs =>
      cases pathList' with
      | nil => cases same
      | cons pair' pairs' => exact (DataWatchItemPolicy.mk.inj (List.cons.inj same).1).1
  subst bases
  refine ⟨rfl, List.map_injective_iff.mpr ?_ same⟩
  rintro ⟨path, pathType⟩ ⟨path', pathType'⟩ equal
  obtain ⟨-, paths, types⟩ := DataWatchItemPolicy.mk.inj equal
  exact Prod.ext paths types

theorem policies_injective {rule rule' : ParsedRule} (nonempty : rule.pathList ≠ [])
    (data : rule.dataPolicies = rule'.dataPolicies)
    (procs : rule.procPolicies = rule'.procPolicies) : rule = rule' := by
  obtain ⟨base, pathList⟩ := rule
  obtain ⟨base', pathList'⟩ := rule'
  suffices parts : base = base' ∧ pathList = pathList' by rw [parts.1, parts.2]
  cases type : base.ruleType <;> cases type' : base'.ruleType <;>
    simp only [ParsedRule.dataPolicies, ParsedRule.procPolicies, type, type', List.map_eq_nil_iff,
      List.cons.injEq, Prod.mk.injEq, and_true, reduceCtorEq] at data procs
  all_goals first
    | exact dataPolicies_injective nonempty data
    | exact procs

/-! ### Strings that arrive whole -/

def Whole (s : String) : Prop := '\x00' ∉ s.toList

theorem whole_received (s : String) : Whole (stringToNSString s) := by
  intro member
  rw [stringToNSString, String.toList_ofList] at member
  simpa using List.mem_takeWhile_imp member

theorem stringToNSString_eq_iff {s : String} : stringToNSString s = s ↔ Whole s := by
  constructor
  · intro same
    rw [← same]
    exact whole_received s
  · intro whole
    rw [stringToNSString, List.takeWhile_eq_self_iff.mpr, String.ofList_toList]
    intro c member
    have other : c ≠ '\x00' := fun same => whole (same ▸ member)
    simpa using other

theorem nonEmpty_received_iff {text : String} :
    nonEmpty (some (stringToNSString text)) = nonEmpty (some text) ↔ Whole text := by
  rw [← stringToNSString_eq_iff]
  constructor
  · intro same
    by_cases empty : text = ""
    · rw [empty]
      rfl
    · rw [nonEmpty_some text, if_neg empty, nonEmpty_some] at same
      split at same
      · cases same
      · exact Option.some.inj same
  · exact fun same => by rw [same]

theorem eventDetailUrl_received_iff {text : String} :
    (nonEmpty (some text)).map stringToNSString = (nonEmpty (some text)).map id ↔ Whole text := by
  rw [← stringToNSString_eq_iff]
  by_cases empty : text = ""
  · subst empty
    exact iff_of_true rfl rfl
  · simp [empty]

theorem splitAtColonUnit_append {n : Nat} {cs front back : List Char}
    (split : splitAtColonUnit n cs = some (front, back)) : cs = front ++ ':' :: back := by
  induction cs generalizing n front with
  | nil => cases n <;> cases split
  | cons c rest ih =>
    cases n with
    | zero =>
      rw [splitAtColonUnit] at split
      split_ifs at split with colon
      cases split
      rw [colon]
      rfl
    | succ n =>
      rw [splitAtColonUnit] at split
      split_ifs at split
      obtain ⟨parts, before, same⟩ := Option.map_eq_some_iff.mp split
      cases same
      rw [List.cons_append, ← ih before]

theorem extractTeamId_append {sid tid rest : String}
    (extracted : extractTeamId sid = some (tid, rest)) :
    sid.toList = tid.toList ++ ':' :: rest.toList := by
  unfold extractTeamId at extracted
  split at extracted
  · rename_i split
    cases extracted
    rw [String.toList_ofList, String.toList_ofList]
    exact splitAtColonUnit_append (Option.filter_eq_some_iff.mp split).1
  · obtain ⟨parts, split, same⟩ := Option.map_eq_some_iff.mp extracted
    cases same
    rw [String.toList_ofList, String.toList_ofList]
    exact splitAtColonUnit_append (Option.filter_eq_some_iff.mp split).1

theorem whole_of_isPlatform {tid : String} (platform : isPlatform (some tid) = true) :
    Whole tid := by
  intro member
  have lower : '\x00' ∈ (SantaRule.lowercase tid.toList).toList := by
    rw [SantaRule.lowercase, String.toList_ofList]
    exact List.mem_map.mpr ⟨'\x00', member, by decide⟩
  simp only [isPlatform, Option.any_some, decide_eq_true_eq] at platform
  rw [platform] at lower
  exact absurd lower (by decide +kernel)

theorem whole_ofParts {bp sid cdh ch : Option String} {tid : String} :
    Whole (WatchItemProcess.ofParts bp sid (some tid) cdh ch false).teamId ↔ Whole tid := by
  simp only [WatchItemProcess.ofParts]
  cases platform : isPlatform (some tid) with
  | true => exact iff_of_true (by simp [Whole]) (whole_of_isPlatform platform)
  | false => exact Iff.rfl

theorem whole_signingId {id : String} {entry : WatchItemProcess}
    (made : WatchItemProcess.create none (some id) none none none false = .ok entry) :
    Whole id ↔ Whole entry.signingId ∧ Whole entry.teamId := by
  by_cases empty : id = ""
  · subst empty
    obtain rfl := Except.ok.inj made
    exact iff_of_true (by simp [Whole]) (by simp [Whole, WatchItemProcess.ofParts, isPlatform])
  · simp only [WatchItemProcess.create, Option.getD_some, Option.getD_none, ne_eq, empty,
      not_false_eq_true, true_and, not_true_eq_false, Bool.false_eq_true, false_and, and_self,
      reduceCtorEq, if_true, if_false] at made
    cases extracted : extractTeamId id with
    | none => simp [extracted] at made
    | some parts =>
      obtain ⟨tid, rest⟩ := parts
      simp only [extracted] at made
      obtain rfl := Except.ok.inj made
      rw [whole_ofParts]
      simp only [Whole, extractTeamId_append extracted, WatchItemProcess.ofParts, Option.getD_some,
        List.mem_append, List.mem_cons, not_or]
      constructor
      · exact fun whole => ⟨whole.2.2, whole.1⟩
      · exact fun whole => ⟨whole.2, by decide, whole.1⟩

def ProcessWhole : Process → Prop
  | .cdHash hash => hexStringToBuf (utf8 (stringToNSString hash)) = hexStringToBuf (utf8 hash)
  | .binaryPath text | .signingId text | .certificateSha256 text | .teamId text => Whole text
  | .notSet => True

theorem process_whole_iff {process : Process} {entry : WatchItemProcess}
    (made : sentProcess stringToNSString process = .ok entry) :
    Except.ok entry = sentProcess id process ↔ ProcessWhole process := by
  rw [← made]
  cases process with
  | notSet => exact iff_of_true rfl trivial
  | cdHash hash =>
    simp [sentProcess, WatchItemProcess.create, WatchItemProcess.ofParts, ProcessWhole]
  | binaryPath text =>
    simp [sentProcess, WatchItemProcess.create, WatchItemProcess.ofParts, ProcessWhole,
      stringToNSString_eq_iff]
  | certificateSha256 text =>
    simp [sentProcess, WatchItemProcess.create, WatchItemProcess.ofParts, ProcessWhole,
      stringToNSString_eq_iff]
  | teamId text =>
    constructor
    · intro same
      simp [sentProcess, WatchItemProcess.create] at same
      have received := (@whole_ofParts none none none none _).mpr (whole_received text)
      rw [same] at received
      exact whole_ofParts.mp received
    · exact fun whole => by simp only [sentProcess, stringToNSString_eq_iff.mpr whole, id]
  | signingId text =>
    constructor
    · intro same
      have received := (whole_signingId made).mp (whole_received text)
      exact (whole_signingId (same.symm.trans made)).mpr received
    · exact fun whole => by simp only [sentProcess, stringToNSString_eq_iff.mpr whole, id]

structure AllWhole (pbAddRule : Add) : Prop where
  name : Whole pbAddRule.name
  version : Whole pbAddRule.version
  paths : ∀ path ∈ pbAddRule.paths, Whole path.path
  blockMessage : Whole pbAddRule.blockMessage
  eventDetailText : Whole pbAddRule.eventDetailText
  eventDetailUrl : Whole pbAddRule.eventDetailUrl
  processes : ∀ process ∈ pbAddRule.processes, ProcessWhole process

theorem sentPaths_iff {paths : List Path} :
    paths.map (sentPath stringToNSString) = paths.map (sentPath id) ↔
      ∀ path ∈ paths, Whole path.path := by
  rw [List.map_inj_left]
  refine forall_congr' fun path => forall_congr' fun _ => ?_
  simp [sentPath, stringToNSString_eq_iff]

theorem sentProcesses_iff {entries : List WatchItemProcess} {processes : List Process}
    (received : entries.map .ok = processes.map (sentProcess stringToNSString)) :
    entries.map .ok = processes.map (sentProcess id) ↔
      ∀ process ∈ processes, ProcessWhole process := by
  induction processes generalizing entries with
  | nil =>
    rw [List.map_nil] at received
    exact iff_of_true received (by simp)
  | cons process processes ih =>
    cases entries with
    | nil => cases received
    | cons entry entries =>
      obtain ⟨first, rest⟩ := List.cons.inj received
      rw [List.map_cons, List.map_cons, List.cons.injEq, process_whole_iff first.symm, ih rest,
        List.forall_mem_cons]

theorem asSent_iff {pbAddRule : Add} {rule : ParsedRule}
    (received : Carries stringToNSString pbAddRule rule) :
    AsSent pbAddRule rule ↔ AllWhole pbAddRule := by
  constructor
  · intro sent
    constructor
    case name => exact stringToNSString_eq_iff.mp (received.name.symm.trans sent.name)
    case version => exact stringToNSString_eq_iff.mp (received.version.symm.trans sent.version)
    case paths => exact sentPaths_iff.mp (received.paths.symm.trans sent.paths)
    case blockMessage =>
      exact nonEmpty_received_iff.mp (received.customMessage.symm.trans sent.customMessage)
    case eventDetailText =>
      exact nonEmpty_received_iff.mp (received.eventDetailText.symm.trans sent.eventDetailText)
    case eventDetailUrl =>
      exact eventDetailUrl_received_iff.mp (received.eventDetailUrl.symm.trans sent.eventDetailUrl)
    case processes => exact (sentProcesses_iff received.processes).mp sent.processes
  · intro whole
    exact { received with
      name := received.name.trans (stringToNSString_eq_iff.mpr whole.name)
      version := received.version.trans (stringToNSString_eq_iff.mpr whole.version)
      paths := received.paths.trans (sentPaths_iff.mpr whole.paths)
      customMessage :=
        received.customMessage.trans (nonEmpty_received_iff.mpr whole.blockMessage)
      eventDetailText :=
        received.eventDetailText.trans (nonEmpty_received_iff.mpr whole.eventDetailText)
      eventDetailUrl :=
        received.eventDetailUrl.trans (eventDetailUrl_received_iff.mpr whole.eventDetailUrl)
      processes := (sentProcesses_iff received.processes).mpr whole.processes }

/-! ### Enforced as sent -/

theorem mem_of_mapM {α β : Type} {f : α → Option β} {xs : List α} {ys : List β}
    (mapped : xs.mapM f = some ys) : ∀ x ∈ xs, ∃ y, f x = some y := by
  induction xs generalizing ys with
  | nil => exact fun x member => absurd member List.not_mem_nil
  | cons x xs ih =>
    rw [List.mapM_cons] at mapped
    obtain ⟨y, first, rest⟩ := Option.bind_eq_some_iff.mp mapped
    obtain ⟨ys', later, _⟩ := Option.bind_eq_some_iff.mp rest
    exact List.forall_mem_cons.mpr ⟨⟨y, first⟩, ih later⟩

/-- Unknown paths and rule types are refused, and so would be unknown processes if they were looked
    at. -/
theorem details_known {pbAddRule : Add} {details : NSDictionary}
    (translated : detailsFromProtoFAARuleAdd pbAddRule = some details) :
    AllKnown pbAddRule ↔ .notSet ∉ pbAddRule.processes := by
  obtain ⟨paths, pathsMade, rest⟩ := Option.bind_eq_some_iff.mp translated
  obtain ⟨options, optionsMade, _⟩ := Option.bind_eq_some_iff.mp rest
  refine ⟨AllKnown.processes, fun known => ⟨?_, ?_, known⟩⟩
  · intro path member raw undeclared
    obtain ⟨value, made⟩ := mem_of_mapM pathsMade path member
    simp [pathDict, undeclared] at made
  · intro raw undeclared
    simp [optionsFromProtoFAARuleAdd, ruleTypeFromProto, undeclared] at optionsMade

theorem accepted_cases {archive : NSDictionary → List UInt8} {description : String}
    {pbAddRule : Add} {rule : SNTFileAccessRule}
    (accepted : faaRuleFromProtoFAARuleAdd archive description pbAddRule = some rule) :
    ∃ details parsed, detailsFromProtoFAARuleAdd pbAddRule = some details ∧
      parseEntry "" (stringToNSString pbAddRule.name, .dict details) = some parsed ∧
      parseConfigSingleWatchItem (stringToNSString pbAddRule.name) "" details = some parsed ∧
      rule = ⟨.add, stringToNSString pbAddRule.name, archive details, description⟩ := by
  obtain ⟨details, translated, rest⟩ := Option.bind_eq_some_iff.mp accepted
  simp only [isValidRule, Bool.and_eq_true] at rest
  split at rest
  · rename_i valid
    obtain ⟨parsed, found⟩ := Option.isSome_iff_exists.mp valid.2
    have entry : parseEntry "" (stringToNSString pbAddRule.name, .dict details) = some parsed := by
      dsimp only [parseEntry]
      rw [if_pos valid.1]
      exact found
    exact ⟨details, parsed, translated, entry, found, (Option.some.inj rest).symm⟩
  · cases rest

/-- A message that is accepted, stored and loaded is enforced as it was sent just if all its
    processes are known and all its strings arrive whole. -/
theorem enforced_iff (compile : Bool → String → Option String) (hash : FileAccessRules → String)
    (fails : Nat → Option String) (table : RuleTable) (executionRules : List SantaRule.SNTRule)
    (cleanupType : SNTRuleCleanup) {archive : NSDictionary → List UInt8}
    {unarchive : List UInt8 → Option NSDictionary} {description : String} {pbAddRule : Add}
    {rule : SNTFileAccessRule}
    (readsBack : ∀ details, detailsFromProtoFAARuleAdd pbAddRule = some details →
      unarchive (archive details) = some details)
    (accepted : faaRuleFromProtoFAARuleAdd archive description pbAddRule = some rule)
    (stored : (addExecutionRules compile hash fails table executionRules [rule]
      cleanupType).1.success = true) :
    Enforced pbAddRule rule (loadDBRules unarchive (addExecutionRules compile hash fails table
        executionRules [rule] cleanupType).2) ∧ AllKnown pbAddRule ↔
      .notSet ∉ pbAddRule.processes ∧ AllWhole pbAddRule := by
  obtain ⟨details, parsed, translated, entry, found, made⟩ := accepted_cases accepted
  rw [details_known translated, and_comm]
  refine and_congr_right fun known => ?_
  obtain ⟨nonempty, received⟩ := details_received known translated found
  rw [← asSent_iff received]
  have here := stored_row (by rw [made]) stored
  have readable : rowRule unarchive ⟨rule.name, rule.details⟩ = some parsed := by
    rw [made, rowRule, readsBack details translated, Option.bind_some]
    exact entry
  obtain ⟨loaded, loads, data, procs⟩ := loaded_policies here readable
  constructor
  · rintro ⟨loaded', parsed', loads', sent, data', procs'⟩
    obtain rfl := Option.some.inj (loads.symm.trans loads')
    rw [policies_injective nonempty (data.symm.trans data') (procs.symm.trans procs')]
    exact sent
  · exact fun sent => ⟨loaded, parsed, loads, sent, data, procs⟩

def notesRule : Add where
  name := "Notes"
  version := "1"
  paths := [⟨"/tmp/notes", .leading⟩]
  allowReadAccess := false
  blockViolations := true
  ruleType := .pathsWithAllowedProcesses
  enableSilentMode := false
  enableSilentTtyMode := false
  blockMessage := ""
  eventDetailText := ""
  eventDetailUrl := ""
  processes := [.teamId "EQHXZ8M8AV"]

def noRules : RuleTable := ⟨⟨.empty, .empty⟩, "", ""⟩

theorem notes_enforced :
    Enforced notesRule ⟨.add, "Notes", [1], ""⟩
        (loadDBRules (fun _ => detailsFromProtoFAARuleAdd notesRule)
          (addExecutionRules (fun _ _ => none) (fun _ => "") (fun _ => none) noRules []
            [⟨.add, "Notes", [1], ""⟩] .none).2) ∧ AllKnown notesRule ↔
      .notSet ∉ notesRule.processes ∧ AllWhole notesRule :=
  @enforced_iff (fun _ _ => none) (fun _ => "") (fun _ => none) noRules [] .none (fun _ => [1])
    (fun _ => detailsFromProtoFAARuleAdd notesRule) "" notesRule _ (fun _ made => made)
    (by decide +kernel) (by decide +kernel)

/-- A process of an unknown kind beside a known one: the message is accepted, and the rule has no
    processes at all. -/
theorem unknown_process_accepted :
    let pbAddRule := { notesRule with processes := [.teamId "EQHXZ8M8AV", .notSet] }
    let rule : SNTFileAccessRule := ⟨.add, "Notes", [1], ""⟩
    let loaded := loadDBRules (fun _ => detailsFromProtoFAARuleAdd pbAddRule)
      (addExecutionRules (fun _ _ => none) (fun _ => "") (fun _ => none) noRules [] [rule] .none).2
    faaRuleFromProtoFAARuleAdd (fun _ => [1]) "" pbAddRule = some rule ∧
      (loaded.map fun parsed => parsed.dataPolicies.map fun policy => policy.base.processes) =
        some [[]] ∧
      ¬ (Enforced pbAddRule rule loaded ∧ AllKnown pbAddRule) := by
  refine ⟨by decide +kernel, by decide +kernel, ?_⟩
  rintro ⟨-, known⟩
  exact known.processes (by decide)

end SantaFileAccessRules
