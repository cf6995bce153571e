import Santa.FileAccess.ProcessMatching
import Santa.FileAccess.WatchItems

/-!
The parser of file access rules. A configuration is a property list; every key that
is looked at must have a value of its kind, and some values are checked further. A
rule that is refused is left out, the others are loaded. The sets of the source are
lists here, in the order in which their elements are inserted. What a refusal says is
only logged and left out.
-/
namespace SantaRuleConfig
open SantaRule (lowercase)
open SantaKillingMachine (kPlatformTeamID)
open SantaFAA SantaProcessMatching SantaWatchItems

/-! ### Property lists -/

inductive PlistValue where
  | string (value : String)
  | number (value : Int)
  | array (items : List PlistValue)
  | dict (entries : List (String × PlistValue))
  | data (bytes : List UInt8)

abbrev NSDictionary := List (String × PlistValue)

inductive PlistClass where
  | string
  | number
  | array
  | dict
  | data
  deriving DecidableEq, Repr

def PlistValue.kind : PlistValue → PlistClass
  | .string _ => .string
  | .number _ => .number
  | .array _ => .array
  | .dict _ => .dict
  | .data _ => .data

/-- The length of a string counts its units. -/
def nsLength (s : String) : Nat := s.toList.foldl (fun n c => n + units c) 0

def stringFor (dict : NSDictionary) (key : String) : Option String :=
  (dict.lookup key).bind fun
    | .string value => some value
    | _ => none

def boolValue : PlistValue → Bool
  | .number value => value ≠ 0
  | _ => false

def getBoolValue (options : NSDictionary) (key : String) (defaultValue : Bool) : Bool :=
  ((options.lookup key).map boolValue).getD defaultValue

/-! ### Keys -/

def kWatchItemConfigKeyVersion : String := "Version"
def kWatchItemConfigKeyEventDetailURL : String := "EventDetailURL"
def kWatchItemConfigKeyEventDetailText : String := "EventDetailText"
def kWatchItemConfigKeyWatchItems : String := "WatchItems"
def kWatchItemConfigKeyPaths : String := "Paths"
def kWatchItemConfigKeyPathsPath : String := "Path"
def kWatchItemConfigKeyPathsIsPrefix : String := "IsPrefix"
def kWatchItemConfigKeyOptions : String := "Options"
def kWatchItemConfigKeyOptionsAllowReadAccess : String := "AllowReadAccess"
def kWatchItemConfigKeyOptionsAuditOnly : String := "AuditOnly"
def kWatchItemConfigKeyOptionsInvertProcessExceptions : String := "InvertProcessExceptions"
def kWatchItemConfigKeyOptionsRuleType : String := "RuleType"
def kWatchItemConfigKeyOptionsEnableSilentMode : String := "EnableSilentMode"
def kWatchItemConfigKeyOptionsEnableSilentTTYMode : String := "EnableSilentTTYMode"
def kWatchItemConfigKeyOptionsCustomMessage : String := "BlockMessage"
def kWatchItemConfigKeyProcesses : String := "Processes"
def kWatchItemConfigKeyProcessesBinaryPath : String := "BinaryPath"
def kWatchItemConfigKeyProcessesCertificateSha256 : String := "CertificateSha256"
def kWatchItemConfigKeyProcessesSigningID : String := "SigningID"
def kWatchItemConfigKeyProcessesTeamID : String := "TeamID"
def kWatchItemConfigKeyProcessesCDHash : String := "CDHash"
def kWatchItemConfigKeyProcessesPlatformBinary : String := "PlatformBinary"

attribute [simp] kWatchItemConfigKeyVersion kWatchItemConfigKeyEventDetailURL
  kWatchItemConfigKeyEventDetailText kWatchItemConfigKeyWatchItems kWatchItemConfigKeyPaths
  kWatchItemConfigKeyPathsPath kWatchItemConfigKeyPathsIsPrefix kWatchItemConfigKeyOptions
  kWatchItemConfigKeyOptionsAllowReadAccess kWatchItemConfigKeyOptionsAuditOnly
  kWatchItemConfigKeyOptionsInvertProcessExceptions kWatchItemConfigKeyOptionsRuleType
  kWatchItemConfigKeyOptionsEnableSilentMode kWatchItemConfigKeyOptionsEnableSilentTTYMode
  kWatchItemConfigKeyOptionsCustomMessage kWatchItemConfigKeyProcesses
  kWatchItemConfigKeyProcessesBinaryPath kWatchItemConfigKeyProcessesCertificateSha256
  kWatchItemConfigKeyProcessesSigningID kWatchItemConfigKeyProcessesTeamID
  kWatchItemConfigKeyProcessesCDHash kWatchItemConfigKeyProcessesPlatformBinary

def kMaxTeamIDLength : Nat := 10
def kMaxSigningIDLength : Nat := 512
def kMaxRuleNameLength : Nat := 63
def kWatchItemConfigOptionCustomMessageMaxLength : Nat := 2048
def kWatchItemConfigEventDetailTextMaxLength : Nat := 48
def kWatchItemConfigEventDetailURLMaxLength : Nat := 6000
def kVersionMaxLength : Nat := 256
def CS_CDHASH_LEN : Nat := 20
def CC_SHA256_DIGEST_LENGTH : Nat := 32

/-! ### Checks -/

abbrev Validator := String → Bool

def lenRangeValidator (minLength maxLength : Nat) : Validator := fun value =>
  minLength ≤ nsLength value && nsLength value ≤ maxLength

def isxdigit (c : Char) : Bool :=
  c.isDigit || ('a' ≤ c && c ≤ 'f') || ('A' ≤ c && c ≤ 'F')

def hexValidator (expectedLength : Nat) : Validator := fun value =>
  nsLength value = expectedLength && value.toList.all isxdigit

def kRuleTypePathsWithAllowedProcesses : String := "pathswithallowedprocesses"
def kRuleTypePathsWithDeniedProcesses : String := "pathswithdeniedprocesses"
def kRuleTypeProcessesWithAllowedPaths : String := "processeswithallowedpaths"
def kRuleTypeProcessesWithDeniedPaths : String := "processeswithdeniedpaths"

def getRuleType (ruleType : String) : Option WatchItemRuleType :=
  let ruleType := lowercase ruleType.toList
  if ruleType = kRuleTypePathsWithAllowedProcesses then some .pathsWithAllowedProcesses
  else if ruleType = kRuleTypePathsWithDeniedProcesses then some .pathsWithDeniedProcesses
  else if ruleType = kRuleTypeProcessesWithAllowedPaths then some .processesWithAllowedPaths
  else if ruleType = kRuleTypeProcessesWithDeniedPaths then some .processesWithDeniedPaths
  else none

/-- A key that is there has a value of the kind, and one that is required is there. -/
def verifyConfigKey (dict : NSDictionary) (key : String) (expected : PlistClass)
    (required : Bool) : Bool :=
  match dict.lookup key with
  | some value => value.kind = expected
  | none => !required

def verifyString (dict : NSDictionary) (key : String) (required : Bool) (validator : Validator) :
    Bool :=
  verifyConfigKey dict key .string required && (stringFor dict key).all validator

/-! ### Paths and processes -/

def verifyPath : PlistValue → Option PairPathAndType
  | .dict pathDict =>
      if verifyString pathDict kWatchItemConfigKeyPathsPath true (lenRangeValidator 1 PATH_MAX) &&
          verifyConfigKey pathDict kWatchItemConfigKeyPathsIsPrefix .number false then
        (stringFor pathDict kWatchItemConfigKeyPathsPath).map fun path =>
          (path, if getBoolValue pathDict kWatchItemConfigKeyPathsIsPrefix false then .kPrefix
            else .kLiteral)
      else none
  | .string path => if lenRangeValidator 1 PATH_MAX path then some (path, .kLiteral) else none
  | _ => none

def verifyConfigWatchItemPaths (paths : List PlistValue) : Option (List PairPathAndType) :=
  (paths.mapM verifyPath).filter fun pathList => pathList ≠ []

def verifyProcess : PlistValue → Option WatchItemProcess
  | .dict process =>
      let teamID := stringFor process kWatchItemConfigKeyProcessesTeamID
      if verifyString process kWatchItemConfigKeyProcessesBinaryPath false
            (lenRangeValidator 1 PATH_MAX) &&
          verifyString process kWatchItemConfigKeyProcessesSigningID false
            (lenRangeValidator 1 kMaxSigningIDLength) &&
          verifyString process kWatchItemConfigKeyProcessesTeamID false
            (lenRangeValidator kPlatformTeamID.length kMaxTeamIDLength) &&
          verifyString process kWatchItemConfigKeyProcessesCDHash false
            (hexValidator (CS_CDHASH_LEN * 2)) &&
          verifyString process kWatchItemConfigKeyProcessesCertificateSha256 false
            (hexValidator (CC_SHA256_DIGEST_LENGTH * 2)) &&
          verifyConfigKey process kWatchItemConfigKeyProcessesPlatformBinary .number false &&
          !(teamID.any fun teamID => nsLength teamID = kPlatformTeamID.length &&
            lowercase teamID.toList ≠ kPlatformTeamID) then
        (WatchItemProcess.create (stringFor process kWatchItemConfigKeyProcessesBinaryPath)
          (stringFor process kWatchItemConfigKeyProcessesSigningID) teamID
          (stringFor process kWatchItemConfigKeyProcessesCDHash)
          (stringFor process kWatchItemConfigKeyProcessesCertificateSha256)
          (getBoolValue process kWatchItemConfigKeyProcessesPlatformBinary false)).toOption
      else none
  | _ => none

def verifyConfigWatchItemProcesses (watchItem : NSDictionary) : Option (List WatchItemProcess) :=
  match watchItem.lookup kWatchItemConfigKeyProcesses with
  | none => some []
  | some (.array processes) => processes.mapM verifyProcess
  | some _ => none

/-! ### Rules -/

structure WatchItemPolicyBase extends WatchItemPolicy where
  name : String
  version : String
  silent : Bool
  silentTty : Bool
  customMessage : Option String
  eventDetailUrl : Option String
  eventDetailText : Option String
  deriving DecidableEq, Repr

def kWatchItemPolicyDefaultAllowReadAccess : Bool := false
def kWatchItemPolicyDefaultAuditOnly : Bool := true
def kWatchItemPolicyDefaultRuleType : WatchItemRuleType := .pathsWithAllowedProcesses
def kWatchItemPolicyDefaultEnableSilentMode : Bool := false
def kWatchItemPolicyDefaultEnableSilentTTYMode : Bool := false

structure ParsedRule where
  base : WatchItemPolicyBase
  pathList : List PairPathAndType
  deriving DecidableEq, Repr

def ParsedRule.dataPolicies (rule : ParsedRule) : List (DataWatchItemPolicy WatchItemPolicyBase) :=
  match rule.base.ruleType with
  | .pathsWithAllowedProcesses | .pathsWithDeniedProcesses =>
      rule.pathList.map fun (path, pathType) => ⟨rule.base, path, pathType⟩
  | .processesWithAllowedPaths | .processesWithDeniedPaths => []

def ParsedRule.procPolicies (rule : ParsedRule) :
    List (WatchItemPolicyBase × List PairPathAndType) :=
  match rule.base.ruleType with
  | .pathsWithAllowedProcesses | .pathsWithDeniedProcesses => []
  | .processesWithAllowedPaths | .processesWithDeniedPaths => [(rule.base, rule.pathList)]

def boolOptions : List String :=
  [kWatchItemConfigKeyOptionsAllowReadAccess, kWatchItemConfigKeyOptionsAuditOnly,
    kWatchItemConfigKeyOptionsInvertProcessExceptions, kWatchItemConfigKeyOptionsEnableSilentMode,
    kWatchItemConfigKeyOptionsEnableSilentTTYMode]

def verifyOptions (options : NSDictionary) : Bool :=
  boolOptions.all (fun key => verifyConfigKey options key .number false) &&
    verifyString options kWatchItemConfigKeyOptionsRuleType false
      (fun value => (getRuleType value).isSome) &&
    verifyString options kWatchItemConfigKeyOptionsCustomMessage false
      (lenRangeValidator 0 kWatchItemConfigOptionCustomMessageMaxLength) &&
    verifyString options kWatchItemConfigKeyEventDetailURL false
      (lenRangeValidator 0 kWatchItemConfigEventDetailURLMaxLength) &&
    verifyString options kWatchItemConfigKeyEventDetailText false
      (lenRangeValidator 0 kWatchItemConfigEventDetailTextMaxLength)

/-- The rule's own version if it has one, which must be valid, and else the fallback. -/
def policyVersion (options : NSDictionary) (fallbackPolicyVersion : String) : Option String :=
  if (options.lookup kWatchItemConfigKeyVersion).isSome then
    if verifyString options kWatchItemConfigKeyVersion true
        (lenRangeValidator 1 kVersionMaxLength) then
      stringFor options kWatchItemConfigKeyVersion
    else none
  else if fallbackPolicyVersion ≠ "" then some fallbackPolicyVersion
  else none

/-- An inverted rule is the older way to name denied processes. -/
def ruleTypeOf (options : NSDictionary) : WatchItemRuleType :=
  match stringFor options kWatchItemConfigKeyOptionsRuleType with
  | some ruleType => (getRuleType ruleType).getD kWatchItemPolicyDefaultRuleType
  | none =>
      match options.lookup kWatchItemConfigKeyOptionsInvertProcessExceptions with
      | some inverted =>
          if boolValue inverted then .pathsWithDeniedProcesses else .pathsWithAllowedProcesses
      | none => kWatchItemPolicyDefaultRuleType

def nonEmpty (text : Option String) : Option String := text.filter (· ≠ "")

@[simp] theorem nonEmpty_none : nonEmpty none = none := rfl

@[simp] theorem nonEmpty_some (text : String) :
    nonEmpty (some text) = if text = "" then none else some text := by
  by_cases empty : text = ""
  · rw [empty]
    rfl
  · simp [nonEmpty, Option.filter, empty]

def policyBase (name version : String) (options : NSDictionary)
    (processes : List WatchItemProcess) : WatchItemPolicyBase where
  name := name
  version := version
  allowReadAccess := getBoolValue options kWatchItemConfigKeyOptionsAllowReadAccess
    kWatchItemPolicyDefaultAllowReadAccess
  auditOnly := getBoolValue options kWatchItemConfigKeyOptionsAuditOnly
    kWatchItemPolicyDefaultAuditOnly
  ruleType := ruleTypeOf options
  silent := getBoolValue options kWatchItemConfigKeyOptionsEnableSilentMode
    kWatchItemPolicyDefaultEnableSilentMode
  silentTty := getBoolValue options kWatchItemConfigKeyOptionsEnableSilentTTYMode
    kWatchItemPolicyDefaultEnableSilentTTYMode
  customMessage := nonEmpty (stringFor options kWatchItemConfigKeyOptionsCustomMessage)
  eventDetailUrl := stringFor options kWatchItemConfigKeyEventDetailURL
  eventDetailText := nonEmpty (stringFor options kWatchItemConfigKeyEventDetailText)
  processes := processes

def optionsOf (watchItem : NSDictionary) : Option NSDictionary :=
  match watchItem.lookup kWatchItemConfigKeyOptions with
  | none => some []
  | some (.dict options) => if verifyOptions options then some options else none
  | some _ => none

def pathsOf (watchItem : NSDictionary) : Option (List PairPathAndType) :=
  match watchItem.lookup kWatchItemConfigKeyPaths with
  | some (.array paths) => verifyConfigWatchItemPaths paths
  | _ => none

def parseConfigSingleWatchItem (name fallbackPolicyVersion : String) (watchItem : NSDictionary) :
    Option ParsedRule := do
  let pathList ← pathsOf watchItem
  let options ← optionsOf watchItem
  let version ← policyVersion options fallbackPolicyVersion
  let processes ← verifyConfigWatchItemProcesses watchItem
  some ⟨policyBase name version options processes, pathList⟩

/-! ### Configurations -/

/-- A pattern's end also stands before one line terminator at the end of the text. -/
def lineTerminators : List (List Char) :=
  [['\n'], ['\x0b'], ['\x0c'], ['\r'], ['\r', '\n'], ['\u0085'], ['\u2028'], ['\u2029']]

def identifierStart (c : Char) : Bool :=
  ('A' ≤ c && c ≤ 'Z') || ('a' ≤ c && c ≤ 'z') || c = '_'

def identifierChars (cs : List Char) : Bool :=
  match cs with
  | [] => false
  | c :: rest => identifierStart c && rest.all fun c => identifierStart c || c.isDigit

def isWatchItemNameValid (name : String) : Bool :=
  nsLength name ≤ kMaxRuleNameLength &&
    (identifierChars name.toList || lineTerminators.any fun terminator =>
      terminator.isSuffixOf name.toList &&
        identifierChars (name.toList.take (name.toList.length - terminator.length)))

def isValidRule (name : String) (rule : NSDictionary) : Bool :=
  isWatchItemNameValid name && (parseConfigSingleWatchItem name "" rule).isSome

def parseEntry (policyVersion : String) (entry : String × PlistValue) : Option ParsedRule :=
  match entry.2 with
  | .dict watchItem =>
      if isWatchItemNameValid entry.1 then
        parseConfigSingleWatchItem entry.1 policyVersion watchItem
      else none
  | _ => none

def loadedRules (config : NSDictionary) : Option (List ParsedRule) := do
  let policyVersion ←
    if (config.lookup kWatchItemConfigKeyVersion).isSome then
      if verifyString config kWatchItemConfigKeyVersion true
          (lenRangeValidator 1 kVersionMaxLength) then
        stringFor config kWatchItemConfigKeyVersion
      else none
    else some ""
  if verifyString config kWatchItemConfigKeyEventDetailURL false
        (lenRangeValidator 0 kWatchItemConfigEventDetailURLMaxLength) &&
      verifyString config kWatchItemConfigKeyEventDetailText false
        (lenRangeValidator 0 kWatchItemConfigEventDetailTextMaxLength) then
    match config.lookup kWatchItemConfigKeyWatchItems with
    | none => some []
    | some (.dict watchItems) => some (watchItems.filterMap (parseEntry policyVersion))
    | some _ => none
  else none

/-- Rules that are refused are ignored. -/
def parseConfig (config : NSDictionary) : Option (ParsedConfig WatchItemPolicyBase) :=
  (loadedRules config).map fun rules =>
    ⟨rules.flatMap ParsedRule.dataPolicies, rules.flatMap ParsedRule.procPolicies, rules.length⟩

def dbConfig (rules : List (String × NSDictionary)) : NSDictionary :=
  [(kWatchItemConfigKeyWatchItems, .dict (rules.map fun (name, details) => (name, .dict details)))]

end SantaRuleConfig
