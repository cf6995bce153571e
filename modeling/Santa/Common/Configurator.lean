import Mathlib.Logic.Function.Basic
import Santa.Policy.PolicyProcessor

/-!
The part of the configuration that comes from the sync server. The sync state is
a dictionary by key; its getters fall back to the profile's values. What the
archiver, the regular expression engine and the file system do is not this
program's: they are arguments here. A file has plain values only, and the file
system writes no others. Of a number only what the code reads is kept.
-/
namespace SantaConfigurator
open SantaPolicy

inductive SyncKey where
  | clientMode
  | blockUSBMount
  | remountUSBMode
  | blockNetworkMount
  | bannedNetworkMountBlockMessage
  | allowedNetworkMountHosts
  | enableTransitiveRules
  | enableTransitiveRulesDeprecated
  | allowedPathRegex
  | allowedPathRegexDeprecated
  | blockedPathRegex
  | blockedPathRegexDeprecated
  | enableAllEventUpload
  | disableUnknownEventUpload
  | overrideFileAccessAction
  | enableBundles
  | eventDetailURL
  | eventDetailText
  | fullSyncLastSuccess
  | ruleSyncLastSuccess
  | syncCleanRequiredDeprecated
  | syncTypeRequired
  | exportConfiguration
  | modeTransition
  | fullSyncInterval
  | fcmFullSyncInterval
  deriving DecidableEq, Repr

def SyncKey.all : List SyncKey :=
  [.clientMode, .blockUSBMount, .remountUSBMode, .blockNetworkMount,
    .bannedNetworkMountBlockMessage, .allowedNetworkMountHosts, .enableTransitiveRules,
    .enableTransitiveRulesDeprecated, .allowedPathRegex, .allowedPathRegexDeprecated,
    .blockedPathRegex, .blockedPathRegexDeprecated, .enableAllEventUpload,
    .disableUnknownEventUpload, .overrideFileAccessAction, .enableBundles, .eventDetailURL,
    .eventDetailText, .fullSyncLastSuccess, .ruleSyncLastSuccess, .syncCleanRequiredDeprecated,
    .syncTypeRequired, .exportConfiguration, .modeTransition, .fullSyncInterval,
    .fcmFullSyncInterval]

theorem SyncKey.mem_all (key : SyncKey) : key ∈ SyncKey.all := by
  cases key <;> decide

structure Number where
  integerValue : Int
  boolValue : Bool
  deriving DecidableEq, Repr

def Number.ofBool (value : Bool) : Number := ⟨if value then 1 else 0, value⟩
def Number.ofInt (value : Int) : Number := ⟨value, decide (value ≠ 0)⟩

/-- An element of an array that is not a string is `none`. -/
inductive Value (Data : Type) where
  | number (value : Number)
  | string (value : String)
  | date (value : Int)
  | data (value : Data)
  | array (elements : List (Option String))
  | dictionary
  | regularExpression (pattern : String)
  deriving DecidableEq, Repr

inductive ObjectClass where
  | number
  | string
  | date
  | data
  | array
  | dictionary
  | regularExpression
  deriving DecidableEq, Repr

namespace Value
variable {Data : Type}

def objectClass : Value Data → ObjectClass
  | .number _ => .number
  | .string _ => .string
  | .date _ => .date
  | .data _ => .data
  | .array _ => .array
  | .dictionary => .dictionary
  | .regularExpression _ => .regularExpression

def isPropertyList (value : Value Data) : Bool := decide (value.objectClass ≠ .regularExpression)

def boolValue : Value Data → Bool
  | .number value => value.boolValue
  | _ => false

def integerValue : Value Data → Int
  | .number value => value.integerValue
  | _ => 0

def string? : Value Data → Option String
  | .string value => some value
  | _ => none

def date? : Value Data → Option Int
  | .date value => some value
  | _ => none

def data? : Value Data → Option Data
  | .data value => some value
  | _ => none

def pattern : Value Data → Option (Value Data)
  | .regularExpression pattern => some (.string pattern)
  | _ => none

/-- An array is given out only if all its elements are strings. -/
def strings? : Value Data → Option (List String)
  | .array elements => elements.mapM id
  | _ => none

def ofStrings (strings : List String) : Value Data := .array (strings.map some)

end Value

/-- Gives the paths that a pattern matches, if it is one. -/
abbrev RegexEngine := String → Option (String → Bool)

structure ExportConfiguration where
  url : String
  formValues : List (String × String)
  deriving DecidableEq, Repr

inductive SNTModeTransitionType where
  | unspecified
  | revoke
  | onDemand
  deriving DecidableEq, Repr

structure ModeTransition where
  type : SNTModeTransitionType
  maxMinutes : Option Nat
  defaultDurationMinutes : Option Nat
  deriving DecidableEq, Repr

structure Unarchiver (Data : Type) where
  deserializeExport : Data → Option ExportConfiguration
  deserializeMode : Data → Option ModeTransition

abbrev SyncState (Data : Type) := SyncKey → Option (Value Data)

/-- A key without a class is dropped when the file is read. -/
def syncServerKeyTypes : SyncKey → Option ObjectClass
  | .clientMode | .blockUSBMount | .blockNetworkMount | .enableTransitiveRules
  | .enableTransitiveRulesDeprecated | .enableAllEventUpload | .enableBundles
  | .syncCleanRequiredDeprecated | .syncTypeRequired | .fullSyncInterval
  | .fcmFullSyncInterval => some .number
  | .allowedPathRegex | .allowedPathRegexDeprecated | .blockedPathRegex
  | .blockedPathRegexDeprecated => some .regularExpression
  | .remountUSBMode | .allowedNetworkMountHosts => some .array
  | .bannedNetworkMountBlockMessage | .overrideFileAccessAction | .eventDetailURL
  | .eventDetailText => some .string
  | .fullSyncLastSuccess | .ruleSyncLastSuccess => some .date
  | .exportConfiguration | .modeTransition => some .data
  | .disableUnknownEventUpload => none

section
variable {Data : Type}

/-! ### Getters -/

namespace SyncState

def empty : SyncState Data := fun _ => none

def count (s : SyncState Data) : Nat := SyncKey.all.countP fun key => (s key).isSome

/-- Setting no value removes the key. -/
def update (s : SyncState Data) (key : SyncKey) (value : Option (Value Data)) : SyncState Data :=
  Function.update s key value

end SyncState

inductive SNTOverrideFileAccessAction where
  | none
  | auditOnly
  | disable
  deriving DecidableEq, Repr

inductive SNTSyncType where
  | normal
  | clean
  | cleanAll
  deriving DecidableEq, Repr

def SNTSyncType.rawValue : SNTSyncType → Int
  | .normal => 0
  | .clean => 1
  | .cleanAll => 2

def SNTClientMode.rawValue : SNTClientMode → Int
  | .unknown => 0
  | .monitor => 1
  | .lockdown => 2
  | .standalone => 3

def clientModeOf (value : Option (Value Data)) : Option SNTClientMode :=
  match (value.map Value.integerValue).getD 0 with
  | 1 => some .monitor
  | 2 => some .lockdown
  | 3 => some .standalone
  | _ => none

def overrideFileAccessActionOf (action : String) : SNTOverrideFileAccessAction :=
  if action.toLower = "audit_only" ∨ action.toLower = "auditonly" then .auditOnly
  else if action.toLower = "disable" then .disable
  else .none

def kDefaultFullSyncInterval : Nat := 600
def kDefaultPushNotificationsFullSyncInterval : Nat := 14400

structure Environment (Data : Type) where
  engine : RegexEngine
  unarchiver : Unarchiver Data
  configState : SyncState Data
  inTemporaryMonitorMode : Bool

namespace Environment
variable (env : Environment Data) (s : SyncState Data)

def clientMode : SNTClientMode :=
  if env.inTemporaryMonitorMode then .monitor
  else
    ((clientModeOf (s .clientMode)).or (clientModeOf (env.configState .clientMode))).getD .monitor

def enableTransitiveRules : Bool :=
  ((((s .enableTransitiveRules).or (s .enableTransitiveRulesDeprecated)).or
    (env.configState .enableTransitiveRulesDeprecated)).or
      (env.configState .enableTransitiveRules)).any Value.boolValue

def flag (key : SyncKey) : Bool := ((s key).or (env.configState key)).any Value.boolValue

def pathRegex (key deprecated : SyncKey) : Option (String → Bool) :=
  match (((s key).or (s deprecated)).or (env.configState key)).or (env.configState deprecated) with
  | some (.regularExpression pattern) => env.engine pattern
  | _ => none

def remountUSBMode : Option (List String) :=
  ((s .remountUSBMode).or (env.configState .remountUSBMode)).bind Value.strings?

def text (key : SyncKey) : Option String := ((s key).or (env.configState key)).bind Value.string?

/-- A dictionary without entries is that of a client which has never synced. -/
def syncTypeRequired (s : SyncState Data) : Int :=
  if s.count = 0 then SNTSyncType.cleanAll.rawValue
  else ((s .syncTypeRequired).map Value.integerValue).getD 0

def interval (s : SyncState Data) (key : SyncKey) (default : Nat) : Nat :=
  ((s key).map fun value => (value.integerValue % 18446744073709551616).toNat).getD default

def overrideFileAccessAction : SNTOverrideFileAccessAction :=
  ((env.text s .overrideFileAccessAction).map overrideFileAccessActionOf).getD .none

def exportConfig : Option ExportConfiguration :=
  ((s .exportConfiguration).bind Value.data?).bind env.unarchiver.deserializeExport

def modeTransition : Option ModeTransition :=
  ((s .modeTransition).bind Value.data?).bind env.unarchiver.deserializeMode

end Environment

structure Getters where
  clientMode : SNTClientMode
  enableTransitiveRules : Bool
  enableBundles : Bool
  exportConfig : Option ExportConfiguration
  modeTransition : Option ModeTransition
  allowedPathRegex : Option (String → Bool)
  blockedPathRegex : Option (String → Bool)
  remountUSBMode : Option (List String)
  eventDetailURL : Option String
  eventDetailText : Option String
  fullSyncLastSuccess : Option Int
  ruleSyncLastSuccess : Option Int
  syncTypeRequired : Int
  fullSyncInterval : Nat
  pushNotificationsFullSyncInterval : Nat
  enableAllEventUpload : Bool
  disableUnknownEventUpload : Bool
  blockUSBMount : Bool
  bannedNetworkMountBlockMessage : Option String
  blockNetworkMount : Bool
  allowedNetworkMountHosts : Option (List String)
  overrideFileAccessAction : SNTOverrideFileAccessAction

def Environment.getters (env : Environment Data) (s : SyncState Data) : Getters where
  clientMode := env.clientMode s
  enableTransitiveRules := env.enableTransitiveRules s
  enableBundles := (s .enableBundles).any Value.boolValue
  exportConfig := env.exportConfig s
  modeTransition := env.modeTransition s
  allowedPathRegex := env.pathRegex s .allowedPathRegex .allowedPathRegexDeprecated
  blockedPathRegex := env.pathRegex s .blockedPathRegex .blockedPathRegexDeprecated
  remountUSBMode := env.remountUSBMode s
  eventDetailURL := env.text s .eventDetailURL
  eventDetailText := env.text s .eventDetailText
  fullSyncLastSuccess := (s .fullSyncLastSuccess).bind Value.date?
  ruleSyncLastSuccess := (s .ruleSyncLastSuccess).bind Value.date?
  syncTypeRequired := Environment.syncTypeRequired s
  fullSyncInterval := Environment.interval s .fullSyncInterval kDefaultFullSyncInterval
  pushNotificationsFullSyncInterval :=
    Environment.interval s .fcmFullSyncInterval kDefaultPushNotificationsFullSyncInterval
  enableAllEventUpload := env.flag s .enableAllEventUpload
  disableUnknownEventUpload := env.flag s .disableUnknownEventUpload
  blockUSBMount := env.flag s .blockUSBMount
  bannedNetworkMountBlockMessage := (s .bannedNetworkMountBlockMessage).bind Value.string?
  blockNetworkMount := (s .blockNetworkMount).any Value.boolValue
  allowedNetworkMountHosts := (s .allowedNetworkMountHosts).bind Value.strings?
  overrideFileAccessAction := env.overrideFileAccessAction s

theorem count_eq_zero_iff {s : SyncState Data} : s.count = 0 ↔ ∀ key, s key = none := by
  rw [SyncState.count, List.countP_eq_zero]
  constructor
  · intro all key
    have unset := all key (SyncKey.mem_all key)
    rwa [Bool.not_eq_true, Option.isSome_eq_false_iff, Option.isNone_iff_eq_none] at unset
  · intro none key _
    rw [none key]
    exact Bool.false_ne_true

theorem syncTypeRequired_eq_iff {s t : SyncState Data}
    (same : s .syncTypeRequired = t .syncTypeRequired) (fewer : t.count = 0 → s.count = 0) :
    Environment.syncTypeRequired s = Environment.syncTypeRequired t ↔
      (s.count = 0 → t.count = 0) := by
  unfold Environment.syncTypeRequired
  by_cases before : t.count = 0
  · rw [if_pos before, if_pos (fewer before)]
    exact iff_of_true rfl fun _ => before
  · rw [if_neg before]
    by_cases after : s.count = 0
    · rw [if_pos after, ← same, count_eq_zero_iff.mp after]
      exact iff_of_false (by simp [SNTSyncType.rawValue]) fun kept => before (kept after)
    · rw [if_neg after, same]
      exact iff_of_true rfl fun empty => absurd empty after

/-! ### Setters -/

def regularExpressionWithPattern (engine : RegexEngine) (pattern : String) : Option (Value Data) :=
  (engine pattern).map fun _ => .regularExpression pattern

/-- What a setter does to the sync state. Objects may be missing; a regular expression is given by
    its pattern, and an archived object by its data. -/
inductive Setter (Data : Type) where
  | clientMode (newMode : SNTClientMode)
  | enableTransitiveRules (enabled : Bool)
  | enableBundles (enable : Bool)
  | exportConfig (serialized : Option Data)
  | modeTransition (type : SNTModeTransitionType) (serialized : Option Data)
  | allowedPathRegex (pattern : Option String)
  | blockedPathRegex (pattern : Option String)
  | remountUSBMode (args : Option (List String))
  | eventDetailURL (url : Option String)
  | eventDetailText (text : Option String)
  | fullSyncLastSuccess (date : Option Int)
  | ruleSyncLastSuccess (date : Option Int)
  | syncTypeRequired (syncType : SNTSyncType)
  | enableAllEventUpload (enabled : Bool)
  | disableUnknownEventUpload (enabled : Bool)
  | blockUSBMount (enabled : Bool)
  | bannedNetworkMountBlockMessage (msg : Option String)
  | blockNetworkMount (enabled : Bool)
  | allowedNetworkMountHosts (hosts : Option (List String))
  | overrideFileAccessAction (action : String)

def acceptedOverride (action : String) : Bool :=
  ["auditonly", "disable", "none", ""].contains action.toLower

def Setter.updates (engine : RegexEngine) : Setter Data → List (SyncKey × Option (Value Data))
  | .clientMode newMode =>
      if newMode = .unknown then []
      else [(.clientMode, some (.number (.ofInt (SNTClientMode.rawValue newMode))))]
  | .enableTransitiveRules enabled =>
      [(.enableTransitiveRules, some (.number (.ofBool enabled)))]
  | .enableBundles enable => [(.enableBundles, some (.number (.ofBool enable)))]
  | .exportConfig serialized => [(.exportConfiguration, serialized.map .data)]
  | .modeTransition type serialized =>
      [(.modeTransition, if type = .revoke then none else serialized.map .data)]
  | .allowedPathRegex pattern =>
      [(.allowedPathRegex, pattern.bind (regularExpressionWithPattern engine))]
  | .blockedPathRegex pattern =>
      [(.blockedPathRegex, pattern.bind (regularExpressionWithPattern engine))]
  | .remountUSBMode args => [(.remountUSBMode, args.map .ofStrings)]
  | .eventDetailURL url => [(.eventDetailURL, url.map .string)]
  | .eventDetailText text => [(.eventDetailText, text.map .string)]
  | .fullSyncLastSuccess date =>
      [(.fullSyncLastSuccess, date.map .date), (.ruleSyncLastSuccess, date.map .date)]
  | .ruleSyncLastSuccess date => [(.ruleSyncLastSuccess, date.map .date)]
  | .syncTypeRequired syncType => [(.syncTypeRequired, some (.number (.ofInt syncType.rawValue)))]
  | .enableAllEventUpload enabled => [(.enableAllEventUpload, some (.number (.ofBool enabled)))]
  | .disableUnknownEventUpload enabled =>
      [(.disableUnknownEventUpload, some (.number (.ofBool enabled)))]
  | .blockUSBMount enabled => [(.blockUSBMount, some (.number (.ofBool enabled)))]
  | .bannedNetworkMountBlockMessage msg => [(.bannedNetworkMountBlockMessage, msg.map .string)]
  | .blockNetworkMount enabled => [(.blockNetworkMount, some (.number (.ofBool enabled)))]
  | .allowedNetworkMountHosts hosts => [(.allowedNetworkMountHosts, hosts.map .ofStrings)]
  | .overrideFileAccessAction action =>
      if acceptedOverride action then [(.overrideFileAccessAction, some (.string action))] else []

/-! ### The file -/

structure SyncStateFile (Data : Type) where
  values : SyncState Data
  plain : ∀ key value, values key = some value → value.isPropertyList = true

/-- The file system writes plain values only. -/
def writeToFile (s : SyncState Data) : Option (SyncStateFile Data) :=
  if plain : SyncKey.all.all (fun key => (s key).all Value.isPropertyList) = true then
    some ⟨s, fun key value there => by
      have each := List.all_eq_true.mp plain key (SyncKey.mem_all key)
      rwa [there] at each⟩
  else none

def withPatterns (s : SyncState Data) : SyncState Data := fun key =>
  if key = .allowedPathRegex ∨ key = .blockedPathRegex then (s key).bind Value.pattern else s key

def saveSyncStateToDisk (s : SyncState Data) (disk : Option (SyncStateFile Data)) :
    Option (SyncStateFile Data) :=
  (writeToFile (withPatterns s)).or disk

def anchored (pattern : String) : String :=
  if pattern.toList.head? = some '^' then pattern else "^" ++ pattern

def expressionForPattern (engine : RegexEngine) (pattern : String) : Option (Value Data) :=
  regularExpressionWithPattern engine (anchored pattern)

def readValue (engine : RegexEngine) (key : SyncKey) (value : Value Data) : Option (Value Data) :=
  if syncServerKeyTypes key = some .regularExpression then
    value.string?.bind (expressionForPattern engine)
  else if syncServerKeyTypes key = some value.objectClass then some value
  else none

def readSyncStateFromDisk (engine : RegexEngine) (file : SyncStateFile Data) : SyncState Data :=
  fun key => (file.values key).bind (readValue engine key)

def migrateDeprecatedSyncStateKeys (s : SyncState Data) : Option (SyncState Data) :=
  (s .syncCleanRequiredDeprecated).map fun cleanRequired =>
    let syncType := if cleanRequired.boolValue then SNTSyncType.clean else .normal
    let s := if (s .syncTypeRequired).isNone then
        s.update .syncTypeRequired (some (.number (.ofInt syncType.rawValue)))
      else s
    s.update .syncCleanRequiredDeprecated none

end

end SantaConfigurator
