import Santa.Common.Configurator

/-!
What a sync service takes from a preflight response. A response of the first
protocol has no second part. Whether a string is a URL is for the operating
system to say.
-/
namespace SantaPreflight
open SantaPolicy SantaConfigurator

inductive FileAccessAction where
  | unspecified
  | none
  | auditOnly
  | disable
  deriving DecidableEq, Repr

inductive SyncType where
  | unspecified
  | normal
  | clean
  | cleanAll
  deriving DecidableEq, Repr

inductive Transition where
  | notSet
  | revoke
  | onDemandMonitorMode (maxMinutes : Nat) (defaultDurationMinutes : Option Nat)
  deriving DecidableEq, Repr

structure PreflightResponseV2 where
  pushServer : String
  pushKey : String
  pushToken : String
  pushDeviceID : String
  pushTags : List String
  pushHMACKey : List UInt8
  modeTransition : Option Transition
  blockNetworkMount : Option Bool
  allowedNetworkMountHosts : List String
  bannedNetworkMountBlockMessage : Option String

structure PreflightResponse where
  enableBundles : Option Bool
  deprecatedBundlesEnabled : Option Bool
  enableTransitiveRules : Option Bool
  deprecatedEnabledTransitiveWhitelisting : Option Bool
  deprecatedTransitiveWhitelistingEnabled : Option Bool
  enableAllEventUpload : Option Bool
  disableUnknownEventUpload : Option Bool
  batchSize : Nat
  pushNotificationFullSyncIntervalSeconds : Nat
  deprecatedFCMFullSyncIntervalSeconds : Nat
  pushNotificationGlobalRuleSyncDeadlineSeconds : Nat
  deprecatedFCMGlobalRuleSyncDeadlineSeconds : Nat
  fullSyncIntervalSeconds : Nat
  clientMode : SNTClientMode
  allowedPathRegex : Option String
  deprecatedWhitelistRegex : Option String
  blockedPathRegex : Option String
  deprecatedBlacklistRegex : Option String
  blockUSBMount : Option Bool
  remountUSBMode : List String
  overrideFileAccessAction : Option FileAccessAction
  exportConfiguration : Option ExportConfiguration
  eventDetailURL : Option String
  eventDetailText : Option String
  syncType : Option SyncType
  deprecatedCleanSync : Bool
  v2 : Option PreflightResponseV2

/-! ### Mode transitions -/

def kMinTemporaryMonitorModeMinutes : Nat := 1
def kMaxTemporaryMonitorModeMinutes : Nat := 1 * 60 * 24 * 30

def clampMinutes (minutes : Nat) : Nat :=
  if minutes < kMinTemporaryMonitorModeMinutes then kMinTemporaryMonitorModeMinutes
  else if minutes > kMaxTemporaryMonitorModeMinutes then kMaxTemporaryMonitorModeMinutes
  else minutes

def clampDefaultDuration (maxMinutes duration : Nat) : Nat :=
  if duration = 0 ∨ duration > maxMinutes then maxMinutes else duration

def initRevocation : ModeTransition := ⟨.revoke, none, none⟩

def initOnDemandMinutes (minutes defaultDuration : Nat) : Option ModeTransition :=
  if minutes = 0 then none
  else
    let maxMinutes := clampMinutes minutes
    some ⟨.onDemand, some maxMinutes, some (clampDefaultDuration maxMinutes defaultDuration)⟩

def initWithCoder (archived : ModeTransition) : ModeTransition :=
  let maxMinutes := clampMinutes (archived.maxMinutes.getD 0)
  ⟨archived.type, some maxMinutes,
    some (clampDefaultDuration maxMinutes (archived.defaultDurationMinutes.getD 0))⟩

theorem clampMinutes_bounds (minutes : Nat) :
    1 ≤ clampMinutes minutes ∧ clampMinutes minutes ≤ kMaxTemporaryMonitorModeMinutes := by
  unfold clampMinutes kMinTemporaryMonitorModeMinutes kMaxTemporaryMonitorModeMinutes
  split
  · omega
  · split <;> omega

theorem clampMinutes_idem (minutes : Nat) :
    clampMinutes (clampMinutes minutes) = clampMinutes minutes := by
  obtain ⟨low, high⟩ := clampMinutes_bounds minutes
  generalize clampMinutes minutes = m at low high
  rw [clampMinutes, if_neg, if_neg]
  · omega
  · unfold kMinTemporaryMonitorModeMinutes
    omega

structure SNTSyncState where
  fullSyncInterval : Nat
  pushNotificationsFullSyncInterval : Nat
  pushNotificationsGlobalRuleSyncDeadline : Nat
  pushServer : Option String
  pushNKey : Option String
  pushJWT : Option String
  pushDeviceID : Option String
  pushTags : Option (List String)
  pushHMACKey : Option (List UInt8)
  clientMode : SNTClientMode
  allowlistRegex : Option String
  blocklistRegex : Option String
  enableBundles : Option Number
  enableTransitiveRules : Option Number
  enableAllEventUpload : Option Number
  disableUnknownEventUpload : Option Number
  blockUSBMount : Option Number
  remountUSBMode : Option (List String)
  blockNetworkMount : Option Number
  bannedNetworkMountBlockMessage : Option String
  allowedNetworkMountHosts : Option (List String)
  overrideFileAccessAction : Option String
  exportConfig : Option ExportConfiguration
  modeTransition : Option ModeTransition
  eventDetailURL : Option String
  eventDetailText : Option String
  syncType : SNTSyncType
  eventBatchSize : Nat

def kDefaultEventBatchSize : Nat := 50
def kMinimumFullSyncInterval : Nat := 60
def kDefaultPushNotificationsGlobalRuleSyncDeadline : Nat := 600

def orElse (value other : Nat) : Nat := if value = 0 then other else value

def atLeast (minimum value : Nat) : Nat := if value < minimum then minimum else value

def nonEmpty (text : String) : Option String := if text.isEmpty then none else some text

def overrideOf : FileAccessAction → Option String
  | .none => some "NONE"
  | .auditOnly => some "AUDIT_ONLY"
  | .disable => some "DISABLE"
  | .unspecified => none

/-- An export configuration counts if it has a URL and form values. -/
def exportConfigOf (isURL : String → Bool) (config : ExportConfiguration) :
    Option ExportConfiguration :=
  if config.url.isEmpty || config.formValues.isEmpty then none
  else if isURL config.url then some config
  else none

/-- The server's word is the last, but for a client that wants a clean slate. -/
def syncTypeOf (resp : PreflightResponse) (requestSyncType : SNTSyncType) : SNTSyncType :=
  match resp.syncType with
  | some .clean => if requestSyncType = .cleanAll then .cleanAll else .clean
  | some .cleanAll => .cleanAll
  | some _ => .normal
  | none =>
      if resp.deprecatedCleanSync then
        if requestSyncType = .cleanAll then .cleanAll else .clean
      else .normal

def modeTransitionOf : Transition → Option ModeTransition
  | .notSet => none
  | .revoke => some initRevocation
  | .onDemandMonitorMode maxMinutes (some defaultDuration) =>
      initOnDemandMinutes maxMinutes defaultDuration
  | .onDemandMonitorMode maxMinutes none => initOnDemandMinutes maxMinutes 0

def preflight (isURL : String → Bool) (resp : PreflightResponse) (requestSyncType : SNTSyncType) :
    SNTSyncState where
  enableBundles := (resp.enableBundles.or resp.deprecatedBundlesEnabled).map .ofBool
  enableTransitiveRules :=
    ((resp.enableTransitiveRules.or resp.deprecatedEnabledTransitiveWhitelisting).or
      resp.deprecatedTransitiveWhitelistingEnabled).map .ofBool
  enableAllEventUpload := resp.enableAllEventUpload.map .ofBool
  disableUnknownEventUpload := resp.disableUnknownEventUpload.map .ofBool
  eventBatchSize := orElse resp.batchSize kDefaultEventBatchSize
  pushNotificationsFullSyncInterval :=
    atLeast kMinimumFullSyncInterval (orElse resp.pushNotificationFullSyncIntervalSeconds
      resp.deprecatedFCMFullSyncIntervalSeconds)
  pushNotificationsGlobalRuleSyncDeadline :=
    atLeast kDefaultPushNotificationsGlobalRuleSyncDeadline
      (orElse resp.pushNotificationGlobalRuleSyncDeadlineSeconds
        resp.deprecatedFCMGlobalRuleSyncDeadlineSeconds)
  fullSyncInterval := atLeast kMinimumFullSyncInterval resp.fullSyncIntervalSeconds
  clientMode := resp.clientMode
  allowlistRegex := resp.allowedPathRegex.or resp.deprecatedWhitelistRegex
  blocklistRegex := resp.blockedPathRegex.or resp.deprecatedBlacklistRegex
  blockUSBMount := resp.blockUSBMount.map .ofBool
  remountUSBMode := resp.blockUSBMount.map fun _ => resp.remountUSBMode
  overrideFileAccessAction := resp.overrideFileAccessAction.bind overrideOf
  exportConfig := resp.exportConfiguration.bind (exportConfigOf isURL)
  eventDetailURL := resp.eventDetailURL
  eventDetailText := resp.eventDetailText
  syncType := syncTypeOf resp requestSyncType
  pushServer := resp.v2.bind fun v2 => nonEmpty v2.pushServer
  pushNKey := resp.v2.bind fun v2 => nonEmpty v2.pushKey
  pushJWT := resp.v2.bind fun v2 => nonEmpty v2.pushToken
  pushDeviceID := resp.v2.bind fun v2 => nonEmpty v2.pushDeviceID
  pushTags := resp.v2.bind fun v2 => if v2.pushTags.isEmpty then none else some v2.pushTags
  pushHMACKey :=
    resp.v2.bind fun v2 => if v2.pushHMACKey.isEmpty then none else some v2.pushHMACKey
  modeTransition := (resp.v2.bind (·.modeTransition)).bind modeTransitionOf
  blockNetworkMount := (resp.v2.bind (·.blockNetworkMount)).map .ofBool
  allowedNetworkMountHosts :=
    resp.v2.bind fun v2 => v2.blockNetworkMount.map fun _ => v2.allowedNetworkMountHosts
  bannedNetworkMountBlockMessage := resp.v2.bind (·.bannedNetworkMountBlockMessage)

end SantaPreflight
