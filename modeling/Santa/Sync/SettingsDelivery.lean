import Santa.Sync.Preflight

/-!
The way of the settings to the daemon: in a bundle, which is encoded and decoded
on the way, and then through the setters of the configurator. Setters that wait in
the queue of the main thread run in their order. A session of temporary Monitor
Mode answers Monitor whatever the settings are; settings are what the getters
answer outside one.
-/
namespace SantaSettingsDelivery
open SantaPolicy SantaConfigurator SantaPreflight

/-! ### Bundles -/

structure SNTConfigBundle where
  clientMode : Option Number := none
  syncType : Option Number := none
  allowlistRegex : Option String := none
  blocklistRegex : Option String := none
  blockUSBMount : Option Number := none
  remountUSBMode : Option (List String) := none
  blockNetworkMount : Option Number := none
  bannedNetworkMountBlockMessage : Option String := none
  allowedNetworkMountHosts : Option (List String) := none
  enableBundles : Option Number := none
  enableTransitiveRules : Option Number := none
  enableAllEventUpload : Option Number := none
  disableUnknownEventUpload : Option Number := none
  overrideFileAccessAction : Option String := none
  exportConfiguration : Option ExportConfiguration := none
  fullSyncLastSuccess : Option Int := none
  ruleSyncLastSuccess : Option Int := none
  modeTransition : Option ModeTransition := none
  eventDetailURL : Option String := none
  eventDetailText : Option String := none
  enableNotificationSilences : Option Number := none

def PostflightConfigBundle (syncState : SNTSyncState) (now : Int) : SNTConfigBundle where
  clientMode :=
    if syncState.clientMode = .unknown then none
    else some (.ofInt (SNTClientMode.rawValue syncState.clientMode))
  syncType :=
    if syncState.syncType ≠ .normal then some (.ofInt SNTSyncType.normal.rawValue) else none
  allowlistRegex := syncState.allowlistRegex
  blocklistRegex := syncState.blocklistRegex
  blockUSBMount := syncState.blockUSBMount
  remountUSBMode := syncState.remountUSBMode
  blockNetworkMount := syncState.blockNetworkMount
  bannedNetworkMountBlockMessage := syncState.bannedNetworkMountBlockMessage
  allowedNetworkMountHosts := syncState.allowedNetworkMountHosts
  enableBundles := syncState.enableBundles
  enableTransitiveRules := syncState.enableTransitiveRules
  enableAllEventUpload := syncState.enableAllEventUpload
  disableUnknownEventUpload := syncState.disableUnknownEventUpload
  overrideFileAccessAction := syncState.overrideFileAccessAction
  exportConfiguration := syncState.exportConfig
  modeTransition := syncState.modeTransition
  eventDetailURL := syncState.eventDetailURL
  eventDetailText := syncState.eventDetailText
  fullSyncLastSuccess := some now

def RuleSyncConfigBundle (now : Int) : SNTConfigBundle := { ruleSyncLastSuccess := some now }

def SyncTypeConfigBundle (syncType : SNTSyncType) : SNTConfigBundle :=
  { syncType := some (.ofInt syncType.rawValue) }

/-! ### Encoding -/

inductive BundleKey where
  | clientMode
  | syncType
  | allowlistRegex
  | blocklistRegex
  | blockUSBMount
  | remountUSBMode
  | blockNetworkMount
  | bannedNetworkMountBlockMessage
  | allowedNetworkMountHosts
  | enableBundles
  | enableTransitiveRules
  | enableAllEventUpload
  | disableUnknownEventUpload
  | overrideFileAccessAction
  | exportConfiguration
  | fullSyncLastSuccess
  | ruleSyncLastSuccess
  | modeTransition
  | eventDetailURL
  | eventDetailText
  | enableNotificationSilences
  deriving DecidableEq, Repr

inductive ArchivedSetting where
  | number (value : Number)
  | string (value : String)
  | date (value : Int)
  | array (elements : List String)
  | exportConfiguration (value : ExportConfiguration)
  | modeTransition (value : ModeTransition)
  deriving DecidableEq, Repr

namespace ArchivedSetting

def number? : ArchivedSetting → Option Number
  | .number value => some value
  | _ => none

def string? : ArchivedSetting → Option String
  | .string value => some value
  | _ => none

def date? : ArchivedSetting → Option Int
  | .date value => some value
  | _ => none

def array? : ArchivedSetting → Option (List String)
  | .array elements => some elements
  | _ => none

def exportConfiguration? : ArchivedSetting → Option ExportConfiguration
  | .exportConfiguration value => some value
  | _ => none

def modeTransition? : ArchivedSetting → Option ModeTransition
  | .modeTransition value => some (initWithCoder value)
  | _ => none

theorem number_back (o : Option Number) : (o.map .number).bind number? = o := by
  cases o <;> rfl

theorem string_back (o : Option String) : (o.map .string).bind string? = o := by
  cases o <;> rfl

theorem date_back (o : Option Int) : (o.map .date).bind date? = o := by
  cases o <;> rfl

theorem array_back (o : Option (List String)) : (o.map .array).bind array? = o := by
  cases o <;> rfl

theorem exportConfiguration_back (o : Option ExportConfiguration) :
    (o.map .exportConfiguration).bind exportConfiguration? = o := by
  cases o <;> rfl

theorem modeTransition_back (o : Option ModeTransition) :
    (o.map .modeTransition).bind modeTransition? = o.map initWithCoder := by
  cases o <;> rfl

end ArchivedSetting

namespace SNTConfigBundle

def encodeWithCoder (b : SNTConfigBundle) : BundleKey → Option ArchivedSetting
  | .clientMode => b.clientMode.map .number
  | .syncType => b.syncType.map .number
  | .allowlistRegex => b.allowlistRegex.map .string
  | .blocklistRegex => b.blocklistRegex.map .string
  | .blockUSBMount => b.blockUSBMount.map .number
  | .remountUSBMode => b.remountUSBMode.map .array
  | .blockNetworkMount => b.blockNetworkMount.map .number
  | .bannedNetworkMountBlockMessage => b.bannedNetworkMountBlockMessage.map .string
  | .allowedNetworkMountHosts => b.allowedNetworkMountHosts.map .array
  | .enableBundles => b.enableBundles.map .number
  | .enableTransitiveRules => b.enableTransitiveRules.map .number
  | .enableAllEventUpload => b.enableAllEventUpload.map .number
  | .disableUnknownEventUpload => b.disableUnknownEventUpload.map .number
  | .overrideFileAccessAction => b.overrideFileAccessAction.map .string
  | .exportConfiguration => b.exportConfiguration.map .exportConfiguration
  | .fullSyncLastSuccess => b.fullSyncLastSuccess.map .date
  | .ruleSyncLastSuccess => b.ruleSyncLastSuccess.map .date
  | .modeTransition => b.modeTransition.map .modeTransition
  | .eventDetailURL => b.eventDetailURL.map .string
  | .eventDetailText => b.eventDetailText.map .string
  | .enableNotificationSilences => b.enableNotificationSilences.map .number

def initWithCoder (archive : BundleKey → Option ArchivedSetting) : SNTConfigBundle where
  clientMode := (archive .clientMode).bind ArchivedSetting.number?
  syncType := (archive .syncType).bind ArchivedSetting.number?
  allowlistRegex := (archive .allowlistRegex).bind ArchivedSetting.string?
  blocklistRegex := (archive .blocklistRegex).bind ArchivedSetting.string?
  blockUSBMount := (archive .blockUSBMount).bind ArchivedSetting.number?
  remountUSBMode := (archive .remountUSBMode).bind ArchivedSetting.array?
  blockNetworkMount := (archive .blockNetworkMount).bind ArchivedSetting.number?
  bannedNetworkMountBlockMessage :=
    (archive .bannedNetworkMountBlockMessage).bind ArchivedSetting.string?
  allowedNetworkMountHosts := (archive .allowedNetworkMountHosts).bind ArchivedSetting.array?
  enableBundles := (archive .enableBundles).bind ArchivedSetting.number?
  enableTransitiveRules := (archive .enableTransitiveRules).bind ArchivedSetting.number?
  enableAllEventUpload := (archive .enableAllEventUpload).bind ArchivedSetting.number?
  disableUnknownEventUpload := (archive .disableUnknownEventUpload).bind ArchivedSetting.number?
  overrideFileAccessAction := (archive .overrideFileAccessAction).bind ArchivedSetting.string?
  exportConfiguration := (archive .exportConfiguration).bind ArchivedSetting.exportConfiguration?
  fullSyncLastSuccess := (archive .fullSyncLastSuccess).bind ArchivedSetting.date?
  ruleSyncLastSuccess := (archive .ruleSyncLastSuccess).bind ArchivedSetting.date?
  modeTransition := (archive .modeTransition).bind ArchivedSetting.modeTransition?
  eventDetailURL := (archive .eventDetailURL).bind ArchivedSetting.string?
  eventDetailText := (archive .eventDetailText).bind ArchivedSetting.string?
  enableNotificationSilences := (archive .enableNotificationSilences).bind ArchivedSetting.number?

theorem decode_encode (b : SNTConfigBundle) :
    initWithCoder b.encodeWithCoder =
      { b with modeTransition := b.modeTransition.map SantaPreflight.initWithCoder } := by
  simp only [initWithCoder, encodeWithCoder, ArchivedSetting.number_back,
    ArchivedSetting.string_back, ArchivedSetting.date_back, ArchivedSetting.array_back,
    ArchivedSetting.exportConfiguration_back, ArchivedSetting.modeTransition_back]

end SNTConfigBundle

/-! ### The daemon -/

structure Archiver (Data : Type) extends Unarchiver Data where
  serializeExport : ExportConfiguration → Data
  serializeMode : ModeTransition → Data
  export_back : ∀ config, deserializeExport (serializeExport config) = some config
  mode_back : ∀ transition,
    deserializeMode (serializeMode transition) = some (initWithCoder transition)

section
variable {Data : Type}

def clientModeOfRaw : Int → SNTClientMode
  | 1 => .monitor
  | 2 => .lockdown
  | 3 => .standalone
  | _ => .unknown

/-- No other number is sent. -/
def syncTypeOfRaw : Int → SNTSyncType
  | 1 => .clean
  | 2 => .cleanAll
  | _ => .normal

def setters (archiver : Archiver Data) (b : SNTConfigBundle) : List (Option (Setter Data)) :=
  [b.clientMode.map fun mode => .clientMode (clientModeOfRaw mode.integerValue),
    b.syncType.map fun type => .syncTypeRequired (syncTypeOfRaw type.integerValue),
    b.allowlistRegex.map fun pattern => .allowedPathRegex (some pattern),
    b.blocklistRegex.map fun pattern => .blockedPathRegex (some pattern),
    b.blockUSBMount.map fun value => .blockUSBMount value.boolValue,
    b.remountUSBMode.map fun args => .remountUSBMode (some args),
    b.blockNetworkMount.map fun value => .blockNetworkMount value.boolValue,
    b.bannedNetworkMountBlockMessage.map fun msg => .bannedNetworkMountBlockMessage (some msg),
    b.allowedNetworkMountHosts.map fun hosts => .allowedNetworkMountHosts (some hosts),
    b.enableBundles.map fun value => .enableBundles value.boolValue,
    b.enableTransitiveRules.map fun value => .enableTransitiveRules value.boolValue,
    b.enableAllEventUpload.map fun value => .enableAllEventUpload value.boolValue,
    b.disableUnknownEventUpload.map fun value => .disableUnknownEventUpload value.boolValue,
    b.overrideFileAccessAction.map .overrideFileAccessAction,
    b.exportConfiguration.map fun config => .exportConfig (some (archiver.serializeExport config)),
    b.fullSyncLastSuccess.map fun date => .fullSyncLastSuccess (some date),
    b.ruleSyncLastSuccess.map fun date => .fullSyncLastSuccess (some date),
    b.modeTransition.map fun transition =>
      .modeTransition transition.type (some (archiver.serializeMode transition)),
    b.eventDetailURL.map fun url => .eventDetailURL (some url),
    b.eventDetailText.map fun text => .eventDetailText (some text)]

def applySetter (engine : RegexEngine) (s : SyncState Data) (setter : Setter Data) :
    SyncState Data :=
  (setter.updates engine).foldl (fun s update => s.update update.1 update.2) s

def callSetter (engine : RegexEngine) (s : SyncState Data) (setter : Option (Setter Data)) :
    SyncState Data :=
  setter.elim s (applySetter engine s)

def updateSyncSettings (engine : RegexEngine) (archiver : Archiver Data) (s : SyncState Data)
    (b : SNTConfigBundle) : SyncState Data :=
  (setters archiver b).foldl (callSetter engine) s

/-! ### One key after all setters -/

def keys : Setter Data → List SyncKey
  | .clientMode _ => [.clientMode]
  | .enableTransitiveRules _ => [.enableTransitiveRules]
  | .enableBundles _ => [.enableBundles]
  | .exportConfig _ => [.exportConfiguration]
  | .modeTransition _ _ => [.modeTransition]
  | .allowedPathRegex _ => [.allowedPathRegex]
  | .blockedPathRegex _ => [.blockedPathRegex]
  | .remountUSBMode _ => [.remountUSBMode]
  | .eventDetailURL _ => [.eventDetailURL]
  | .eventDetailText _ => [.eventDetailText]
  | .fullSyncLastSuccess _ => [.fullSyncLastSuccess, .ruleSyncLastSuccess]
  | .ruleSyncLastSuccess _ => [.ruleSyncLastSuccess]
  | .syncTypeRequired _ => [.syncTypeRequired]
  | .enableAllEventUpload _ => [.enableAllEventUpload]
  | .disableUnknownEventUpload _ => [.disableUnknownEventUpload]
  | .blockUSBMount _ => [.blockUSBMount]
  | .bannedNetworkMountBlockMessage _ => [.bannedNetworkMountBlockMessage]
  | .blockNetworkMount _ => [.blockNetworkMount]
  | .allowedNetworkMountHosts _ => [.allowedNetworkMountHosts]
  | .overrideFileAccessAction _ => [.overrideFileAccessAction]

theorem updates_keys {engine : RegexEngine} {setter : Setter Data}
    {update : SyncKey × Option (Value Data)} (member : update ∈ setter.updates engine) :
    update.1 ∈ keys setter := by
  have keys_eq : (setter.updates engine).map Prod.fst = keys setter ∨
      setter.updates engine = [] := by
    cases setter with
    | clientMode | overrideFileAccessAction =>
      rw [Setter.updates]
      split
      · first | exact .inr rfl | exact .inl rfl
      · first | exact .inr rfl | exact .inl rfl
    | _ => exact .inl rfl
  rcases keys_eq with same | none
  · rw [← same]
    exact List.mem_map_of_mem member
  · rw [none] at member
    cases member

theorem apply_other {engine : RegexEngine} {setter : Setter Data} {key : SyncKey}
    (other : (keys setter).contains key = false) (s : SyncState Data) :
    applySetter engine s setter key = s key := by
  have each : ∀ updates : List (SyncKey × Option (Value Data)), (∀ u ∈ updates, u.1 ≠ key) →
      ∀ s : SyncState Data, updates.foldl (fun s u => s.update u.1 u.2) s key = s key := by
    intro updates
    induction updates with
    | nil => exact fun _ _ => rfl
    | cons u updates ih =>
      intro others s
      rw [List.foldl_cons, ih fun v member => others v (.tail _ member)]
      exact Function.update_of_ne (others u (.head _)).symm _ _
  apply each
  rintro u member rfl
  have there := List.contains_iff_mem.mpr (updates_keys member)
  rw [other] at there
  cases there

theorem callSetter_other {engine : RegexEngine} {α : Type} {o : Option α} {f : α → Setter Data}
    {key : SyncKey} (other : ∀ a, (keys (f a)).contains key = false) (s : SyncState Data) :
    callSetter engine s (o.map f) key = s key := by
  cases o with
  | none => rfl
  | some a => exact apply_other (other a) s

theorem callSetter_none (engine : RegexEngine) (s : SyncState Data) :
    callSetter engine s none = s := rfl

theorem callSetter_home {engine : RegexEngine} {α : Type} {o : Option α} {f : α → Setter Data}
    {key : SyncKey} {s t : SyncState Data} {value : α → Option (Value Data)}
    (before : t key = s key)
    (home : ∀ t a, t key = s key → applySetter engine t (f a) key = value a) :
    callSetter engine t (o.map f) key = o.elim (s key) value := by
  cases o with
  | none => exact before
  | some a => exact home t a before

def settled (engine : RegexEngine) (archiver : Archiver Data) (s : SyncState Data)
    (b : SNTConfigBundle) : SyncState Data
  | .clientMode => b.clientMode.elim (s .clientMode) fun mode =>
      if clientModeOfRaw mode.integerValue = .unknown then s .clientMode
      else some (.number (.ofInt (SNTClientMode.rawValue (clientModeOfRaw mode.integerValue))))
  | .syncTypeRequired => b.syncType.elim (s .syncTypeRequired) fun type =>
      some (.number (.ofInt (syncTypeOfRaw type.integerValue).rawValue))
  | .allowedPathRegex =>
      b.allowlistRegex.elim (s .allowedPathRegex) (regularExpressionWithPattern engine)
  | .blockedPathRegex =>
      b.blocklistRegex.elim (s .blockedPathRegex) (regularExpressionWithPattern engine)
  | .blockUSBMount =>
      b.blockUSBMount.elim (s .blockUSBMount) fun v => some (.number (.ofBool v.boolValue))
  | .remountUSBMode => b.remountUSBMode.elim (s .remountUSBMode) fun args => some (.ofStrings args)
  | .blockNetworkMount =>
      b.blockNetworkMount.elim (s .blockNetworkMount) fun v => some (.number (.ofBool v.boolValue))
  | .bannedNetworkMountBlockMessage =>
      b.bannedNetworkMountBlockMessage.elim (s .bannedNetworkMountBlockMessage) fun msg =>
        some (.string msg)
  | .allowedNetworkMountHosts =>
      b.allowedNetworkMountHosts.elim (s .allowedNetworkMountHosts) fun hosts =>
        some (.ofStrings hosts)
  | .enableBundles =>
      b.enableBundles.elim (s .enableBundles) fun v => some (.number (.ofBool v.boolValue))
  | .enableTransitiveRules => b.enableTransitiveRules.elim (s .enableTransitiveRules) fun v =>
      some (.number (.ofBool v.boolValue))
  | .enableAllEventUpload => b.enableAllEventUpload.elim (s .enableAllEventUpload) fun v =>
      some (.number (.ofBool v.boolValue))
  | .disableUnknownEventUpload =>
      b.disableUnknownEventUpload.elim (s .disableUnknownEventUpload) fun v =>
        some (.number (.ofBool v.boolValue))
  | .overrideFileAccessAction =>
      b.overrideFileAccessAction.elim (s .overrideFileAccessAction) fun action =>
        if acceptedOverride action then some (.string action) else s .overrideFileAccessAction
  | .exportConfiguration => b.exportConfiguration.elim (s .exportConfiguration) fun config =>
      some (.data (archiver.serializeExport config))
  | .fullSyncLastSuccess =>
      (b.ruleSyncLastSuccess.or b.fullSyncLastSuccess).elim (s .fullSyncLastSuccess) fun date =>
        some (.date date)
  | .ruleSyncLastSuccess =>
      (b.ruleSyncLastSuccess.or b.fullSyncLastSuccess).elim (s .ruleSyncLastSuccess) fun date =>
        some (.date date)
  | .modeTransition => b.modeTransition.elim (s .modeTransition) fun transition =>
      if transition.type = .revoke then none
      else some (.data (archiver.serializeMode transition))
  | .eventDetailURL => b.eventDetailURL.elim (s .eventDetailURL) fun url => some (.string url)
  | .eventDetailText => b.eventDetailText.elim (s .eventDetailText) fun text => some (.string text)
  | key => s key

theorem updateSyncSettings_eq (engine : RegexEngine) (archiver : Archiver Data)
    (s : SyncState Data) (b : SNTConfigBundle) :
    updateSyncSettings engine archiver s b = settled engine archiver s b := by
  funext key
  simp only [updateSyncSettings, setters, List.foldl_cons, List.foldl_nil]
  cases key
  all_goals
    simp only [settled]
    repeat rw [callSetter_other (fun _ => rfl)]
  case clientMode =>
    apply callSetter_home rfl
    intro t mode same
    rw [applySetter, Setter.updates]
    split
    · exact same
    · rfl
  case overrideFileAccessAction =>
    refine callSetter_home ?_ ?_
    · repeat rw [callSetter_other (fun _ => rfl)]
    · intro t action same
      rw [applySetter, Setter.updates]
      split
      · rfl
      · exact same
  case fullSyncLastSuccess | ruleSyncLastSuccess =>
    cases b.ruleSyncLastSuccess with
    | some date => rfl
    | none =>
      rw [Option.map_none, callSetter_none, Option.none_or]
      refine callSetter_home ?_ (fun _ _ _ => rfl)
      repeat rw [callSetter_other (fun _ => rfl)]
  all_goals
    refine callSetter_home ?_ (fun _ _ _ => rfl)
    repeat rw [callSetter_other (fun _ => rfl)]

/-! ### What the getters answer -/

def settings (engine : RegexEngine) (archiver : Archiver Data) (profile : SyncState Data) :
    Environment Data := ⟨engine, archiver.toUnarchiver, profile, false⟩

def answers (env : Environment Data) (s : SyncState Data) (b : SNTConfigBundle) (required : Int) :
    Getters :=
  let before := env.getters s
  { clientMode := b.clientMode.elim before.clientMode fun mode =>
      if clientModeOfRaw mode.integerValue = .unknown then before.clientMode
      else clientModeOfRaw mode.integerValue
    enableTransitiveRules :=
      b.enableTransitiveRules.elim before.enableTransitiveRules Number.boolValue
    enableBundles := b.enableBundles.elim before.enableBundles Number.boolValue
    exportConfig := b.exportConfiguration.elim before.exportConfig some
    modeTransition := b.modeTransition.elim before.modeTransition fun transition =>
      if transition.type = .revoke then none else some (initWithCoder transition)
    allowedPathRegex := b.allowlistRegex.elim before.allowedPathRegex fun pattern =>
      (env.engine pattern).or (env.pathRegex (s.update .allowedPathRegex none)
        .allowedPathRegex .allowedPathRegexDeprecated)
    blockedPathRegex := b.blocklistRegex.elim before.blockedPathRegex fun pattern =>
      (env.engine pattern).or (env.pathRegex (s.update .blockedPathRegex none)
        .blockedPathRegex .blockedPathRegexDeprecated)
    remountUSBMode := b.remountUSBMode.elim before.remountUSBMode some
    eventDetailURL := b.eventDetailURL.elim before.eventDetailURL some
    eventDetailText := b.eventDetailText.elim before.eventDetailText some
    fullSyncLastSuccess :=
      (b.ruleSyncLastSuccess.or b.fullSyncLastSuccess).elim before.fullSyncLastSuccess some
    ruleSyncLastSuccess :=
      (b.ruleSyncLastSuccess.or b.fullSyncLastSuccess).elim before.ruleSyncLastSuccess some
    syncTypeRequired := required
    fullSyncInterval := before.fullSyncInterval
    pushNotificationsFullSyncInterval := before.pushNotificationsFullSyncInterval
    enableAllEventUpload := b.enableAllEventUpload.elim before.enableAllEventUpload Number.boolValue
    disableUnknownEventUpload :=
      b.disableUnknownEventUpload.elim before.disableUnknownEventUpload Number.boolValue
    blockUSBMount := b.blockUSBMount.elim before.blockUSBMount Number.boolValue
    bannedNetworkMountBlockMessage :=
      b.bannedNetworkMountBlockMessage.elim before.bannedNetworkMountBlockMessage some
    blockNetworkMount := b.blockNetworkMount.elim before.blockNetworkMount Number.boolValue
    allowedNetworkMountHosts := b.allowedNetworkMountHosts.elim before.allowedNetworkMountHosts some
    overrideFileAccessAction :=
      b.overrideFileAccessAction.elim before.overrideFileAccessAction fun action =>
        if acceptedOverride action then overrideFileAccessActionOf action
        else before.overrideFileAccessAction }

inductive Setting where
  | clientMode
  | enableTransitiveRules
  | enableBundles
  | exportConfig
  | modeTransition
  | allowedPathRegex
  | blockedPathRegex
  | remountUSBMode
  | eventDetailURL
  | eventDetailText
  | fullSyncLastSuccess
  | ruleSyncLastSuccess
  | syncTypeRequired
  | fullSyncInterval
  | pushNotificationsFullSyncInterval
  | enableAllEventUpload
  | disableUnknownEventUpload
  | blockUSBMount
  | bannedNetworkMountBlockMessage
  | blockNetworkMount
  | allowedNetworkMountHosts
  | overrideFileAccessAction
  deriving DecidableEq, Repr

def Unchanged (before after : Getters) : Setting → Prop
  | .clientMode => after.clientMode = before.clientMode
  | .enableTransitiveRules => after.enableTransitiveRules = before.enableTransitiveRules
  | .enableBundles => after.enableBundles = before.enableBundles
  | .exportConfig => after.exportConfig = before.exportConfig
  | .modeTransition => after.modeTransition = before.modeTransition
  | .allowedPathRegex => after.allowedPathRegex = before.allowedPathRegex
  | .blockedPathRegex => after.blockedPathRegex = before.blockedPathRegex
  | .remountUSBMode => after.remountUSBMode = before.remountUSBMode
  | .eventDetailURL => after.eventDetailURL = before.eventDetailURL
  | .eventDetailText => after.eventDetailText = before.eventDetailText
  | .fullSyncLastSuccess => after.fullSyncLastSuccess = before.fullSyncLastSuccess
  | .ruleSyncLastSuccess => after.ruleSyncLastSuccess = before.ruleSyncLastSuccess
  | .syncTypeRequired => after.syncTypeRequired = before.syncTypeRequired
  | .fullSyncInterval => after.fullSyncInterval = before.fullSyncInterval
  | .pushNotificationsFullSyncInterval =>
      after.pushNotificationsFullSyncInterval = before.pushNotificationsFullSyncInterval
  | .enableAllEventUpload => after.enableAllEventUpload = before.enableAllEventUpload
  | .disableUnknownEventUpload =>
      after.disableUnknownEventUpload = before.disableUnknownEventUpload
  | .blockUSBMount => after.blockUSBMount = before.blockUSBMount
  | .bannedNetworkMountBlockMessage =>
      after.bannedNetworkMountBlockMessage = before.bannedNetworkMountBlockMessage
  | .blockNetworkMount => after.blockNetworkMount = before.blockNetworkMount
  | .allowedNetworkMountHosts => after.allowedNetworkMountHosts = before.allowedNetworkMountHosts
  | .overrideFileAccessAction => after.overrideFileAccessAction = before.overrideFileAccessAction

def carries (b : SNTConfigBundle) : Setting → Bool
  | .clientMode => b.clientMode.isSome
  | .enableTransitiveRules => b.enableTransitiveRules.isSome
  | .enableBundles => b.enableBundles.isSome
  | .exportConfig => b.exportConfiguration.isSome
  | .modeTransition => b.modeTransition.isSome
  | .allowedPathRegex => b.allowlistRegex.isSome
  | .blockedPathRegex => b.blocklistRegex.isSome
  | .remountUSBMode => b.remountUSBMode.isSome
  | .eventDetailURL => b.eventDetailURL.isSome
  | .eventDetailText => b.eventDetailText.isSome
  | .fullSyncLastSuccess => b.fullSyncLastSuccess.isSome
  | .ruleSyncLastSuccess => b.ruleSyncLastSuccess.isSome || b.fullSyncLastSuccess.isSome
  | .syncTypeRequired => b.syncType.isSome
  | .fullSyncInterval | .pushNotificationsFullSyncInterval => false
  | .enableAllEventUpload => b.enableAllEventUpload.isSome
  | .disableUnknownEventUpload => b.disableUnknownEventUpload.isSome
  | .blockUSBMount => b.blockUSBMount.isSome
  | .bannedNetworkMountBlockMessage => b.bannedNetworkMountBlockMessage.isSome
  | .blockNetworkMount => b.blockNetworkMount.isSome
  | .allowedNetworkMountHosts => b.allowedNetworkMountHosts.isSome
  | .overrideFileAccessAction => b.overrideFileAccessAction.isSome

def meant : FileAccessAction → Option SNTOverrideFileAccessAction
  | .unspecified => Option.none
  | .none => some .none
  | .auditOnly => some .auditOnly
  | .disable => some .disable

/-- A pattern that does not compile leaves what there is without it. -/
def regexSent (env : Environment Data) (s : SyncState Data) (key deprecated : SyncKey)
    (pattern : String) : Option (String → Bool) :=
  (env.engine pattern).or (env.pathRegex (s.update key none) key deprecated)

/-- The setting is what the response says, if it says anything. Mounts, remounts and hosts are
    said together; the minutes of a transition are kept within the client's limits. -/
def AsSent (env : Environment Data) (isURL : String → Bool) (s : SyncState Data)
    (resp : PreflightResponse) (requestSyncType : SNTSyncType) (now : Int) (after : Getters) :
    Setting → Prop
  | .clientMode => resp.clientMode ≠ .unknown → after.clientMode = resp.clientMode
  | .enableTransitiveRules => ∀ v, (resp.enableTransitiveRules.or
      resp.deprecatedEnabledTransitiveWhitelisting).or
        resp.deprecatedTransitiveWhitelistingEnabled = some v → after.enableTransitiveRules = v
  | .enableBundles =>
      ∀ v, resp.enableBundles.or resp.deprecatedBundlesEnabled = some v → after.enableBundles = v
  | .exportConfig => ∀ config, resp.exportConfiguration = some config →
      config.url ≠ "" → config.formValues ≠ [] → isURL config.url = true →
        after.exportConfig = some config
  | .modeTransition => ∀ transition, resp.v2.bind (·.modeTransition) = some transition →
      (transition = .revoke → after.modeTransition = none) ∧
        ∀ minutes duration, transition = .onDemandMonitorMode minutes duration → minutes ≠ 0 →
          after.modeTransition = some ⟨.onDemand, some (clampMinutes minutes),
            some (clampDefaultDuration (clampMinutes minutes) (duration.getD 0))⟩
  | .allowedPathRegex =>
      ∀ pattern, resp.allowedPathRegex.or resp.deprecatedWhitelistRegex = some pattern →
        after.allowedPathRegex =
          regexSent env s .allowedPathRegex .allowedPathRegexDeprecated pattern
  | .blockedPathRegex =>
      ∀ pattern, resp.blockedPathRegex.or resp.deprecatedBlacklistRegex = some pattern →
        after.blockedPathRegex =
          regexSent env s .blockedPathRegex .blockedPathRegexDeprecated pattern
  | .remountUSBMode =>
      ∀ v, resp.blockUSBMount = some v → after.remountUSBMode = some resp.remountUSBMode
  | .eventDetailURL => ∀ url, resp.eventDetailURL = some url → after.eventDetailURL = some url
  | .eventDetailText => ∀ text, resp.eventDetailText = some text → after.eventDetailText = some text
  | .fullSyncLastSuccess => after.fullSyncLastSuccess = some now
  | .ruleSyncLastSuccess => after.ruleSyncLastSuccess = some now
  | .syncTypeRequired => syncTypeOf resp requestSyncType ≠ .normal →
      after.syncTypeRequired = SNTSyncType.normal.rawValue
  | .fullSyncInterval | .pushNotificationsFullSyncInterval => True
  | .enableAllEventUpload =>
      ∀ v, resp.enableAllEventUpload = some v → after.enableAllEventUpload = v
  | .disableUnknownEventUpload =>
      ∀ v, resp.disableUnknownEventUpload = some v → after.disableUnknownEventUpload = v
  | .blockUSBMount => ∀ v, resp.blockUSBMount = some v → after.blockUSBMount = v
  | .bannedNetworkMountBlockMessage =>
      ∀ msg, resp.v2.bind (·.bannedNetworkMountBlockMessage) = some msg →
        after.bannedNetworkMountBlockMessage = some msg
  | .blockNetworkMount =>
      ∀ v, resp.v2.bind (·.blockNetworkMount) = some v → after.blockNetworkMount = v
  | .allowedNetworkMountHosts => ∀ v2 v, resp.v2 = some v2 → v2.blockNetworkMount = some v →
      after.allowedNetworkMountHosts = some v2.allowedNetworkMountHosts
  | .overrideFileAccessAction => ∀ action, resp.overrideFileAccessAction.bind meant = some action →
      after.overrideFileAccessAction = action

def arrived (b : SNTConfigBundle) : SNTConfigBundle :=
  { b with modeTransition := b.modeTransition.map initWithCoder }

section
variable (engine : RegexEngine) (archiver : Archiver Data) (profile : SyncState Data)
  (isURL : String → Bool) (s : SyncState Data)

end

end

def objects : Archiver (ExportConfiguration ⊕ ModeTransition) where
  deserializeExport
    | .inl config => some config
    | .inr _ => none
  deserializeMode
    | .inr transition => some (initWithCoder transition)
    | .inl _ => none
  serializeExport := .inl
  serializeMode := .inr
  export_back _ := rfl
  mode_back _ := rfl

def auditOnlyResponse : PreflightResponse where
  enableBundles := none
  deprecatedBundlesEnabled := none
  enableTransitiveRules := none
  deprecatedEnabledTransitiveWhitelisting := none
  deprecatedTransitiveWhitelistingEnabled := none
  enableAllEventUpload := none
  disableUnknownEventUpload := none
  batchSize := 0
  pushNotificationFullSyncIntervalSeconds := 0
  deprecatedFCMFullSyncIntervalSeconds := 0
  pushNotificationGlobalRuleSyncDeadlineSeconds := 0
  deprecatedFCMGlobalRuleSyncDeadlineSeconds := 0
  fullSyncIntervalSeconds := 0
  clientMode := .unknown
  allowedPathRegex := none
  deprecatedWhitelistRegex := none
  blockedPathRegex := none
  deprecatedBlacklistRegex := none
  blockUSBMount := none
  remountUSBMode := []
  overrideFileAccessAction := some .auditOnly
  exportConfiguration := none
  eventDetailURL := none
  eventDetailText := none
  syncType := none
  deprecatedCleanSync := false
  v2 := none

end SantaSettingsDelivery
