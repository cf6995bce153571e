import Santa.Sync.EventUpload
import Santa.Sync.RuleDownload
import Santa.Sync.SettingsDelivery

/-!
A sync: the manager runs the stages one after the other, each as the one before it
has succeeded. Timers, reachability and push credentials are left out. A request
that fails after all attempts has no response.
-/
namespace SantaSyncManager
open SantaConfigurator SantaPreflight SantaSettingsDelivery

inductive SNTSyncStatusType where
  | success
  | preflightFailed
  | eventUploadFailed
  | ruleDownloadFailed
  | postflightFailed
  | tooManySyncsInProgress
  | missingSyncBaseURL
  | missingMachineID
  | daemonTimeout
  | syncStarted
  | failedXPCConnection
  | unknown
  deriving DecidableEq, Repr

inductive Stage where
  | preflight
  | eventUpload
  | ruleDownload
  | postflight
  deriving DecidableEq, Repr

def Stage.earlier : Stage → List Stage
  | .preflight => []
  | .eventUpload => [.preflight]
  | .ruleDownload => [.preflight, .eventUpload]
  | .postflight => [.preflight, .eventUpload, .ruleDownload]

structure Responses where
  preflight : Option PreflightResponse
  eventUpload : Nat → Option (List String)
  ruleDownload : List (Option SantaRuleDownload.Page)
  postflight : Option Unit

structure Client (Data : Type) where
  syncBaseURL : String
  machineID : String
  isSyncV2 : Bool
  enableCleanSyncEventUpload : Bool
  engine : RegexEngine
  archiver : Archiver Data
  isURL : String → Bool
  daemon : SantaRuleDownload.Daemon
  now : Int

structure World (Data Details : Type) where
  settings : SyncState Data
  eventTable : SantaEventUpload.EventTable Details
  ruleTable : SantaRuleTable.RuleTable

structure Ran (Data Details : Type) where
  status : SNTSyncStatusType
  stages : List Stage
  bundles : List SNTConfigBundle
  world : World Data Details

section
variable {Data Details : Type}

def Ran.after (ran : Ran Data Details) (stage : Stage) (bundles : List SNTConfigBundle) :
    Ran Data Details :=
  { ran with stages := stage :: ran.stages, bundles := bundles ++ ran.bundles }

def received (c : Client Data) (settings : SyncState Data) (b : SNTConfigBundle) : SyncState Data :=
  updateSyncSettings c.engine c.archiver settings (.initWithCoder b.encodeWithCoder)

/-! ### The stages -/

def SNTSyncPreflight.sync (c : Client Data) (r : Responses) (w : World Data Details) :
    Option SNTSyncState :=
  let requestSyncType := syncTypeOfRaw (Environment.syncTypeRequired w.settings)
  r.preflight.map fun resp => preflight c.isURL resp requestSyncType

def session (c : Client Data) (r : Responses) (syncState : SNTSyncState) :
    SantaEventUpload.Session where
  isV2 := c.isSyncV2
  syncType := syncState.syncType
  eventBatchSize := syncState.eventBatchSize
  enableCleanSyncEventUpload := c.enableCleanSyncEventUpload
  answers := r.eventUpload

def SNTSyncEventUpload.sync (c : Client Data) (r : Responses) (syncState : SNTSyncState)
    (w : World Data Details) : Bool × World Data Details :=
  let (complete, _, eventTable) := SantaEventUpload.sync (session c r syncState) w.eventTable
  (complete, { w with eventTable := eventTable })

def SNTSyncRuleDownload.sync (c : Client Data) (r : Responses) (syncType : SNTSyncType)
    (w : World Data Details) : Bool × List SNTConfigBundle × World Data Details :=
  let synced := SantaRuleDownload.sync c.daemon c.isSyncV2 syncType r.ruleDownload w.ruleTable
  let w := { w with ruleTable := synced.table }
  if synced.recorded then
    let bundle := RuleSyncConfigBundle c.now
    (synced.success, [bundle], { w with settings := received c w.settings bundle })
  else (synced.success, [], w)

/-- The response is not looked at. -/
def SNTSyncPostflight.sync (c : Client Data) (_ : Responses) (syncState : SNTSyncState)
    (w : World Data Details) : Bool × List SNTConfigBundle × World Data Details :=
  let bundle := PostflightConfigBundle syncState c.now
  (true, [bundle], { w with settings := received c w.settings bundle })

/-! ### The chain -/

def postflightWithSyncState (c : Client Data) (r : Responses) (syncState : SNTSyncState)
    (w : World Data Details) : Ran Data Details :=
  let (complete, bundles, w) := SNTSyncPostflight.sync c r syncState w
  if complete then ⟨.success, [.postflight], bundles, w⟩
  else ⟨.postflightFailed, [.postflight], bundles, w⟩

def ruleDownloadWithSyncState (c : Client Data) (r : Responses) (syncState : SNTSyncState)
    (w : World Data Details) : Ran Data Details :=
  let (complete, bundles, w) := SNTSyncRuleDownload.sync c r syncState.syncType w
  if complete then (postflightWithSyncState c r syncState w).after .ruleDownload bundles
  else ⟨.ruleDownloadFailed, [.ruleDownload], bundles, w⟩

def eventUploadWithSyncState (c : Client Data) (r : Responses) (syncState : SNTSyncState)
    (w : World Data Details) : Ran Data Details :=
  let (complete, w) := SNTSyncEventUpload.sync c r syncState w
  if complete then (ruleDownloadWithSyncState c r syncState w).after .eventUpload []
  else ⟨.eventUploadFailed, [.eventUpload], [], w⟩

def preflightWithSyncState (c : Client Data) (r : Responses) (preflightOnly : Bool)
    (w : World Data Details) : Ran Data Details :=
  match SNTSyncPreflight.sync c r w with
  | none => ⟨.preflightFailed, [.preflight], [], w⟩
  | some syncState =>
      if preflightOnly then ⟨.success, [.preflight], [], w⟩
      else (eventUploadWithSyncState c r syncState w).after .preflight []

def createSyncStateWithStatus (c : Client Data) : Option SNTSyncStatusType :=
  if c.syncBaseURL = "" then some .missingSyncBaseURL
  else if c.machineID = "" then some .missingMachineID
  else none

def runSync (c : Client Data) (r : Responses) (preflightOnly : Bool) (w : World Data Details) :
    Ran Data Details :=
  match createSyncStateWithStatus c with
  | some status => ⟨status, [], [], w⟩
  | none => preflightWithSyncState c r preflightOnly w

/-- Rules only, outside any other sync. -/
def ruleSyncImpl (c : Client Data) (r : Responses) (w : World Data Details) :
    List SNTConfigBundle × World Data Details :=
  match createSyncStateWithStatus c with
  | some _ => ([], w)
  | none => (SNTSyncRuleDownload.sync c r .normal w).2

/-! ### What a success says -/

def Succeeded (c : Client Data) (r : Responses) (w : World Data Details) : Stage → Prop
  | .preflight => r.preflight.isSome = true
  | .eventUpload => ∃ syncState, SNTSyncPreflight.sync c r w = some syncState ∧
      (SantaEventUpload.uploadEvents (session c r syncState) w.eventTable.rows).success = true
  | .ruleDownload => ∃ syncState, SNTSyncPreflight.sync c r w = some syncState ∧
      (SantaRuleDownload.sync c.daemon c.isSyncV2 syncState.syncType r.ruleDownload
        w.ruleTable).success = true
  | .postflight => r.postflight.isSome = true

def allStages : List Stage := [.preflight, .eventUpload, .ruleDownload, .postflight]

def setsFullSyncLastSuccess (c : Client Data) (b : SNTConfigBundle) : Prop :=
  ∃ date, some (.fullSyncLastSuccess (some date)) ∈
    setters c.archiver (.initWithCoder b.encodeWithCoder)

/-- A sync that is reported successful, or recorded as a full one, has succeeded in all its
    stages, and no stage runs after one that has not. -/
structure SuccessMeansAll (c : Client Data) (r : Responses) (preflightOnly : Bool)
    (w : World Data Details) : Prop where
  status : (runSync c r preflightOnly w).status = .success →
    ∀ stage ∈ if preflightOnly then [.preflight] else allStages, Succeeded c r w stage
  recorded : (∃ b ∈ (runSync c r preflightOnly w).bundles, setsFullSyncLastSuccess c b) →
    ∀ stage ∈ allStages, Succeeded c r w stage
  stops : ∀ stage ∈ (runSync c r preflightOnly w).stages, ∀ before ∈ stage.earlier,
    Succeeded c r w before

def RulesAdded (c : Client Data) (r : Responses) (syncType : SNTSyncType) : Prop :=
  ∃ got, SantaRuleDownload.DownloadNewRulesFromServer c.isSyncV2 r.ruleDownload .none = some got ∧
    SantaRuleDownload.Succeeds c.daemon syncType got

def UploadsAnswered (c : Client Data) (r : Responses) (syncState : SNTSyncState)
    (events : List (SantaEventUpload.SNTStoredEvent Details)) : Prop :=
  let upload := session c r syncState
  ∀ i < (SantaEventUpload.requests upload (SantaEventUpload.batches upload events)).length,
    (r.eventUpload i).isSome = true

theorem preflight_succeeded {c : Client Data} {r : Responses} {syncState : SNTSyncState}
    {w : World Data Details} (negotiated : SNTSyncPreflight.sync c r w = some syncState) :
    Succeeded c r w .preflight := by
  obtain ⟨resp, response, -⟩ := Option.map_eq_some_iff.mp negotiated
  rw [Succeeded, response]
  rfl

theorem eventUpload_succeeded_iff {c : Client Data} {r : Responses} {syncState : SNTSyncState}
    {w : World Data Details} (negotiated : SNTSyncPreflight.sync c r w = some syncState) :
    Succeeded c r w .eventUpload ↔ UploadsAnswered c r syncState w.eventTable.rows := by
  have answered :=
    SantaEventUpload.uploadEvents_success_iff (session c r syncState) w.eventTable.rows
  constructor
  · rintro ⟨other, same, success⟩
    rw [negotiated, Option.some.injEq] at same
    rw [← same] at success
    exact answered.mp success
  · exact fun all => ⟨syncState, negotiated, answered.mpr all⟩

theorem ruleDownload_success_iff (c : Client Data) (r : Responses) (syncType : SNTSyncType)
    (table : SantaRuleTable.RuleTable) :
    (SantaRuleDownload.sync c.daemon c.isSyncV2 syncType r.ruleDownload table).success = true ↔
      RulesAdded c r syncType := by
  cases downloaded :
      SantaRuleDownload.DownloadNewRulesFromServer c.isSyncV2 r.ruleDownload .none with
  | none =>
    apply iff_of_false
    · rw [SantaRuleDownload.sync, downloaded]
      exact Bool.false_ne_true
    · rintro ⟨got, some_rules, -⟩
      rw [downloaded] at some_rules
      cases some_rules
  | some got =>
    rw [(SantaRuleDownload.sync_cases c.daemon table syncType downloaded).1]
    constructor
    · exact fun succeeds => ⟨got, downloaded, succeeds⟩
    · rintro ⟨other, same, succeeds⟩
      rw [downloaded, Option.some.injEq] at same
      rwa [same]

theorem ruleDownload_succeeded_iff {c : Client Data} {r : Responses} {syncState : SNTSyncState}
    {w : World Data Details} (negotiated : SNTSyncPreflight.sync c r w = some syncState) :
    Succeeded c r w .ruleDownload ↔ RulesAdded c r syncState.syncType := by
  rw [Succeeded, ← ruleDownload_success_iff c r syncState.syncType w.ruleTable]
  constructor
  · rintro ⟨other, same, success⟩
    rw [negotiated, Option.some.injEq] at same
    rwa [same]
  · exact fun success => ⟨syncState, negotiated, success⟩

theorem ruleDownload_recorded {d : SantaRuleDownload.Daemon} {isV2 : Bool} {syncType : SNTSyncType}
    {responses : List (Option SantaRuleDownload.Page)} {table : SantaRuleTable.RuleTable}
    (recorded : (SantaRuleDownload.sync d isV2 syncType responses table).recorded = true) :
    (SantaRuleDownload.sync d isV2 syncType responses table).success = true := by
  unfold SantaRuleDownload.sync at recorded ⊢
  split at recorded
  · cases recorded
  next got downloaded =>
    simp only at recorded ⊢
    by_cases empty : got.isEmpty = true
    · rw [if_pos empty]
    rw [if_neg empty] at recorded ⊢
    split at recorded
    next added =>
      rw [if_pos added]
    · cases recorded

theorem eventUploadWithSyncState_cases (c : Client Data) (r : Responses) (syncState : SNTSyncState)
    (w : World Data Details) :
    let ran := eventUploadWithSyncState c r syncState w
    (RulesAdded c r syncState.syncType ∧ ran.status = .success ∧
        ran.stages = [.eventUpload, .ruleDownload, .postflight]) ∨
      (¬ RulesAdded c r syncState.syncType ∧ ran.status = .ruleDownloadFailed ∧
        ran.stages = [.eventUpload, .ruleDownload] ∧ ran.bundles = []) := by
  intro ran
  obtain ⟨w', same_rules, goes_on⟩ : ∃ w' : World Data Details, w'.ruleTable = w.ruleTable ∧
      ran = (ruleDownloadWithSyncState c r syncState w').after .eventUpload [] :=
    ⟨(SNTSyncEventUpload.sync c r syncState w).2, rfl, rfl⟩
  have success := ruleDownload_success_iff c r syncState.syncType w'.ruleTable
  have recorded := @ruleDownload_recorded c.daemon c.isSyncV2 syncState.syncType r.ruleDownload
    w'.ruleTable
  rw [goes_on, ruleDownloadWithSyncState, SNTSyncRuleDownload.sync]
  generalize SantaRuleDownload.sync c.daemon c.isSyncV2 syncState.syncType r.ruleDownload
    w'.ruleTable = synced at success recorded
  obtain ⟨complete, records, table⟩ := synced
  simp only at success recorded
  cases complete with
  | true =>
    refine .inl ⟨success.mp rfl, ?_⟩
    cases records with
    | true => exact ⟨rfl, rfl⟩
    | false => exact ⟨rfl, rfl⟩
  | false =>
    refine .inr ⟨fun added => Bool.false_ne_true (success.mpr added), ?_⟩
    cases records with
    | true => exact absurd (recorded rfl) Bool.false_ne_true
    | false => exact ⟨rfl, rfl, rfl⟩

def NothingIgnored (c : Client Data) (r : Responses) (preflightOnly : Bool)
    (w : World Data Details) : Prop :=
  createSyncStateWithStatus c = none → preflightOnly = false →
    ∀ syncState, SNTSyncPreflight.sync c r w = some syncState →
      UploadsAnswered c r syncState w.eventTable.rows ∧
        (RulesAdded c r syncState.syncType → r.postflight.isSome = true)

theorem createSyncStateWithStatus_ne_success (c : Client Data) :
    createSyncStateWithStatus c ≠ some .success := by
  unfold createSyncStateWithStatus
  split
  · simp
  · split <;> simp

theorem successMeansAll_of_short {c : Client Data} {r : Responses} {preflightOnly : Bool}
    {w : World Data Details}
    (status : (runSync c r preflightOnly w).status = .success →
      preflightOnly = true ∧ Succeeded c r w .preflight)
    (bundles : (runSync c r preflightOnly w).bundles = [])
    (stages : ∀ stage ∈ (runSync c r preflightOnly w).stages, stage = .preflight) :
    SuccessMeansAll c r preflightOnly w := by
  constructor
  · intro success stage member
    obtain ⟨only, responded⟩ := status success
    rw [if_pos only, List.mem_singleton] at member
    rwa [member]
  · rintro ⟨b, impossible, -⟩
    rw [bundles] at impossible
    cases impossible
  · intro stage member before impossible
    rw [stages stage member] at impossible
    cases impossible

theorem successMeansAll_of_not_created {c : Client Data} {r : Responses} {preflightOnly : Bool}
    {w : World Data Details} {status : SNTSyncStatusType}
    (not_created : createSyncStateWithStatus c = some status) :
    SuccessMeansAll c r preflightOnly w := by
  have ran : runSync c r preflightOnly w = ⟨status, [], [], w⟩ := by
    rw [runSync, not_created]
  apply successMeansAll_of_short
  · rw [ran]
    rintro rfl
    exact absurd not_created (createSyncStateWithStatus_ne_success c)
  · rw [ran]
  · rw [ran]
    exact fun stage impossible => nomatch impossible

theorem successMeansAll_of_not_negotiated {c : Client Data} {r : Responses}
    {preflightOnly : Bool} {w : World Data Details}
    (created : createSyncStateWithStatus c = none)
    (not_negotiated : SNTSyncPreflight.sync c r w = none) :
    SuccessMeansAll c r preflightOnly w := by
  have ran : runSync c r preflightOnly w = ⟨.preflightFailed, [.preflight], [], w⟩ := by
    rw [runSync, created]
    simp only [preflightWithSyncState, not_negotiated]
  apply successMeansAll_of_short
  · rw [ran]
    exact nofun
  · rw [ran]
  · rw [ran]
    exact fun stage member => List.mem_singleton.mp member

theorem successMeansAll_of_preflightOnly {c : Client Data} {r : Responses}
    {w : World Data Details} {syncState : SNTSyncState}
    (created : createSyncStateWithStatus c = none)
    (negotiated : SNTSyncPreflight.sync c r w = some syncState) :
    SuccessMeansAll c r true w := by
  have ran : runSync c r true w = ⟨.success, [.preflight], [], w⟩ := by
    rw [runSync, created]
    simp only [preflightWithSyncState, negotiated, if_true]
  apply successMeansAll_of_short
  · exact fun _ => ⟨rfl, preflight_succeeded negotiated⟩
  · rw [ran]
  · rw [ran]
    exact fun stage member => List.mem_singleton.mp member

theorem successMeansAll_iff_of_negotiated {c : Client Data} {r : Responses}
    {w : World Data Details} {syncState : SNTSyncState}
    (created : createSyncStateWithStatus c = none)
    (negotiated : SNTSyncPreflight.sync c r w = some syncState) :
    SuccessMeansAll c r false w ↔
      Succeeded c r w .eventUpload ∧
        (Succeeded c r w .ruleDownload → Succeeded c r w .postflight) := by
  have ran : runSync c r false w =
      (eventUploadWithSyncState c r syncState w).after .preflight [] := by
    rw [runSync, created]
    simp only [preflightWithSyncState, negotiated, Bool.false_eq_true, if_false]
  have responded := preflight_succeeded negotiated
  rw [ruleDownload_succeeded_iff negotiated]
  rcases eventUploadWithSyncState_cases c r syncState w with
    ⟨added, status, stages⟩ | ⟨not_added, status, stages, bundles⟩
  · constructor
    · intro means
      have all := means.status (by rw [ran]; exact status)
      exact ⟨all .eventUpload (by decide), fun _ => all .postflight (by decide)⟩
    · rintro ⟨uploaded, finished⟩
      have all : ∀ stage, Succeeded c r w stage := by
        intro stage
        cases stage with
        | preflight => exact responded
        | eventUpload => exact uploaded
        | ruleDownload => exact (ruleDownload_succeeded_iff negotiated).mpr added
        | postflight => exact finished added
      exact ⟨fun _ stage _ => all stage, fun _ stage _ => all stage, fun _ _ before _ => all before⟩
  · have not_success : (runSync c r false w).status ≠ .success := by
      rw [ran, Ran.after, status]
      decide
    have no_bundle : (runSync c r false w).bundles = [] := by
      rw [ran, Ran.after, bundles]
      rfl
    have started : (runSync c r false w).stages = [.preflight, .eventUpload, .ruleDownload] := by
      rw [ran, Ran.after, stages]
    constructor
    · intro means
      have uploaded := means.stops .ruleDownload (by rw [started]; decide) .eventUpload (by decide)
      exact ⟨uploaded, fun added => absurd added not_added⟩
    · rintro ⟨uploaded, -⟩
      refine ⟨fun success => absurd success not_success, ?_, ?_⟩
      · rintro ⟨b, impossible, -⟩
        rw [no_bundle] at impossible
        cases impossible
      · rw [started]
        intro stage member before earlier
        have one_of_two : before = .preflight ∨ before = .eventUpload := by
          revert stage before
          decide
        rcases one_of_two with rfl | rfl
        · exact responded
        · exact uploaded

/-- A success means all just if nothing that fails is ignored. -/
theorem successMeansAll_iff (c : Client Data) (r : Responses) (preflightOnly : Bool)
    (w : World Data Details) :
    SuccessMeansAll c r preflightOnly w ↔ NothingIgnored c r preflightOnly w := by
  cases created : createSyncStateWithStatus c with
  | some status =>
    apply iff_of_true (successMeansAll_of_not_created created)
    intro not_failed
    rw [created] at not_failed
    cases not_failed
  | none =>
    cases negotiated : SNTSyncPreflight.sync c r w with
    | none =>
      apply iff_of_true (successMeansAll_of_not_negotiated created negotiated)
      intro _ _ syncState some_state
      rw [negotiated] at some_state
      cases some_state
    | some syncState =>
      cases preflightOnly with
      | true =>
        apply iff_of_true (successMeansAll_of_preflightOnly created negotiated)
        exact fun _ whole => absurd whole (by decide)
      | false =>
        rw [successMeansAll_iff_of_negotiated created negotiated,
          eventUpload_succeeded_iff negotiated, ruleDownload_succeeded_iff negotiated]
        constructor
        · rintro condition - - other same
          rw [negotiated, Option.some.injEq] at same
          rw [← same]
          exact condition
        · exact fun condition => condition created rfl syncState negotiated

theorem ruleSync_sets_fullSync (c : Client Data) (r : Responses) (w : World Data Details) :
    ∀ b ∈ (ruleSyncImpl c r w).1, setsFullSyncLastSuccess c b := by
  intro b member
  have only : b = RuleSyncConfigBundle c.now := by
    unfold ruleSyncImpl SNTSyncRuleDownload.sync at member
    split at member
    · cases member
    · simp only at member
      split at member
      · exact List.mem_singleton.mp member
      · cases member
  subst only
  refine ⟨c.now, ?_⟩
  rw [SNTConfigBundle.decode_encode]
  simp [setters, RuleSyncConfigBundle]

end

/-- Neither the upload of the only event nor the postflight gets a response. -/
theorem failed_sync_reported_successful :
    let daemon : SantaRuleDownload.Daemon :=
      ⟨fun _ _ => none, fun _ => "0", fun _ => none, ⟨none, 0⟩, ⟨none, 0, false⟩, true⟩
    let c : Client _ :=
      ⟨"https://santa", "1", true, false, fun _ => none, objects, fun _ => true, daemon, 2⟩
    let r : Responses := ⟨some auditOnlyResponse, fun _ => none, [some ⟨[], [], ""⟩], none⟩
    let w : World _ Unit :=
      ⟨SyncState.empty.update .fullSyncLastSuccess (some (.date 1)),
        ⟨[⟨some 1, .execution (.decided .blockUnknown) 0 ()⟩], by decide, by decide⟩,
        ⟨⟨.empty, .empty⟩, "", ""⟩⟩
    (runSync c r false w).status = .success ∧ ¬ SuccessMeansAll c r false w := by
  intro daemon c r w
  have success : (runSync c r false w).status = .success := rfl
  refine ⟨success, ?_⟩
  intro means
  have finished := means.status success .postflight (by decide)
  exact absurd finished Bool.false_ne_true

end SantaSyncManager
