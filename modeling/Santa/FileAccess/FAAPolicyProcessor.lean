import Santa.Common.SantaSetCache
import Santa.FileAccess.PathTargets

/-!
How file access policies decide an event. Each target of the event has at most
one policy; the decisions of all targets are combined. The processor keeps two
caches: the certificate hashes of executables, and the files that a process was
allowed to read, which answer its next reads without looking at any policy.
Telemetry, stored events and messages to the user are left out.
-/
namespace SantaFAA
open SantaAuthCache (SantaVnode)
open SantaPolicy (SNTCachedDecision CS_SIGNED CS_VALID)
open SantaExec (AuthResult ProcessId)
open SantaPathTargets

inductive FileAccessPolicyDecision where
  | noPolicy
  | denied
  | deniedInvalidSignature
  | allowed
  | allowedReadAccess
  | allowedAuditOnly
  deriving DecidableEq, Repr

inductive SNTOverrideFileAccessAction where
  | none
  | auditOnly
  | disable
  deriving DecidableEq, Repr

inductive WatchItemRuleType where
  | pathsWithAllowedProcesses
  | pathsWithDeniedProcesses
  | processesWithAllowedPaths
  | processesWithDeniedPaths
  deriving DecidableEq, Repr

/-- An attribute that is not set is empty. The position is that of the first `*`. -/
structure WatchItemProcess where
  binaryPath : String
  signingId : String
  teamId : String
  cdhash : List UInt8
  certificateSha256 : String
  platformBinary : Bool
  signingIdWildcardPos : Option Nat
  deriving DecidableEq, Repr

structure WatchItemPolicy where
  allowReadAccess : Bool
  auditOnly : Bool
  ruleType : WatchItemRuleType
  processes : List WatchItemProcess
  deriving DecidableEq, Repr

inductive FAAClientType where
  | data
  | process
  deriving DecidableEq, Repr

structure ReadsCacheKey where
  pidAndVersion : ProcessId
  clientType : FAAClientType
  deriving DecidableEq, Repr

def kNumProcesses : Nat := 2048
def kPerProcessSetCapacity : Nat := 128

abbrev ReadsCache := SantaSetCache ReadsCacheKey (Nat × Nat) kPerProcessSetCapacity
abbrev CertHashCache := SantaCache SantaVnode (Option String)

structure FAAPolicyProcessor where
  readsCache : ReadsCache
  certHashCache : CertHashCache

def FAAPolicyProcessor.new : FAAPolicyProcessor := ⟨.new kNumProcesses, .new 10000⟩

structure ESResult where
  authResult : AuthResult
  cacheable : Bool
  deriving DecidableEq, Repr

/-! ### Decisions -/

def isBlockDecision : FileAccessPolicyDecision → Bool
  | .denied | .deniedInvalidSignature => true
  | _ => false

def applyOverrideToDecision (decision : FileAccessPolicyDecision) :
    SNTOverrideFileAccessAction → FileAccessPolicyDecision
  | .none => decision
  | .auditOnly => if isBlockDecision decision then .allowedAuditOnly else decision
  | .disable => .noPolicy

def fileAccessPolicyDecisionToESAuthResult : FileAccessPolicyDecision → AuthResult
  | .denied | .deniedInvalidSignature => .deny
  | .noPolicy | .allowed | .allowedReadAccess | .allowedAuditOnly => .allow

def combinePolicyResults (result1 result2 : AuthResult) : AuthResult :=
  if result1 = .deny ∨ result2 = .deny then .deny else .allow

/-! ### Which processes a policy matches -/

def kBadCertHash : String := "BAD_CERT_HASH"

structure CertificateSources where
  cachedDecisionForFile : SantaVnode → Option SNTCachedDecision
  leafCertificate : String → Option String

/-- A hash that cannot be found is remembered as one that nothing matches. -/
def getCertificateHash (sources : CertificateSources) (certHashCache : CertHashCache)
    (esFile : EsFile) : String × CertHashCache :=
  match certHashCache.get esFile.vnode with
  | some result => (result, certHashCache)
  | none =>
      let found := match sources.cachedDecisionForFile esFile.vnode with
        | some cd => cd.certSHA256
        | none => sources.leafCertificate esFile.path
      let result := if (found.getD "").isEmpty then kBadCertHash else found.getD ""
      (result, (certHashCache.set esFile.vnode (some result) none).2)

def CS_CDHASH_LEN : Nat := 20

def teamIdMatches (policyProc : WatchItemProcess) (esProc : EsProcess) : Bool :=
  policyProc.teamId.isEmpty || esProc.teamId = some policyProc.teamId

/-- A wildcard needs a team ID or the platform beside it. -/
def signingIdMatches (policyProc : WatchItemProcess) (esProc : EsProcess) : Bool :=
  policyProc.signingId.isEmpty ||
    match esProc.signingId, policyProc.signingIdWildcardPos with
    | none, _ => false
    | some signingId, none => policyProc.signingId = signingId
    | some signingId, some wildcardPos =>
        let head := policyProc.signingId.toList.take wildcardPos
        let tail := policyProc.signingId.toList.drop (wildcardPos + 1)
        (policyProc.platformBinary || !policyProc.teamId.isEmpty) &&
          decide (head.length + tail.length ≤ signingId.toList.length) &&
          head.isPrefixOf signingId.toList && tail.isSuffixOf signingId.toList

def cdhashMatches (policyProc : WatchItemProcess) (esProc : EsProcess) : Bool :=
  policyProc.cdhash.length ≠ CS_CDHASH_LEN || policyProc.cdhash = esProc.cdhash

def needsSignature (policyProc : WatchItemProcess) : Bool :=
  !policyProc.teamId.isEmpty || !policyProc.signingId.isEmpty ||
    policyProc.cdhash.length = CS_CDHASH_LEN || !policyProc.certificateSha256.isEmpty

def binaryPathMatches (policyProc : WatchItemProcess) (esProc : EsProcess) : Bool :=
  policyProc.binaryPath.isEmpty || policyProc.binaryPath = esProc.executable.path

/-- The certificate is looked up only after the other signature checks. -/
def policyMatchesProcess (sources : CertificateSources) (certHashCache : CertHashCache)
    (policyProc : WatchItemProcess) (esProc : EsProcess) : Bool × CertHashCache :=
  if esProc.codesigningFlags &&& CS_SIGNED ≠ 0 then
    if policyProc.platformBinary && !esProc.isPlatformBinary then (false, certHashCache)
    else if !teamIdMatches policyProc esProc then (false, certHashCache)
    else if !signingIdMatches policyProc esProc then (false, certHashCache)
    else if !cdhashMatches policyProc esProc then (false, certHashCache)
    else if policyProc.certificateSha256.isEmpty then
      (binaryPathMatches policyProc esProc, certHashCache)
    else
      let (result, certHashCache) := getCertificateHash sources certHashCache esProc.executable
      (policyProc.certificateSha256 = result && binaryPathMatches policyProc esProc, certHashCache)
  else if needsSignature policyProc then (false, certHashCache)
  else (binaryPathMatches policyProc esProc, certHashCache)

/-! ### Deciding an event -/

def kOpenFlagsIndicatingWrite : BitVec 32 := 0x2 ||| 0x8 ||| 0x400

def opensForWrite (fflag : BitVec 32) : Bool := fflag &&& kOpenFlagsIndicatingWrite ≠ 0

def policyAllowsReadsForTarget (event : Event) (target : PathTarget) (policy : WatchItemPolicy) :
    Bool :=
  policy.allowReadAccess &&
    match event with
    | .authOpen _ fflag => !opensForWrite fflag
    | .authClone _ _ _ => target.isReadable
    | .authCopyfile _ _ _ _ => target.isReadable
    | _ => false

/-- Whether a policy applies to a target. The answer may look up a certificate. -/
abbrev CheckIfPolicyMatches := WatchItemPolicy → PathTarget → CertHashCache → Bool × CertHashCache

def hasInvalidSignature (esProc : EsProcess) : Bool :=
  esProc.codesigningFlags &&& (CS_SIGNED ||| CS_VALID) = CS_SIGNED

def WatchItemRuleType.deniesMatches : WatchItemRuleType → Bool
  | .pathsWithDeniedProcesses | .processesWithDeniedPaths => true
  | .pathsWithAllowedProcesses | .processesWithAllowedPaths => false

def matchDecision (policy : WatchItemPolicy) (policyMatches : Bool) : FileAccessPolicyDecision :=
  let decision := if policyMatches then .allowed else .denied
  let decision := if policy.ruleType.deniesMatches then
      (if decision = FileAccessPolicyDecision.allowed then .denied else .allowed)
    else decision
  if decision = .denied ∧ policy.auditOnly then .allowedAuditOnly else decision

def applyPolicy (enableBadSignatureProtection : Bool) (check : CheckIfPolicyMatches)
    (esMsg : FileMessage) (target : PathTarget) (certHashCache : CertHashCache) :
    Option WatchItemPolicy → FileAccessPolicyDecision × CertHashCache
  | none => (.noPolicy, certHashCache)
  | some policy =>
      if hasInvalidSignature esMsg.process && enableBadSignatureProtection then
        (.deniedInvalidSignature, certHashCache)
      else if policyAllowsReadsForTarget esMsg.event target policy then
        (.allowedReadAccess, certHashCache)
      else
        let (policyMatches, certHashCache) := check policy target certHashCache
        (matchDecision policy policyMatches, certHashCache)

abbrev TargetPolicyPair := PathTarget × Option WatchItemPolicy

def processTargetAndPolicy (enableBadSignatureProtection : Bool) (check : CheckIfPolicyMatches)
    (overrideAction : SNTOverrideFileAccessAction) (esMsg : FileMessage) (pair : TargetPolicyPair)
    (certHashCache : CertHashCache) : FileAccessPolicyDecision × CertHashCache :=
  let (decision, certHashCache) :=
    applyPolicy enableBadSignatureProtection check esMsg pair.1 certHashCache pair.2
  (applyOverrideToDecision decision overrideAction, certHashCache)

def allowedRead (decision : FileAccessPolicyDecision) (pair : TargetPolicyPair) :
    Option (Nat × Nat) :=
  if decision ≠ .noPolicy ∧ decision ≠ .deniedInvalidSignature ∧ pair.1.isReadable = true ∧
      pair.2.any WatchItemPolicy.allowReadAccess = true then
    pair.1.unsafeFile.map fun file => (file.stDev, file.stIno)
  else none

/-- `decisions` has each target with its decision, in order. -/
structure Progress where
  result : ESResult
  processor : FAAPolicyProcessor
  decisions : List (TargetPolicyPair × FileAccessPolicyDecision)

section
variable (enableBadSignatureProtection : Bool) (check : CheckIfPolicyMatches)
  (overrideAction : SNTOverrideFileAccessAction) (clientType : FAAClientType) (esMsg : FileMessage)

def readsCacheKey : ReadsCacheKey := ⟨esMsg.process.pidAndVersion, clientType⟩

def processTarget (progress : Progress) (pair : TargetPolicyPair) : Progress :=
  let (decision, certHashCache) := processTargetAndPolicy enableBadSignatureProtection check
    overrideAction esMsg pair progress.processor.certHashCache
  let readsCache := match allowedRead decision pair with
    | some file => (progress.processor.readsCache.set (readsCacheKey clientType esMsg) file).2
    | none => progress.processor.readsCache
  { result :=
      { authResult := combinePolicyResults progress.result.authResult
          (fileAccessPolicyDecisionToESAuthResult decision)
        cacheable := progress.result.cacheable && decide (decision = .allowed) }
    processor := ⟨readsCache, certHashCache⟩
    decisions := progress.decisions ++ [(pair, decision)] }

def processMessage (processor : FAAPolicyProcessor) (pairs : List TargetPolicyPair) : Progress :=
  pairs.foldl (processTarget enableBadSignatureProtection check overrideAction clientType esMsg)
    ⟨⟨.allow, true⟩, processor, []⟩

end

/-- Only reads of an open file are answered from the cache: other events have targets besides
    the one they read. -/
def immediateResponse (readsCache : ReadsCache) (clientType : FAAClientType)
    (esMsg : FileMessage) : Option ESResult :=
  match esMsg.event with
  | .authOpen file fflag =>
      if !opensForWrite fflag &&
          readsCache.contains (readsCacheKey clientType esMsg) (file.stDev, file.stIno) then
        some ⟨.allow, false⟩
      else none
  | _ => none

def notifyExit (processor : FAAPolicyProcessor) (clientType : FAAClientType) (p : ProcessId) :
    FAAPolicyProcessor :=
  { processor with readsCache := processor.readsCache.remove ⟨p, clientType⟩ }

/-! ### What blocks, and what becomes a cached read -/

theorem toESAuthResult_allow {decision : FileAccessPolicyDecision} :
    fileAccessPolicyDecisionToESAuthResult decision = .allow ↔ isBlockDecision decision = false := by
  cases decision <;> simp [fileAccessPolicyDecisionToESAuthResult, isBlockDecision]

theorem matchDecision_blocks (policy : WatchItemPolicy) (policyMatches : Bool) :
    isBlockDecision (matchDecision policy policyMatches) = true ↔
      policyMatches = policy.ruleType.deniesMatches ∧ policy.auditOnly = false := by
  unfold matchDecision
  cases policyMatches <;> cases policy.ruleType.deniesMatches <;> cases policy.auditOnly <;>
    simp [isBlockDecision]

theorem override_blocks {decision : FileAccessPolicyDecision}
    {overrideAction : SNTOverrideFileAccessAction} :
    isBlockDecision (applyOverrideToDecision decision overrideAction) = true ↔
      overrideAction = .none ∧ isBlockDecision decision = true := by
  cases overrideAction with
  | none => simp [applyOverrideToDecision]
  | auditOnly => cases decision <;> simp [applyOverrideToDecision, isBlockDecision]
  | disable => simp [applyOverrideToDecision, isBlockDecision]

def LetsThrough (enableBadSignatureProtection : Bool) (check : CheckIfPolicyMatches)
    (esMsg : FileMessage) (target : PathTarget) (certHashCache : CertHashCache)
    (policy : WatchItemPolicy) : Prop :=
  (hasInvalidSignature esMsg.process && enableBadSignatureProtection) = false ∧
    (policyAllowsReadsForTarget esMsg.event target policy = true ∨ policy.auditOnly = true ∨
      (check policy target certHashCache).1 ≠ policy.ruleType.deniesMatches)

theorem applyPolicy_allows {enableBadSignatureProtection : Bool} {check : CheckIfPolicyMatches}
    {esMsg : FileMessage} {target : PathTarget} {certHashCache : CertHashCache}
    {policy : WatchItemPolicy} :
    isBlockDecision (applyPolicy enableBadSignatureProtection check esMsg target certHashCache
      (some policy)).1 = false ↔
      LetsThrough enableBadSignatureProtection check esMsg target certHashCache policy := by
  have decides : (applyPolicy enableBadSignatureProtection check esMsg target certHashCache
      (some policy)).1 =
        if hasInvalidSignature esMsg.process && enableBadSignatureProtection then
          .deniedInvalidSignature
        else if policyAllowsReadsForTarget esMsg.event target policy then .allowedReadAccess
        else matchDecision policy (check policy target certHashCache).1 := by
    simp only [applyPolicy]
    split_ifs <;> rfl
  rw [decides, LetsThrough]
  split_ifs with invalid reads
  · simp [invalid, isBlockDecision]
  · simp [invalid, reads, isBlockDecision]
  · have blocks := matchDecision_blocks policy (check policy target certHashCache).1
    rw [← Bool.not_eq_true, blocks]
    simp only [invalid, reads]
    cases policy.auditOnly <;> simp

section
variable {enableBadSignatureProtection : Bool} {check : CheckIfPolicyMatches}
  {overrideAction : SNTOverrideFileAccessAction} {clientType : FAAClientType} {esMsg : FileMessage}

theorem processMessage_single {processor : FAAPolicyProcessor} {pair : TargetPolicyPair} :
    (processMessage enableBadSignatureProtection check overrideAction clientType esMsg processor
      [pair]).result.authResult =
      fileAccessPolicyDecisionToESAuthResult (processTargetAndPolicy enableBadSignatureProtection
        check overrideAction esMsg pair processor.certHashCache).1 := by
  simp only [processMessage, List.foldl_cons, List.foldl_nil, processTarget, combinePolicyResults]
  cases fileAccessPolicyDecisionToESAuthResult (processTargetAndPolicy enableBadSignatureProtection
    check overrideAction esMsg pair processor.certHashCache).1 <;> simp

theorem decisions_foldl (pairs : List TargetPolicyPair) (progress : Progress) :
    (pairs.foldl (processTarget enableBadSignatureProtection check overrideAction clientType esMsg)
      progress).decisions.map Prod.fst = progress.decisions.map Prod.fst ++ pairs := by
  induction pairs generalizing progress with
  | nil => simp
  | cons pair pairs ih =>
    rw [List.foldl_cons, ih]
    simp [processTarget]

theorem decisions_kept (pairs : List TargetPolicyPair) {progress : Progress}
    {entry : TargetPolicyPair × FileAccessPolicyDecision} (member : entry ∈ progress.decisions) :
    entry ∈ (pairs.foldl (processTarget enableBadSignatureProtection check overrideAction
      clientType esMsg) progress).decisions := by
  induction pairs generalizing progress with
  | nil => exact member
  | cons pair pairs ih => exact ih (List.mem_append_left _ member)

theorem contains_processTarget {pair : TargetPolicyPair} {progress : Progress}
    {key : ReadsCacheKey} {file : Nat × Nat}
    (h : (processTarget enableBadSignatureProtection check overrideAction clientType esMsg progress
      pair).processor.readsCache.contains key file = true) :
    progress.processor.readsCache.contains key file = true ∨
      (key = readsCacheKey clientType esMsg ∧
        ∃ entry ∈ (processTarget enableBadSignatureProtection check overrideAction clientType esMsg
          progress pair).decisions, allowedRead entry.2 entry.1 = some file) := by
  simp only [processTarget] at h ⊢
  split at h
  · rename_i stored read
    rcases SantaSetCache.contains_set h with ⟨key, file⟩ | old
    · refine .inr ⟨key, _, List.mem_append_right _ List.mem_cons_self, ?_⟩
      rw [read, file]
    · exact .inl old
  · exact .inl h

theorem contains_foldl {pairs : List TargetPolicyPair} {progress : Progress}
    {key : ReadsCacheKey} {file : Nat × Nat}
    (h : (pairs.foldl (processTarget enableBadSignatureProtection check overrideAction clientType
      esMsg) progress).processor.readsCache.contains key file = true) :
    progress.processor.readsCache.contains key file = true ∨
      (key = readsCacheKey clientType esMsg ∧
        ∃ entry ∈ (pairs.foldl (processTarget enableBadSignatureProtection check overrideAction
          clientType esMsg) progress).decisions, allowedRead entry.2 entry.1 = some file) := by
  induction pairs generalizing progress with
  | nil => exact .inl h
  | cons pair pairs ih =>
    rcases ih h with before | later
    · rcases contains_processTarget before with old | ⟨key, entry, member, read⟩
      · exact .inl old
      · exact .inr ⟨key, entry, decisions_kept pairs member, read⟩
    · exact .inr later

theorem contains_processMessage {processor : FAAPolicyProcessor} {pairs : List TargetPolicyPair}
    {key : ReadsCacheKey} {file : Nat × Nat}
    (h : (processMessage enableBadSignatureProtection check overrideAction clientType esMsg
      processor pairs).processor.readsCache.contains key file = true) :
    processor.readsCache.contains key file = true ∨
      (key = readsCacheKey clientType esMsg ∧
        ∃ entry ∈ (processMessage enableBadSignatureProtection check overrideAction clientType esMsg
          processor pairs).decisions, allowedRead entry.2 entry.1 = some file) :=
  contains_foldl h

theorem decided_target {processor : FAAPolicyProcessor} {pairs : List TargetPolicyPair}
    {entry : TargetPolicyPair × FileAccessPolicyDecision}
    (member : entry ∈ (processMessage enableBadSignatureProtection check overrideAction clientType
      esMsg processor pairs).decisions) : entry.1 ∈ pairs := by
  have targets : (processMessage enableBadSignatureProtection check overrideAction clientType esMsg
      processor pairs).decisions.map Prod.fst = pairs := decisions_foldl pairs _
  rw [← targets]
  exact List.mem_map_of_mem member

end

theorem allowedRead_some {decision : FileAccessPolicyDecision} {pair : TargetPolicyPair}
    {file : Nat × Nat} (h : allowedRead decision pair = some file) :
    ∃ policy esFile, pair.2 = some policy ∧ policy.allowReadAccess = true ∧
      pair.1.unsafeFile = some esFile ∧ file = (esFile.stDev, esFile.stIno) := by
  unfold allowedRead at h
  split at h
  · rename_i stored
    obtain ⟨esFile, unsafeFile, same⟩ := Option.map_eq_some_iff.mp h
    obtain ⟨policy, found, allows⟩ := (Option.any_eq_true _ _).mp stored.2.2.2
    exact ⟨policy, esFile, found, allows, unsafeFile, same.symm⟩
  · exact nomatch h

end SantaFAA
