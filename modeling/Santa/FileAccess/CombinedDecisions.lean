import Mathlib.Data.List.Perm.Basic
import Santa.FileAccess.DataFileAccessAuthorizer

/-!
How the decisions about the targets of one message combine. A target is decided under
its policy and then under the override; the message is denied if some target blocks.
The check of the data client looks at the processes of the policy and may fill the cache
of certificate hashes, the check of the process client looks the path up in the tree of
the policy.
-/
namespace SantaCombinedDecisions
open SantaAuthCache (SantaVnode)
open SantaExec (AuthResult)
open SantaPathTargets SantaFAA SantaDataFAA

structure Call where
  sources : CertificateSources
  inTree : WatchItemPolicy → PathTarget → Bool
  enableBadSignatureProtection : Bool
  overrideAction : SNTOverrideFileAccessAction
  clientType : FAAClientType
  esMsg : FileMessage
  processor : FAAPolicyProcessor

namespace Call

def check (call : Call) : CheckIfPolicyMatches :=
  match call.clientType with
  | .data => checkProcesses call.sources call.esMsg.process
  | .process => fun policy target certHashCache => (call.inTree policy target, certHashCache)

def processed (call : Call) (pairs : List TargetPolicyPair) : Progress :=
  processMessage call.enableBadSignatureProtection call.check call.overrideAction call.clientType
    call.esMsg call.processor pairs

def applied (call : Call) (pair : TargetPolicyPair) : FileAccessPolicyDecision :=
  (applyPolicy call.enableBadSignatureProtection call.check call.esMsg pair.1
    call.processor.certHashCache pair.2).1

def decision (call : Call) (pair : TargetPolicyPair) : FileAccessPolicyDecision :=
  applyOverrideToDecision (call.applied pair) call.overrideAction

end Call

/-! ### Certificate hashes stay what they are -/

def SameHash (sources : CertificateSources) (esFile : EsFile) (cache cache' : CertHashCache) :
    Prop :=
  (getCertificateHash sources cache' esFile).1 = (getCertificateHash sources cache esFile).1

theorem sameHash_getCertificateHash (sources : CertificateSources) (esFile : EsFile)
    (cache : CertHashCache) :
    SameHash sources esFile cache (getCertificateHash sources cache esFile).2 := by
  cases cached : cache.get esFile.vnode with
  | some result => simp [SameHash, getCertificateHash, cached]
  | none =>
    simp only [SameHash, getCertificateHash, cached]
    rw [SantaCache.get_set_self rfl]

theorem policyMatchesProcess_cases (sources : CertificateSources) (cache : CertHashCache)
    (policyProc : WatchItemProcess) (esProc : EsProcess) :
    (policyMatchesProcess sources cache policyProc esProc).2 = cache ∨
      (policyMatchesProcess sources cache policyProc esProc).2 =
        (getCertificateHash sources cache esProc.executable).2 := by
  unfold policyMatchesProcess
  split_ifs
  all_goals first | exact .inl rfl | exact .inr rfl

theorem policyMatchesProcess_congr {sources : CertificateSources} {cache cache' : CertHashCache}
    {esProc : EsProcess} (same : SameHash sources esProc.executable cache cache')
    (policyProc : WatchItemProcess) :
    (policyMatchesProcess sources cache' policyProc esProc).1 =
      (policyMatchesProcess sources cache policyProc esProc).1 := by
  unfold SameHash at same
  unfold policyMatchesProcess
  split_ifs
  all_goals first | rfl | simp only [same]

theorem sameHash_matches (sources : CertificateSources) (cache : CertHashCache)
    (policyProc : WatchItemProcess) (esProc : EsProcess) :
    SameHash sources esProc.executable cache
      (policyMatchesProcess sources cache policyProc esProc).2 := by
  rcases policyMatchesProcess_cases sources cache policyProc esProc with unchanged | looked
  · rw [unchanged]
    rfl
  · rw [looked]
    exact sameHash_getCertificateHash sources esProc.executable cache

theorem sameHash_matchesAny (sources : CertificateSources) (esProc : EsProcess)
    (processes : List WatchItemProcess) (cache : CertHashCache) :
    SameHash sources esProc.executable cache
      (matchesAnyProcess sources esProc processes cache).2 := by
  induction processes generalizing cache with
  | nil => rfl
  | cons process processes ih =>
    have first := sameHash_matches sources cache process esProc
    rw [matchesAnyProcess]
    rcases matched : policyMatchesProcess sources cache process esProc with ⟨_ | _, cache'⟩
    · rw [matched] at first
      exact (ih cache').trans first
    · rw [matched] at first
      exact first

theorem matchesAny_congr {sources : CertificateSources} {esProc : EsProcess}
    (processes : List WatchItemProcess) {cache cache' : CertHashCache}
    (same : SameHash sources esProc.executable cache cache') :
    (matchesAnyProcess sources esProc processes cache').1 =
      (matchesAnyProcess sources esProc processes cache).1 := by
  induction processes generalizing cache cache' with
  | nil => rfl
  | cons process processes ih =>
    have answers := policyMatchesProcess_congr same process
    have before := sameHash_matches sources cache process esProc
    have after := sameHash_matches sources cache' process esProc
    rw [matchesAnyProcess, matchesAnyProcess]
    rcases old : policyMatchesProcess sources cache process esProc with ⟨matched, oldCache⟩
    rcases new : policyMatchesProcess sources cache' process esProc with ⟨matched', newCache⟩
    rw [old, new] at answers
    rw [old] at before
    rw [new] at after
    obtain rfl : matched' = matched := answers
    cases matched' with
    | true => rfl
    | false => exact ih (after.trans (same.trans before.symm))

/-! ### Each target is decided as if it were alone -/

section
variable {call : Call} {cache : CertHashCache}

def Call.Agrees (call : Call) (cache : CertHashCache) : Prop :=
  SameHash call.sources call.esMsg.process.executable call.processor.certHashCache cache

theorem agrees_check (agrees : call.Agrees cache) (policy : WatchItemPolicy)
    (target : PathTarget) : call.Agrees (call.check policy target cache).2 := by
  unfold Call.check
  cases call.clientType with
  | data => exact (sameHash_matchesAny _ _ policy.processes cache).trans agrees
  | process => exact agrees

theorem check_agrees (agrees : call.Agrees cache) (policy : WatchItemPolicy)
    (target : PathTarget) :
    (call.check policy target cache).1 =
      (call.check policy target call.processor.certHashCache).1 := by
  unfold Call.check
  cases call.clientType with
  | data => exact matchesAny_congr policy.processes agrees
  | process => rfl

theorem applyPolicy_agrees (agrees : call.Agrees cache) (pair : TargetPolicyPair) :
    (applyPolicy call.enableBadSignatureProtection call.check call.esMsg pair.1 cache pair.2).1 =
        call.applied pair ∧
      call.Agrees (applyPolicy call.enableBadSignatureProtection call.check call.esMsg pair.1
        cache pair.2).2 := by
  obtain ⟨target, _ | policy⟩ := pair
  · exact ⟨rfl, agrees⟩
  · simp only [Call.applied, applyPolicy, check_agrees agrees policy target]
    split_ifs
    · exact ⟨rfl, agrees⟩
    · exact ⟨rfl, agrees⟩
    · exact ⟨rfl, agrees_check agrees policy target⟩

theorem processed_foldl (pairs : List TargetPolicyPair) {progress : Progress}
    (agrees : call.Agrees progress.processor.certHashCache) :
    (pairs.foldl (processTarget call.enableBadSignatureProtection call.check call.overrideAction
      call.clientType call.esMsg) progress).decisions =
      progress.decisions ++ pairs.map fun pair => (pair, call.decision pair) := by
  induction pairs generalizing progress with
  | nil => simp
  | cons pair pairs ih =>
    obtain ⟨applied, agrees'⟩ := applyPolicy_agrees agrees pair
    have first : (processTarget call.enableBadSignatureProtection call.check call.overrideAction
        call.clientType call.esMsg progress pair).decisions =
          progress.decisions ++ [(pair, call.decision pair)] := by
      rw [Call.decision, ← applied]
      rfl
    rw [List.foldl_cons, ih agrees', first]
    simp

end

theorem decisions_processed (call : Call) (pairs : List TargetPolicyPair) :
    (call.processed pairs).decisions = pairs.map fun pair => (pair, call.decision pair) :=
  processed_foldl pairs rfl

/-! ### The answer combines the decisions -/

/-- A block denies, and only what is allowed without reserve may be cached. -/
def Combines (result : ESResult) (decisions : List FileAccessPolicyDecision) : Prop :=
  (result.authResult = .deny ↔ ∃ decision ∈ decisions, isBlockDecision decision = true) ∧
    (result.cacheable = true ↔ ∀ decision ∈ decisions, decision = .allowed)

theorem combinePolicyResults_deny (result : AuthResult) (decision : FileAccessPolicyDecision) :
    combinePolicyResults result (fileAccessPolicyDecisionToESAuthResult decision) = .deny ↔
      result = .deny ∨ isBlockDecision decision = true := by
  cases result <;> cases decision <;> decide

theorem combines_processTarget {enableBadSignatureProtection : Bool} {check : CheckIfPolicyMatches}
    {overrideAction : SNTOverrideFileAccessAction} {clientType : FAAClientType}
    {esMsg : FileMessage} {progress : Progress}
    (combines : Combines progress.result (progress.decisions.map Prod.snd))
    (pair : TargetPolicyPair) :
    Combines (processTarget enableBadSignatureProtection check overrideAction clientType esMsg
        progress pair).result
      ((processTarget enableBadSignatureProtection check overrideAction clientType esMsg
        progress pair).decisions.map Prod.snd) := by
  obtain ⟨denies, caches⟩ := combines
  constructor
  · simp only [processTarget, combinePolicyResults_deny, denies]
    simp [or_and_right, exists_or]
  · simp only [processTarget, Bool.and_eq_true, caches]
    simp [or_imp, forall_and]

theorem combines_foldl {enableBadSignatureProtection : Bool} {check : CheckIfPolicyMatches}
    {overrideAction : SNTOverrideFileAccessAction} {clientType : FAAClientType}
    {esMsg : FileMessage} (pairs : List TargetPolicyPair) {progress : Progress}
    (combines : Combines progress.result (progress.decisions.map Prod.snd)) :
    Combines (pairs.foldl (processTarget enableBadSignatureProtection check overrideAction
        clientType esMsg) progress).result
      ((pairs.foldl (processTarget enableBadSignatureProtection check overrideAction clientType
        esMsg) progress).decisions.map Prod.snd) := by
  induction pairs generalizing progress with
  | nil => exact combines
  | cons pair pairs ih => exact ih (combines_processTarget combines pair)

theorem combines_processed (call : Call) (pairs : List TargetPolicyPair) :
    Combines (call.processed pairs).result (pairs.map call.decision) := by
  have start : Combines (⟨⟨.allow, true⟩, call.processor, []⟩ : Progress).result [] := by
    simp [Combines]
  have combines : Combines (call.processed pairs).result
      ((call.processed pairs).decisions.map Prod.snd) := combines_foldl pairs start
  rw [decisions_processed, List.map_map] at combines
  exact combines

theorem Combines.unique {result result' : ESResult} {decisions : List FileAccessPolicyDecision}
    (combines : Combines result decisions) (combines' : Combines result' decisions) :
    result' = result := by
  obtain ⟨authResult, cacheable⟩ := result
  obtain ⟨authResult', cacheable'⟩ := result'
  have denies : authResult' = .deny ↔ authResult = .deny := combines'.1.trans combines.1.symm
  have caches : cacheable' = true ↔ cacheable = true := combines'.2.trans combines.2.symm
  have sameResult : authResult' = authResult := by
    cases authResult <;> cases authResult' <;> simp_all
  rw [sameResult, Bool.eq_iff_iff.mpr caches]

theorem Combines.perm {result : ESResult} {decisions decisions' : List FileAccessPolicyDecision}
    (combines : Combines result decisions) (perm : decisions'.Perm decisions) :
    Combines result decisions' := by
  constructor
  · simpa only [perm.mem_iff] using combines.1
  · simpa only [perm.mem_iff] using combines.2

/-! ### What blocks, and what may not be cached -/

def WithReserve : FileAccessPolicyDecision → Prop
  | .allowedReadAccess | .allowedAuditOnly | .noPolicy => True
  | .allowed | .denied | .deniedInvalidSignature => False

theorem withReserve_override {decision : FileAccessPolicyDecision} (reserve : WithReserve decision)
    (overrideAction : SNTOverrideFileAccessAction) :
    applyOverrideToDecision decision overrideAction ≠ .allowed := by
  cases overrideAction <;> cases decision <;>
    simp_all [applyOverrideToDecision, isBlockDecision, WithReserve]

theorem applied_auditOnly {call : Call} {target : PathTarget} {policy : WatchItemPolicy}
    (auditOnly : policy.auditOnly = true)
    (blocks : isBlockDecision (call.applied (target, some policy)) = true) :
    (hasInvalidSignature call.esMsg.process && call.enableBadSignatureProtection) = true := by
  by_contra valid
  rw [Bool.not_eq_true] at valid
  have allows : isBlockDecision (call.applied (target, some policy)) = false :=
    applyPolicy_allows.mpr ⟨valid, .inr (.inl auditOnly)⟩
  rw [allows] at blocks
  exact absurd blocks (by decide)

/-- A message is denied iff some target blocks and may be cached iff every target is allowed
    without reserve, whatever the order of the targets. -/
theorem message_combined (call : Call) (pairs : List TargetPolicyPair) :
    ((call.processed pairs).result.authResult = .deny ↔
        ∃ pair ∈ pairs, isBlockDecision (call.decision pair) = true) ∧
      ((call.processed pairs).result.cacheable = true ↔
        ∀ pair ∈ pairs, call.decision pair = .allowed) ∧
      (∀ pairs', pairs'.Perm pairs →
        (call.processed pairs').result = (call.processed pairs).result) ∧
      (∀ pair ∈ pairs, isBlockDecision (call.decision pair) = true →
        call.overrideAction = .none ∧ (pair.2.any WatchItemPolicy.auditOnly = true →
          (hasInvalidSignature call.esMsg.process && call.enableBadSignatureProtection) = true)) ∧
      (∀ pair ∈ pairs, WithReserve (call.applied pair) ∨ WithReserve (call.decision pair) →
        (call.processed pairs).result.cacheable = false) := by
  have combines := combines_processed call pairs
  have caches : (call.processed pairs).result.cacheable = true ↔
      ∀ pair ∈ pairs, call.decision pair = .allowed := combines.2.trans List.forall_mem_map
  refine ⟨by simpa using combines.1, caches, ?_, ?_, ?_⟩
  · intro pairs' perm
    exact combines.unique ((combines_processed call pairs').perm (perm.map call.decision).symm)
  · rintro ⟨target, policy⟩ - blocks
    obtain ⟨none, blocks⟩ := override_blocks.mp blocks
    refine ⟨none, fun auditOnly => ?_⟩
    obtain ⟨policy, rfl, auditOnly⟩ := (Option.any_eq_true _ _).mp auditOnly
    exact applied_auditOnly auditOnly blocks
  · intro pair member reserve
    rw [← Bool.not_eq_true, caches]
    intro allowed
    rcases reserve with applied | decided
    · exact withReserve_override applied call.overrideAction (allowed pair member)
    · rw [allowed pair member] at decided
      exact decided

end SantaCombinedDecisions
