import Santa.Policy.CelEvaluator
import Santa.Rules.RuleTable

/-!
How santad decides about an execution: the rule that matches the file's
identifiers, evaluated when it is a CEL rule, then signature protection, the
scope of the configuration, and the client mode. Fields of a decision that are
only logged (certificate chain, entitlements, signing times) are left out. The
flags of a process's code signature are those of the kernel's header.
-/
namespace SantaPolicy
open SantaRule SantaCel SantaRuleTable

inductive SNTClientMode where
  | unknown
  | monitor
  | lockdown
  | standalone
  deriving DecidableEq, Repr

inductive SNTEventState where
  | unknown
  | blockUnknown
  | blockBinary
  | blockCertificate
  | blockScope
  | blockTeamID
  | blockLongPath
  | blockSigningID
  | blockCDHash
  | allowUnknown
  | allowBinary
  | allowCertificate
  | allowScope
  | allowCompilerBinary
  | allowTransitive
  | allowPendingTransitive
  | allowTeamID
  | allowSigningID
  | allowCDHash
  | allowLocalBinary
  | allowLocalSigningID
  | allowCompilerSigningID
  | allowCompilerCDHash
  deriving DecidableEq, Repr

def SNTEventState.isAllow : SNTEventState → Bool
  | .allowUnknown | .allowBinary | .allowCertificate | .allowScope | .allowCompilerBinary
  | .allowTransitive | .allowPendingTransitive | .allowTeamID | .allowSigningID | .allowCDHash
  | .allowLocalBinary | .allowLocalSigningID | .allowCompilerSigningID
  | .allowCompilerCDHash => true
  | _ => false

def SNTEventState.isBlock : SNTEventState → Bool
  | .blockUnknown | .blockBinary | .blockCertificate | .blockScope | .blockTeamID | .blockLongPath
  | .blockSigningID | .blockCDHash => true
  | _ => false

def SNTEventState.isAllowCompiler : SNTEventState → Bool
  | .allowCompilerBinary | .allowCompilerSigningID | .allowCompilerCDHash => true
  | _ => false

inductive SNTSigningStatus where
  | unsigned
  | invalid
  | adhoc
  | development
  | production
  deriving DecidableEq, Repr

structure SNTCachedDecision where
  decision : SNTEventState
  decisionClientMode : SNTClientMode
  decisionExtra : Option String
  sha256 : Option String
  certSHA256 : Option String
  teamID : Option String
  signingID : Option String
  cdhash : Option String
  signingStatus : SNTSigningStatus
  quarantineURL : Option String
  customMsg : Option String
  customURL : Option String
  silentBlock : Bool
  cacheable : Bool
  holdAndAsk : Bool
  deriving DecidableEq, Repr

def SNTCachedDecision.new : SNTCachedDecision :=
  ⟨.unknown, .unknown, none, none, none, none, none, none, .unsigned, none, none, none, false, true,
    false⟩

/-! ### Applying a rule -/

def decisions : SNTRuleType → SNTRuleState → Option SNTEventState
  | .cdHash, .allow => some .allowCDHash
  | .cdHash, .allowCompiler => some .allowCompilerCDHash
  | .cdHash, .block => some .blockCDHash
  | .cdHash, .silentBlock => some .blockCDHash
  | .binary, .allow => some .allowBinary
  | .binary, .allowLocalBinary => some .allowLocalBinary
  | .binary, .allowTransitive => some .allowTransitive
  | .binary, .allowCompiler => some .allowCompilerBinary
  | .binary, .silentBlock => some .blockBinary
  | .binary, .block => some .blockBinary
  | .signingID, .allow => some .allowSigningID
  | .signingID, .allowLocalSigningID => some .allowLocalSigningID
  | .signingID, .allowCompiler => some .allowCompilerSigningID
  | .signingID, .silentBlock => some .blockSigningID
  | .signingID, .block => some .blockSigningID
  | .certificate, .allow => some .allowCertificate
  | .certificate, .silentBlock => some .blockCertificate
  | .certificate, .block => some .blockCertificate
  | .teamID, .allow => some .allowTeamID
  | .teamID, .silentBlock => some .blockTeamID
  | .teamID, .block => some .blockTeamID
  | _, _ => none

/-- A compiler rule without transitive rules is an allow rule. No other type reaches here. -/
def withoutTransitive : SNTRuleType → SNTEventState → SNTEventState
  | .cdHash, _ => .allowCDHash
  | .binary, _ => .allowBinary
  | .signingID, _ => .allowSigningID
  | _, decision => decision

/-- A result of a CEL expression as a rule state; only v2 declares the last value. -/
def stateForReturn (state : SNTRuleState) : ReturnValue → SNTRuleState
  | .allowlist => .allow
  | .allowlistCompiler => .allowTransitive
  | .blocklist => .block
  | .silentBlocklist => .silentBlock
  | .requireTouchID => if state = .celv2 then .block else state
  | .unspecified => state

def applyState (enableTransitiveRules : Bool) (cd : SNTCachedDecision) (rule : SNTRule)
    (state : SNTRuleState) : Bool × SNTCachedDecision :=
  match decisions rule.type state with
  | none => (false, cd)
  | some decision =>
      let cd := { cd with decision := decision }
      let cd := if state = .silentBlock then { cd with silentBlock := true } else cd
      let cd := if state = .allowCompiler ∧ !enableTransitiveRules then
          { cd with decision := withoutTransitive rule.type cd.decision } else cd
      if state = .allowTransitive ∧ !enableTransitiveRules then
        (false, { cd with decision := .unknown })
      else (true, { cd with customMsg := rule.customMsg, customURL := rule.customURL })

abbrev Evaluation := Bool → String → Except String (ReturnValue × Bool)

/-- `evaluate` compiles and evaluates an expression in the activation of the execution;
    without an activation callback CEL rules are not evaluated. -/
def decisionForRule (enableTransitiveRules failClosed : Bool) (evaluate : Option Evaluation)
    (cd : SNTCachedDecision) (rule : SNTRule) : Bool × SNTCachedDecision :=
  match evaluate, decide (rule.state = .cel ∨ rule.state = .celv2) with
  | some evaluate, true =>
      match evaluate (rule.state = .celv2) (rule.celExpr.getD "") with
      | .error _ =>
          if failClosed then (true, { cd with decision := .blockUnknown }) else (false, cd)
      | .ok (value, cacheable) =>
          let cd := if value = .requireTouchID ∧ rule.state = .celv2 then
              { cd with holdAndAsk := true, cacheable := false } else cd
          let cd := if cacheable then cd else { cd with cacheable := false }
          applyState enableTransitiveRules cd rule (stateForReturn rule.state value)
  | _, _ => applyState enableTransitiveRules cd rule rule.state

/-! ### Deciding about a file -/

structure CodesignInfo where
  certSHA256 : Option String
  teamID : Option String
  signingID : Option String
  platformBinary : Bool
  deriving DecidableEq, Repr

structure SNTFileInfo where
  sha256 : Option String
  path : String
  isMachO : Bool
  isMissingPageZero : Bool
  quarantineDataURL : Option String
  codesign : Except Int CodesignInfo

structure Configuration where
  clientMode : SNTClientMode
  enableTransitiveRules : Bool
  failClosed : Bool
  enableBadSignatureProtection : Bool
  enablePageZeroProtection : Bool
  allowedPathRegex : String → Bool
  blockedPathRegex : String → Bool

structure CriticalBinary where
  systemBin : Bool
  sha256 : String
  signingID : String
  cdhash : Option String
  certSHA256 : Option String
  productionCert : Bool
  deriving DecidableEq, Repr

def CriticalBinary.decision (b : CriticalBinary) : SNTCachedDecision :=
  { SNTCachedDecision.new with
    decision := .allowSigningID
    decisionExtra := some (if b.systemBin then "critical system binary" else "santa binary")
    sha256 := some b.sha256
    signingID := some b.signingID
    cdhash := b.cdhash
    signingStatus := if b.productionCert then .production else .development
    teamID := some (((splitAtColon b.signingID.toList).map fun (team, _) =>
      String.ofList team).getD b.signingID)
    certSHA256 := b.certSHA256 }

/-- The table with what was set up at the daemon's start. Static rules are built from
    dictionaries, which gives them a declared type. -/
structure RuleSource where
  staticRules : String → Option SNTRule
  launchdCert : Option String
  table : ExecutionRules
  criticalSystemBinaries : String → Option CriticalBinary
  declared : ∀ identifier rule, staticRules identifier = some rule → rule.type ∈ ruleTypes

theorem declared_none (_ : String) (rule : SNTRule) (none : Option.none = some rule) :
    rule.type ∈ ruleTypes := by
  cases none

inductive PlatformBinaryState where
  | runtimeTrue
  | runtimeFalse
  | staticCheck
  deriving DecidableEq, Repr

def errSecCSUnsigned : Int := -67062

/-- Each status admits the identifiers of the ones below it. -/
def createRuleIDs (cd : SNTCachedDecision) : RuleIdentifiers :=
  match cd.signingStatus with
  | .production => ⟨cd.cdhash, cd.sha256, cd.signingID, cd.certSHA256, cd.teamID⟩
  | .development => ⟨cd.cdhash, cd.sha256, none, cd.certSHA256, none⟩
  | .adhoc => ⟨cd.cdhash, cd.sha256, none, none, none⟩
  | .invalid | .unsigned => ⟨none, cd.sha256, none, none, none⟩

def updateCachedDecisionSigningInfo (cd : SNTCachedDecision) (csInfo : CodesignInfo)
    (platformBinaryState : PlatformBinaryState) : SNTCachedDecision :=
  let teamID := cd.teamID.or csInfo.teamID
  let signingID := cd.signingID.or csInfo.signingID
  let keeps := teamID.isSome || match platformBinaryState with
    | .runtimeTrue => true
    | .staticCheck => csInfo.platformBinary
    | .runtimeFalse => false
  { cd with
    certSHA256 := csInfo.certSHA256
    teamID := teamID
    signingID := if keeps then signingID else none }

def fileIsScopeAllowed (config : Configuration) (fi : SNTFileInfo) : Option String :=
  if config.allowedPathRegex fi.path then some "Allowed Path Regex"
  else if !fi.isMachO then some "Not a Mach-O"
  else none

def fileIsScopeBlocked (config : Configuration) (fi : SNTFileInfo) : Option String :=
  if config.blockedPathRegex fi.path then some "Blocked Path Regex"
  else if config.enablePageZeroProtection && fi.isMissingPageZero then some "Missing __PAGEZERO"
  else none

structure FileIdentity where
  cdhash : Option String
  fileSHA256 : Option String
  certificateSHA256 : Option String
  teamID : Option String
  signingID : Option String
  platformBinaryState : PlatformBinaryState
  signingStatus : SNTSigningStatus
  deriving DecidableEq, Repr

def initialDecision (config : Configuration) (fi : SNTFileInfo) (id : FileIdentity) :
    SNTCachedDecision × Option Int :=
  let cd := { SNTCachedDecision.new with
    cdhash := id.cdhash
    sha256 := id.fileSHA256.or fi.sha256
    teamID := id.teamID
    signingID := id.signingID
    signingStatus := id.signingStatus
    decisionClientMode := config.clientMode
    quarantineURL := fi.quarantineDataURL }
  if (id.certificateSHA256.getD "") ≠ "" then
    ({ cd with certSHA256 := id.certificateSHA256 }, none)
  else match fi.codesign with
    | .error code =>
        ({ cd with
          decisionExtra := some ("Signature ignored due to error: " ++ toString code)
          signingStatus := if cd.signingStatus = .unsigned then .unsigned else .invalid }, some code)
    | .ok csInfo => (updateCachedDecisionSigningInfo cd csInfo id.platformBinaryState, none)

def decisionWithoutRule (config : Configuration) (fi : SNTFileInfo) (csInfoError : Option Int)
    (cd : SNTCachedDecision) : SNTCachedDecision :=
  match csInfoError.filter fun code => config.enableBadSignatureProtection && code ≠ errSecCSUnsigned with
  | some code =>
      { cd with
        decisionExtra := some ("Blocked due to signature error: " ++ toString code)
        decision := .blockCertificate }
  | none =>
      match fileIsScopeBlocked config fi, fileIsScopeAllowed config fi with
      | some msg, _ => { cd with decisionExtra := some msg, decision := .blockScope }
      | none, some msg => { cd with decisionExtra := some msg, decision := .allowScope }
      | none, none =>
          match config.clientMode with
          | .monitor => { cd with decision := .allowUnknown }
          | .standalone => { cd with holdAndAsk := true, decision := .blockUnknown }
          | _ => { cd with decision := .blockUnknown }

def settle (config : Configuration) (fi : SNTFileInfo) (csInfoError : Option Int)
    (applied : Bool × SNTCachedDecision) : SNTCachedDecision :=
  if applied.1 then applied.2 else decisionWithoutRule config fi csInfoError applied.2

def decisionForFileInfo (source : RuleSource) (config : Configuration) (fi : SNTFileInfo)
    (id : FileIdentity) (evaluate : Option Evaluation) : SNTCachedDecision :=
  match id.signingID.bind source.criticalSystemBinaries with
  | some binary => { binary.decision with decisionClientMode := config.clientMode }
  | none =>
      let (cd, csInfoError) := initialDecision config fi id
      match executionRuleForIdentifiers source.staticRules source.launchdCert source.table
          (createRuleIDs cd) with
      | none => decisionWithoutRule config fi csInfoError cd
      | some rule =>
          settle config fi csInfoError
            (decisionForRule config.enableTransitiveRules config.failClosed evaluate cd rule)

/-! ### The process of an execution -/

structure TargetProcess where
  codesigningFlags : BitVec 32
  signingID : String
  teamID : String
  cdhash : List UInt8
  isPlatformBinary : Bool
  deriving DecidableEq, Repr

def CS_VALID : BitVec 32 := 0x1
def CS_ADHOC : BitVec 32 := 0x2
def CS_HARD : BitVec 32 := 0x100
def CS_KILL : BitVec 32 := 0x200
def CS_SIGNED : BitVec 32 := 0x20000000
def CS_DEV_CODE : BitVec 32 := 0x40000000

def TargetProcess.has (p : TargetProcess) (flag : BitVec 32) : Bool :=
  p.codesigningFlags &&& flag ≠ 0

def hexDigit (n : Nat) : Char := "0123456789abcdef".toList.getD n '0'

def hexString (bytes : List UInt8) : String :=
  String.ofList (bytes.flatMap fun b => [hexDigit (b.toNat / 16), hexDigit (b.toNat % 16)])

def signingStatusOf (p : TargetProcess) : SNTSigningStatus :=
  if !p.has CS_SIGNED then .unsigned
  else if !p.has CS_VALID then .invalid
  else if p.has CS_ADHOC then .adhoc
  else if p.has CS_DEV_CODE then .development
  else .production

def identityOf (p : TargetProcess) : FileIdentity :=
  let signed := p.has CS_SIGNED && p.has CS_VALID
  let named := signed && p.signingID ≠ ""
  { cdhash := if signed && (p.has CS_KILL || p.has CS_HARD) then some (hexString p.cdhash) else none
    fileSHA256 := none
    certificateSHA256 := none
    teamID := if named && p.teamID ≠ "" then some p.teamID else none
    signingID :=
      if named && p.teamID ≠ "" then some (p.teamID ++ ":" ++ p.signingID)
      else if named && p.isPlatformBinary then some ("platform:" ++ p.signingID)
      else none
    platformBinaryState := if p.isPlatformBinary then .runtimeTrue else .runtimeFalse
    signingStatus := signingStatusOf p }

def decisionForTarget (source : RuleSource) (config : Configuration) (fi : SNTFileInfo)
    (targetProc : TargetProcess) (evaluate : Option Evaluation) : SNTCachedDecision :=
  decisionForFileInfo source config fi (identityOf targetProc) evaluate

def activationFor {Value : Type} (rt : CelRuntime Value) (file : Option ExecutableFile)
    (e : ExecData) : Evaluation :=
  fun useV2 expr => compileAndEvaluate rt useV2 expr (createActivation file e)

/-! ### What the parts leave alone -/

theorem applyState_flags (enableTransitiveRules : Bool) (cd : SNTCachedDecision) (rule : SNTRule)
    (state : SNTRuleState) :
    (applyState enableTransitiveRules cd rule state).2.cacheable = cd.cacheable ∧
      (applyState enableTransitiveRules cd rule state).2.holdAndAsk = cd.holdAndAsk := by
  unfold applyState
  cases decisions rule.type state with
  | none => exact ⟨rfl, rfl⟩
  | some decision =>
    simp only
    split_ifs <;> exact ⟨rfl, rfl⟩

theorem decisionWithoutRule_cacheable (config : Configuration) (fi : SNTFileInfo)
    (csInfoError : Option Int) (cd : SNTCachedDecision) :
    (decisionWithoutRule config fi csInfoError cd).cacheable = cd.cacheable := by
  unfold decisionWithoutRule
  split
  · rfl
  · split
    · rfl
    · rfl
    · split <;> rfl

theorem settle_cacheable (config : Configuration) (fi : SNTFileInfo) (csInfoError : Option Int)
    (applied : Bool × SNTCachedDecision) :
    (settle config fi csInfoError applied).cacheable = applied.2.cacheable := by
  unfold settle
  split_ifs
  · rfl
  · exact decisionWithoutRule_cacheable config fi csInfoError applied.2

theorem initialDecision_flags (config : Configuration) (fi : SNTFileInfo) (id : FileIdentity) :
    (initialDecision config fi id).1.cacheable = true ∧
      (initialDecision config fi id).1.holdAndAsk = false ∧
      (initialDecision config fi id).1.silentBlock = false := by
  unfold initialDecision
  cases fi.codesign with
  | error code =>
    simp only
    split_ifs <;> exact ⟨rfl, rfl, rfl⟩
  | ok csInfo =>
    simp only
    split_ifs <;> exact ⟨rfl, rfl, rfl⟩

theorem decisionForRule_plain {enableTransitiveRules failClosed : Bool} {evaluate : Option Evaluation}
    {cd : SNTCachedDecision} {rule : SNTRule} (plain : ¬ (rule.state = .cel ∨ rule.state = .celv2)) :
    decisionForRule enableTransitiveRules failClosed evaluate cd rule =
      applyState enableTransitiveRules cd rule rule.state := by
  unfold decisionForRule
  cases evaluate with
  | none => rfl
  | some evaluate => simp [plain]

def decisionForOutcome (enableTransitiveRules failClosed : Bool) (cd : SNTCachedDecision)
    (rule : SNTRule) : Option (ReturnValue × Bool) → Bool × SNTCachedDecision
  | none => if failClosed then (true, { cd with decision := .blockUnknown }) else (false, cd)
  | some (value, cacheable) =>
      let asks := value = .requireTouchID ∧ rule.state = .celv2
      applyState enableTransitiveRules
        { cd with
          holdAndAsk := cd.holdAndAsk || decide asks
          cacheable := cd.cacheable && !decide asks && cacheable }
        rule (stateForReturn rule.state value)

theorem decisionForRule_cel {enableTransitiveRules failClosed : Bool} {evaluate : Evaluation}
    {cd : SNTCachedDecision} {rule : SNTRule} (cel : rule.state = .cel ∨ rule.state = .celv2) :
    decisionForRule enableTransitiveRules failClosed (some evaluate) cd rule =
      decisionForOutcome enableTransitiveRules failClosed cd rule
        (evaluate (rule.state = .celv2) (rule.celExpr.getD "")).toOption := by
  unfold decisionForRule
  simp only [cel, decide_true]
  cases outcome : evaluate (decide (rule.state = .celv2)) (rule.celExpr.getD "") with
  | error message => rfl
  | ok result =>
    obtain ⟨value, cacheable⟩ := result
    simp only [decisionForOutcome, Except.toOption]
    by_cases asks : value = .requireTouchID ∧ rule.state = .celv2
    · cases cacheable <;> simp [asks]
    · cases cacheable <;> simp [asks]

theorem decisionForOutcome_cacheable (enableTransitiveRules failClosed : Bool)
    (cd : SNTCachedDecision) (rule : SNTRule) (value : ReturnValue) (cacheable : Bool) :
    (decisionForOutcome enableTransitiveRules failClosed cd rule (some (value, cacheable))).2.cacheable
      = (cd.cacheable && !decide (value = .requireTouchID ∧ rule.state = .celv2) && cacheable) :=
  (applyState_flags _ _ _ _).1

/-! ### Compiler decisions -/

theorem decisions_compiler {type : SNTRuleType} {state : SNTRuleState} {decision : SNTEventState}
    (h : decisions type state = some decision) (compiler : decision.isAllowCompiler = true) :
    state = .allowCompiler ∧ type ∈ compilerTypes := by
  unfold decisions at h
  split at h <;> cases h <;> simp_all [SNTEventState.isAllowCompiler, compilerTypes]

theorem applyState_compiler {enableTransitiveRules : Bool} {cd : SNTCachedDecision}
    {rule : SNTRule} {state : SNTRuleState}
    (applied : (applyState enableTransitiveRules cd rule state).1 = true)
    (compiler : (applyState enableTransitiveRules cd rule state).2.decision.isAllowCompiler = true) :
    state = .allowCompiler ∧ rule.type ∈ compilerTypes := by
  unfold applyState at applied compiler
  cases table : decisions rule.type state with
  | none => simp [table] at applied
  | some decision =>
    by_cases here : state = .allowCompiler
    · subst here
      refine ⟨rfl, ?_⟩
      cases type : rule.type <;> simp [decisions, type, compilerTypes] at table ⊢
    · refine decisions_compiler table ?_
      simp only [table] at applied compiler
      simp only [here, false_and, if_false] at compiler
      split_ifs at compiler <;> first | exact compiler | exact nomatch compiler

theorem stateForReturn_compiler {state : SNTRuleState} (cel : state = .cel ∨ state = .celv2)
    (value : ReturnValue) : stateForReturn state value ≠ .allowCompiler := by
  rcases cel with cel | cel <;> subst cel <;> cases value <;> decide

theorem decisionForRule_compiler {enableTransitiveRules failClosed : Bool}
    {evaluate : Option Evaluation} {cd : SNTCachedDecision} {rule : SNTRule}
    (applied : (decisionForRule enableTransitiveRules failClosed evaluate cd rule).1 = true)
    (compiler : (decisionForRule enableTransitiveRules failClosed evaluate cd
      rule).2.decision.isAllowCompiler = true) :
    rule.state = .allowCompiler ∧ rule.type ∈ compilerTypes := by
  by_cases cel : rule.state = .cel ∨ rule.state = .celv2
  · cases evaluate with
    | none => exact applyState_compiler applied compiler
    | some evaluate =>
      rw [decisionForRule_cel cel] at applied compiler
      cases outcome : (evaluate (rule.state = .celv2) (rule.celExpr.getD "")).toOption with
      | none =>
        simp only [outcome, decisionForOutcome] at applied compiler
        cases failClosed with
        | false => exact nomatch applied
        | true => exact nomatch compiler
      | some result =>
        rw [outcome] at applied compiler
        have state := (applyState_compiler applied compiler).1
        exact absurd state (stateForReturn_compiler cel result.1)
  · rw [decisionForRule_plain cel] at applied compiler
    exact applyState_compiler applied compiler

theorem decisionWithoutRule_compiler (config : Configuration) (fi : SNTFileInfo)
    (csInfoError : Option Int) (cd : SNTCachedDecision) :
    (decisionWithoutRule config fi csInfoError cd).decision.isAllowCompiler = false := by
  unfold decisionWithoutRule
  split
  · rfl
  · split
    · rfl
    · rfl
    · split <;> rfl

theorem decisionForFileInfo_compiler {source : RuleSource} {config : Configuration}
    {fi : SNTFileInfo} {id : FileIdentity} {evaluate : Option Evaluation}
    (uncached : (decisionForFileInfo source config fi id evaluate).cacheable = false) :
    (decisionForFileInfo source config fi id evaluate).decision.isAllowCompiler = false := by
  have fresh := (initialDecision_flags config fi id).1
  revert uncached
  unfold decisionForFileInfo
  cases id.signingID.bind source.criticalSystemBinaries with
  | some binary => exact nofun
  | none =>
    simp only
    cases executionRuleForIdentifiers source.staticRules source.launchdCert source.table
        (createRuleIDs (initialDecision config fi id).1) with
    | none => exact fun _ => decisionWithoutRule_compiler config fi _ _
    | some rule =>
      simp only [settle_cacheable]
      intro uncached
      simp only [settle]
      split_ifs with applied
      · by_contra compiler
        have state := (decisionForRule_compiler applied (by simpa using compiler)).1
        have plain : ¬ (rule.state = .cel ∨ rule.state = .celv2) := by simp [state]
        rw [decisionForRule_plain plain, (applyState_flags _ _ _ _).1, fresh] at uncached
        exact nomatch uncached
      · exact decisionWithoutRule_compiler config fi _ _

/-! ### Decisions that hold -/

theorem applyState_refused {enableTransitiveRules : Bool} {cd : SNTCachedDecision} {rule : SNTRule}
    {state : SNTRuleState} (refused : (applyState enableTransitiveRules cd rule state).1 = false) :
    (applyState enableTransitiveRules cd rule state).2.silentBlock = cd.silentBlock := by
  unfold applyState at refused ⊢
  cases table : decisions rule.type state with
  | none => rfl
  | some decision =>
    simp only [table] at refused ⊢
    by_cases transitive : state = .allowTransitive ∧ !enableTransitiveRules
    · rw [if_pos transitive, transitive.1]
      rfl
    · rw [if_neg transitive] at refused
      exact nomatch refused

theorem applyState_block (enableTransitiveRules : Bool) (cd : SNTCachedDecision) {rule : SNTRule}
    (type : rule.type ∈ ruleTypes) :
    (applyState enableTransitiveRules cd rule .block).1 = true ∧
      (applyState enableTransitiveRules cd rule .block).2.decision.isBlock = true ∧
      (applyState enableTransitiveRules cd rule .block).2.silentBlock = cd.silentBlock := by
  unfold applyState
  simp only [ruleTypes, List.mem_cons, List.not_mem_nil, or_false] at type
  rcases type with type | type | type | type | type <;> rw [type] <;> exact ⟨rfl, rfl, rfl⟩

/-- What applying a rule leaves: a decision that holds is a block that is not silent, and one
    that was not made does not hold. -/
def HoldsLoudly (applied : Bool × SNTCachedDecision) : Prop :=
  (applied.1 = true → applied.2.holdAndAsk = true →
    applied.2.decision.isBlock = true ∧ applied.2.silentBlock = false) ∧
  (applied.1 = false → applied.2.holdAndAsk = false ∧ applied.2.silentBlock = false)

theorem applyState_holdsLoudly (enableTransitiveRules : Bool) {cd : SNTCachedDecision}
    (rule : SNTRule) (state : SNTRuleState) (fresh : cd.holdAndAsk = false)
    (loud : cd.silentBlock = false) :
    HoldsLoudly (applyState enableTransitiveRules cd rule state) := by
  have flag := (applyState_flags enableTransitiveRules cd rule state).2
  constructor
  · intro _ holds
    rw [flag, fresh] at holds
    exact nomatch holds
  · exact fun refused => ⟨flag.trans fresh, (applyState_refused refused).trans loud⟩

theorem decisionForOutcome_holdsLoudly (enableTransitiveRules failClosed : Bool)
    {cd : SNTCachedDecision} {rule : SNTRule} (type : rule.type ∈ ruleTypes)
    (fresh : cd.holdAndAsk = false) (loud : cd.silentBlock = false)
    (outcome : Option (ReturnValue × Bool)) :
    HoldsLoudly (decisionForOutcome enableTransitiveRules failClosed cd rule outcome) := by
  cases outcome with
  | none =>
    cases failClosed with
    | false => exact ⟨nofun, fun _ => ⟨fresh, loud⟩⟩
    | true =>
      refine ⟨fun _ holds => ?_, nofun⟩
      rw [show cd.holdAndAsk = true from holds] at fresh
      exact nomatch fresh
  | some result =>
    obtain ⟨value, cacheable⟩ := result
    unfold decisionForOutcome
    by_cases asks : value = .requireTouchID ∧ rule.state = .celv2
    · -- the touch ID result of a v2 rule is the only one that holds, and becomes a block
      have block : stateForReturn rule.state value = .block := by simp [stateForReturn, asks]
      simp only [block]
      obtain ⟨applied, isBlock, silent⟩ := applyState_block enableTransitiveRules { cd with
        holdAndAsk := cd.holdAndAsk || decide (value = .requireTouchID ∧ rule.state = .celv2)
        cacheable := cd.cacheable &&
          !decide (value = .requireTouchID ∧ rule.state = .celv2) && cacheable } type
      constructor
      · exact fun _ _ => ⟨isBlock, silent.trans loud⟩
      · intro refused
        rw [applied] at refused
        exact nomatch refused
    · exact applyState_holdsLoudly _ _ _ (by simp [fresh, asks]) loud

theorem decisionForRule_holdsLoudly (enableTransitiveRules failClosed : Bool)
    (evaluate : Option Evaluation) {cd : SNTCachedDecision} {rule : SNTRule}
    (type : rule.type ∈ ruleTypes) (fresh : cd.holdAndAsk = false) (loud : cd.silentBlock = false) :
    HoldsLoudly (decisionForRule enableTransitiveRules failClosed evaluate cd rule) := by
  by_cases cel : rule.state = .cel ∨ rule.state = .celv2
  · cases evaluate with
    | none => exact applyState_holdsLoudly _ _ _ fresh loud
    | some evaluate =>
      rw [decisionForRule_cel cel]
      exact decisionForOutcome_holdsLoudly _ _ type fresh loud _
  · rw [decisionForRule_plain cel]
    exact applyState_holdsLoudly _ _ _ fresh loud

theorem decisionWithoutRule_holds {config : Configuration} {fi : SNTFileInfo}
    {csInfoError : Option Int} {cd : SNTCachedDecision} (fresh : cd.holdAndAsk = false)
    (loud : cd.silentBlock = false)
    (holds : (decisionWithoutRule config fi csInfoError cd).holdAndAsk = true) :
    (decisionWithoutRule config fi csInfoError cd).decision.isBlock = true ∧
      (decisionWithoutRule config fi csInfoError cd).silentBlock = false := by
  unfold decisionWithoutRule at holds ⊢
  split at holds
  · simp [fresh] at holds
  · split at holds
    · simp [fresh] at holds
    · simp [fresh] at holds
    · split at holds
      · simp [fresh] at holds
      · exact ⟨rfl, loud⟩
      · simp [fresh] at holds

theorem decisionForFileInfo_holds {source : RuleSource} {config : Configuration}
    {fi : SNTFileInfo} {id : FileIdentity} {evaluate : Option Evaluation}
    (holds : (decisionForFileInfo source config fi id evaluate).holdAndAsk = true) :
    (decisionForFileInfo source config fi id evaluate).decision.isBlock = true ∧
      (decisionForFileInfo source config fi id evaluate).silentBlock = false := by
  obtain ⟨_, fresh, loud⟩ := initialDecision_flags config fi id
  revert holds
  unfold decisionForFileInfo
  cases id.signingID.bind source.criticalSystemBinaries with
  | some binary => exact nofun
  | none =>
    simp only
    cases found : executionRuleForIdentifiers source.staticRules source.launchdCert source.table
        (createRuleIDs (initialDecision config fi id).1) with
    | none => exact decisionWithoutRule_holds fresh loud
    | some rule =>
      have outcome := decisionForRule_holdsLoudly config.enableTransitiveRules config.failClosed
        evaluate (lookup_type source.declared found) fresh loud
      simp only [settle]
      split_ifs with applied
      · exact outcome.1 applied
      · obtain ⟨asksNot, silentNot⟩ := outcome.2 (by simpa using applied)
        exact decisionWithoutRule_holds asksNot silentNot

end SantaPolicy
