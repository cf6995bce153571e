import Santa.Policy.PolicyProcessor

/-!
When a decision marked cacheable may be reused. The flag is cleared by a CEL
result that depended on the execution, but not by an evaluation that failed:
its decision is cacheable whatever it read before it failed.
-/
namespace SantaCacheability
open SantaRule SantaCel SantaRuleTable SantaPolicy

section
variable {Value : Type} (rt : CelRuntime Value) (file : Option ExecutableFile)
variable (source : RuleSource) (config : Configuration) (fi : SNTFileInfo) (id : FileIdentity)

def decisionFor (e : ExecData) : SNTCachedDecision :=
  decisionForFileInfo source config fi id (some (activationFor rt file e))

/-- A cacheable decision holds for every execution of the file. -/
def FlagSound : Prop :=
  ∀ a b : ExecData, (decisionFor rt file source config fi id a).cacheable = true →
    decisionFor rt file source config fi id b = decisionFor rt file source config fi id a

def celRule : Option SNTRule :=
  match id.signingID.bind source.criticalSystemBinaries with
  | some _ => none
  | none =>
      (executionRuleForIdentifiers source.staticRules source.launchdCert source.table
        (createRuleIDs (initialDecision config fi id).1)).filter fun rule =>
          rule.state = .cel ∨ rule.state = .celv2

/-- Evaluation does not fail for one execution, after reading something of it, while it
    succeeds for another. -/
def FailsForAll : Prop :=
  ∀ rule plan, celRule source config fi id = some rule →
    rt.compile (rule.state = .celv2) (rule.celExpr.getD "") = .ok plan →
    ∀ a b : ExecData, Reads rt (rule.state = .celv2) file plan a →
      (evaluate rt (rule.state = .celv2) plan (createActivation file a)).isOk = false →
      (evaluate rt (rule.state = .celv2) plan (createActivation file b)).isOk = false

variable {rt file source config fi id}

def afterOutcome (config : Configuration) (fi : SNTFileInfo) (id : FileIdentity) (rule : SNTRule)
    (outcome : Option (ReturnValue × Bool)) : SNTCachedDecision :=
  settle config fi (initialDecision config fi id).2
    (decisionForOutcome config.enableTransitiveRules config.failClosed
      (initialDecision config fi id).1 rule outcome)

theorem afterOutcome_failed (rule : SNTRule) :
    (afterOutcome config fi id rule none).cacheable = true := by
  have fresh := (initialDecision_flags config fi id).1
  rw [afterOutcome, settle_cacheable]
  unfold decisionForOutcome
  cases config.failClosed with
  | true => exact fresh
  | false => exact fresh

theorem afterOutcome_uncached (rule : SNTRule) (value : ReturnValue) :
    (afterOutcome config fi id rule (some (value, false))).cacheable = false := by
  rw [afterOutcome, settle_cacheable, decisionForOutcome_cacheable, Bool.and_false]

theorem decisionFor_plain (none : celRule source config fi id = none) (a b : ExecData) :
    decisionFor rt file source config fi id a = decisionFor rt file source config fi id b := by
  unfold decisionFor decisionForFileInfo
  cases critical : id.signingID.bind source.criticalSystemBinaries with
  | some binary => rfl
  | none =>
    simp only
    cases matched : executionRuleForIdentifiers source.staticRules source.launchdCert source.table
        (createRuleIDs (initialDecision config fi id).1) with
    | none => rfl
    | some rule =>
      have plain : ¬ (rule.state = .cel ∨ rule.state = .celv2) := by
        simp only [celRule, critical, matched] at none
        simpa [Option.filter] using none
      simp only [decisionForRule_plain plain]

theorem decisionFor_cel {rule : SNTRule} (found : celRule source config fi id = some rule)
    (e : ExecData) :
    decisionFor rt file source config fi id e =
      afterOutcome config fi id rule
        (compileAndEvaluate rt (rule.state = .celv2) (rule.celExpr.getD "")
          (createActivation file e)).toOption := by
  unfold decisionFor decisionForFileInfo
  unfold celRule at found
  cases critical : id.signingID.bind source.criticalSystemBinaries with
  | some binary => simp [critical] at found
  | none =>
    simp only [critical] at found
    obtain ⟨matched, cel⟩ := Option.filter_eq_some_iff.mp found
    simp only [matched, decisionForRule_cel (of_decide_eq_true cel)]
    rfl

theorem toOption_failed {ε α : Type} {x : Except ε α} (failed : x.isOk = false) :
    x.toOption = none := by
  cases x with
  | error message => rfl
  | ok value => exact nomatch failed

theorem decisionFor_compiled {rule : SNTRule} {plan : Plan Value}
    (found : celRule source config fi id = some rule)
    (compiled : rt.compile (rule.state = .celv2) (rule.celExpr.getD "") = .ok plan) (e : ExecData) :
    decisionFor rt file source config fi id e = afterOutcome config fi id rule
      (evaluate rt (rule.state = .celv2) plan (createActivation file e)).toOption := by
  rw [decisionFor_cel found, compileAndEvaluate, compiled]
  rfl

theorem decisionFor_rejected {rule : SNTRule} {status : String}
    (found : celRule source config fi id = some rule)
    (rejected : rt.compile (rule.state = .celv2) (rule.celExpr.getD "") = .error status)
    (e : ExecData) :
    decisionFor rt file source config fi id e = afterOutcome config fi id rule none := by
  rw [decisionFor_cel found, compileAndEvaluate, rejected]
  rfl

theorem reading_uncacheable {rule : SNTRule} {plan : Plan Value} {e : ExecData}
    {result : ReturnValue × Bool} (found : celRule source config fi id = some rule)
    (compiled : rt.compile (rule.state = .celv2) (rule.celExpr.getD "") = .ok plan)
    (reads : Reads rt (rule.state = .celv2) file plan e)
    (succeeded : evaluate rt (rule.state = .celv2) plan (createActivation file e) = .ok result) :
    (decisionFor rt file source config fi id e).cacheable = false := by
  obtain ⟨value, flag⟩ := result
  have read := evaluate_flag succeeded
  simp only [reads, decide_true, Bool.not_true] at read
  rw [decisionFor_compiled found compiled, succeeded, read]
  exact afterOutcome_uncached rule value

theorem failsForAll_of_sound (sound : FlagSound rt file source config fi id) :
    FailsForAll rt file source config fi id := by
  intro rule plan found compiled a b reads fails
  have cacheable : (decisionFor rt file source config fi id a).cacheable = true := by
    rw [decisionFor_compiled found compiled, toOption_failed fails, afterOutcome_failed]
  have same := sound a b cacheable
  cases second : evaluate rt (rule.state = .celv2) plan (createActivation file b) with
  | error message => rfl
  | ok result =>
    -- the second evaluation reads as well, so its decision is another one
    have uncacheable := reading_uncacheable found compiled (reads_alike reads b) second
    rw [same, cacheable] at uncacheable
    exact nomatch uncacheable

theorem sound_of_failsForAll {rule : SNTRule} {plan : Plan Value}
    (found : celRule source config fi id = some rule)
    (compiled : rt.compile (rule.state = .celv2) (rule.celExpr.getD "") = .ok plan)
    (fails : FailsForAll rt file source config fi id) : FlagSound rt file source config fi id := by
  intro a b cacheable
  by_cases reads : Reads rt (rule.state = .celv2) file plan a
  · cases first : evaluate rt (rule.state = .celv2) plan (createActivation file a) with
    | error message =>
      have failed := fails rule plan found compiled a b reads (by rw [first]; rfl)
      rw [decisionFor_compiled found compiled, decisionFor_compiled found compiled, first,
        toOption_failed failed]
      rfl
    | ok result =>
      rw [reading_uncacheable found compiled reads first] at cacheable
      exact nomatch cacheable
  · rw [decisionFor_compiled found compiled, decisionFor_compiled found compiled,
      (unread_shared reads b).2]

/-- The flag is sound exactly for files whose CEL rule does not fail on some executions
    only, after reading from them. -/
theorem flag_sound_iff {Value : Type} (rt : CelRuntime Value) (file : Option ExecutableFile)
    (source : RuleSource) (config : Configuration) (fi : SNTFileInfo) (id : FileIdentity) :
    FlagSound rt file source config fi id ↔ FailsForAll rt file source config fi id := by
  refine ⟨failsForAll_of_sound, ?_⟩
  intro fails
  cases found : celRule source config fi id with
  | none => exact fun a b _ => decisionFor_plain found b a
  | some rule =>
    cases compiled : rt.compile (rule.state = .celv2) (rule.celExpr.getD "") with
    | error status =>
      intro a b _
      rw [decisionFor_rejected found compiled, decisionFor_rejected found compiled]
    | ok plan => exact sound_of_failsForAll found compiled fails

end

/-! ### An expression that fails without a second argument -/

inductive CelValue where
  | bool (value : Bool)
  | int64 (value : Int)
  | list (elements : List String)
  | error (status : String)
  | message
  deriving DecidableEq, Repr

def CelValue.view : CelValue → CelView
  | .bool value => .bool value
  | .int64 value => .int64 value
  | .list _ => .other "list"
  | .error status => .error status
  | .message => .other "message"

def secondArgument : Plan CelValue :=
  .ask "args" fun
    | some (.list args) =>
        match args[1]? with
        | some arg => .done (.ok (.bool (arg ≠ "--shell")))
        | none => .done (.ok (.error "INVALID_ARGUMENT: index out of range"))
    | _ => .done (.error "NOT_FOUND: no value found in the activation")

def secondArgumentRuntime : CelRuntime CelValue where
  view := CelValue.view
  ofNumber := .int64
  ofFile := fun _ => .message
  ofArgs := .list
  ofEnvs := fun _ => .message
  ofEuid := fun euid => .int64 euid
  ofCwd := fun _ => .message
  descriptor := fun _ => [("UNSPECIFIED", .unspecified), ("ALLOWLIST", .allowlist),
    ("BLOCKLIST", .blocklist)]
  number := fun
    | .unspecified => 0
    | .allowlist => 1
    | .allowlistCompiler => 2
    | .blocklist => 3
    | .silentBlocklist => 4
    | .requireTouchID => 5
  compile := fun _ expr =>
    if expr = "args[1] != \"--shell\"" then .ok secondArgument else .error "INVALID_ARGUMENT"

def toolHash : String := "0123456789abcdef0123456789abcdef0123456789abcdef0123456789abcdef"

def toolSource : RuleSource where
  staticRules := fun _ => none
  launchdCert := none
  table := KeyedRows.empty.put
    ⟨toolHash, .cel, .binary, none, none, 0, none, some "args[1] != \"--shell\""⟩
  criticalSystemBinaries := fun _ => none
  declared := declared_none

def monitorConfiguration : Configuration :=
  ⟨.monitor, false, false, false, false, fun _ => false, fun _ => false⟩

def toolInfo : SNTFileInfo :=
  ⟨some toolHash, "/usr/local/bin/tool", true, false, none, .error errSecCSUnsigned⟩

/-- Run without arguments the tool is allowed for want of a rule's verdict, and cacheably so;
    its shell, run next, is one that the rule blocks. -/
theorem failed_evaluation_cacheable :
    ¬ FlagSound secondArgumentRuntime none toolSource monitorConfiguration toolInfo
      (identityOf ⟨0, "", "", [], false⟩) := by
  intro sound
  have same := sound ⟨["tool"], [], 501, "/"⟩ ⟨["tool", "--shell"], [], 501, "/"⟩ (by decide)
  revert same
  decide

end SantaCacheability
