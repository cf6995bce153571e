import Santa.Policy.PolicyProcessor
import Santa.Rules.RuleExport

/-!
CEL results that name the policy of a plain rule. A result becomes a rule state, and the
state with the rule's type is looked up in the table of decisions. A plain rule of the
compiler policy has the compiler state; the result of that name becomes the state of a
transitive rule.
-/
namespace SantaCelPolicies
open SantaRule SantaCel SantaRuleTable SantaPolicy SantaRuleExport

def policyString : ReturnValue → Option String
  | .allowlist => some "ALLOWLIST"
  | .allowlistCompiler => some "ALLOWLIST_COMPILER"
  | .blocklist => some "BLOCKLIST"
  | .silentBlocklist => some "SILENT_BLOCKLIST"
  | .unspecified | .requireTouchID => none

def plainRule (rule : SNTRule) (value : ReturnValue) : Option SNTRule :=
  ((policyString value).bind stateOfPolicy).map fun state =>
    { rule with state := state, celExpr := none }

/-- The rule decides as the plain rule does, except for what may be cached. -/
def ActsLike (enableTransitiveRules failClosed : Bool) (evaluate : Evaluation)
    (cd : SNTCachedDecision) (rule plain : SNTRule) (cacheable : Bool) : Prop :=
  let applied := decisionForRule enableTransitiveRules failClosed (some evaluate) cd plain
  decisionForRule enableTransitiveRules failClosed (some evaluate) cd rule =
    (applied.1, { applied.2 with cacheable := cd.cacheable && cacheable })

/-! ### Both rules end in the table of decisions -/

theorem applyState_setCacheable (enableTransitiveRules cacheable : Bool) (cd : SNTCachedDecision)
    (rule : SNTRule) (state : SNTRuleState) :
    applyState enableTransitiveRules { cd with cacheable } rule state =
      ((applyState enableTransitiveRules cd rule state).1,
        { (applyState enableTransitiveRules cd rule state).2 with cacheable }) := by
  unfold applyState
  cases decisions rule.type state with
  | none => rfl
  | some decision =>
    simp only
    split_ifs <;> rfl

theorem plainRule_cases {rule plain : SNTRule} {value : ReturnValue}
    (named : plainRule rule value = some plain) :
    (value = .allowlistCompiler ∧ plain = { rule with state := .allowCompiler, celExpr := none }) ∨
      (value ≠ .allowlistCompiler ∧ value ≠ .requireTouchID ∧
        plain = { rule with state := stateForReturn rule.state value, celExpr := none } ∧
        ¬ (plain.state = .cel ∨ plain.state = .celv2)) := by
  cases value with
  | allowlistCompiler => exact .inl ⟨rfl, (Option.some.inj named).symm⟩
  | unspecified => cases named
  | requireTouchID => cases named
  | allowlist =>
    obtain rfl := Option.some.inj named
    exact .inr ⟨by decide, by decide, rfl, by simp⟩
  | blocklist =>
    obtain rfl := Option.some.inj named
    exact .inr ⟨by decide, by decide, rfl, by simp⟩
  | silentBlocklist =>
    obtain rfl := Option.some.inj named
    exact .inr ⟨by decide, by decide, rfl, by simp⟩

theorem decisionForRule_evaluated {enableTransitiveRules failClosed : Bool} {evaluate : Evaluation}
    {cd : SNTCachedDecision} {rule : SNTRule} {value : ReturnValue} {cacheable : Bool}
    (cel : rule.state = .cel ∨ rule.state = .celv2) (asks : value ≠ .requireTouchID)
    (evaluates : evaluate (rule.state = .celv2) (rule.celExpr.getD "") = .ok (value, cacheable)) :
    decisionForRule enableTransitiveRules failClosed (some evaluate) cd rule =
      applyState enableTransitiveRules { cd with cacheable := cd.cacheable && cacheable } rule
        (stateForReturn rule.state value) := by
  rw [decisionForRule_cel cel, evaluates]
  simp [Except.toOption, decisionForOutcome, asks]

/-- As the state of a transitive rule, the compiler policy of no type decides like the compiler
    rule: only a binary may be transitive, and then it is no compiler. -/
theorem transitive_unlike_compiler {rule : SNTRule} (compiler : rule.type ∈ compilerTypes)
    (enableTransitiveRules : Bool) (cd cd' : SNTCachedDecision) :
    ((applyState enableTransitiveRules cd rule .allowTransitive).1,
        (applyState enableTransitiveRules cd rule .allowTransitive).2.decision) ≠
      ((applyState enableTransitiveRules cd' rule .allowCompiler).1,
        (applyState enableTransitiveRules cd' rule .allowCompiler).2.decision) := by
  simp only [compilerTypes, List.mem_cons, List.not_mem_nil, or_false] at compiler
  rcases compiler with type | type | type
  · simp [applyState, type, decisions]
  · cases enableTransitiveRules <;> simp [applyState, type, decisions]
  · simp [applyState, type, decisions]

/-- A CEL rule of a type that has compiler rules acts like the plain rule of the policy it
    evaluates to, iff that is not the compiler policy. -/
theorem acts_like_iff (enableTransitiveRules failClosed : Bool) (evaluate : Evaluation)
    (cd : SNTCachedDecision) {rule plain : SNTRule} {value : ReturnValue} {cacheable : Bool}
    (cel : rule.state = .cel ∨ rule.state = .celv2) (compiler : rule.type ∈ compilerTypes)
    (evaluates : evaluate (rule.state = .celv2) (rule.celExpr.getD "") = .ok (value, cacheable))
    (named : plainRule rule value = some plain) :
    ActsLike enableTransitiveRules failClosed evaluate cd rule plain cacheable ↔
      value ≠ .allowlistCompiler := by
  rcases plainRule_cases named with ⟨result, isPlain⟩ | ⟨other, asks, isPlain, notCel⟩
  · have asks : value ≠ .requireTouchID := by
      rw [result]
      decide
    have notCel : ¬ (plain.state = .cel ∨ plain.state = .celv2) := by
      rw [isPlain]
      simp
    refine iff_of_false (fun alike => ?_) (not_not.mpr result)
    unfold ActsLike at alike
    rw [decisionForRule_evaluated cel asks evaluates, decisionForRule_plain notCel] at alike
    have becomes : stateForReturn rule.state value = .allowTransitive := by rw [result]; rfl
    rw [becomes, isPlain] at alike
    refine transitive_unlike_compiler compiler enableTransitiveRules
      { cd with cacheable := cd.cacheable && cacheable } cd ?_
    rw [alike]
    rfl
  · refine iff_of_true ?_ other
    unfold ActsLike
    rw [decisionForRule_evaluated cel asks evaluates, decisionForRule_plain notCel, isPlain]
    exact applyState_setCacheable enableTransitiveRules _ cd rule (stateForReturn rule.state value)

def linkerRule : SNTRule :=
  ⟨"platform:com.apple.ld", .celv2, .signingID, none, none, 0, none, some "euid != 0"⟩

theorem acts_like_allowlist :
    ActsLike true false (fun _ _ => .ok (.allowlist, false)) .new linkerRule
      { linkerRule with state := .allow, celExpr := none } false :=
  (acts_like_iff true false (fun _ _ => .ok (.allowlist, false)) .new (.inr rfl) (by decide) rfl
    rfl).mpr (by decide)

/-- The rule evaluates to the compiler policy and makes no decision at all. -/
theorem compiler_result_undecided :
    (decisionForRule true false (some fun _ _ => .ok (.allowlistCompiler, true)) .new
        linkerRule).1 = false ∧
      ∃ plain, plainRule linkerRule .allowlistCompiler = some plain ∧
        ¬ ActsLike true false (fun _ _ => .ok (.allowlistCompiler, true)) .new linkerRule plain
          true := by
  refine ⟨by decide, _, rfl, ?_⟩
  unfold ActsLike
  decide

end SantaCelPolicies
