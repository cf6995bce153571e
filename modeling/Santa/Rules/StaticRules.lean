import Santa.Rules.RuleExport
import Santa.Rules.RuleTable

/-!
Static rules and the precedence of rules. The rules of the configuration are kept under
their identifiers, whatever their types, and a later one replaces an earlier one. A look-up
probes them with each identifier before it queries the table.
-/
namespace SantaStaticRules
open SantaRule SantaRuleTable SantaRuleExport

/-- The rule of one entry of the configuration. Without an evaluator nothing is compiled. -/
def staticRuleFrom (celEvaluator : Option (String → Option String)) (raw : RawRule) :
    Option SNTRule :=
  match initWithDictionary raw with
  | .error _ => none
  | .ok r =>
      if r.state = .cel ∧ (celEvaluator.bind fun compile => compile (r.celExpr.getD "")).isSome then
        none
      else some r

/-- The static rules that are configured, in their order; what is no array gives none. -/
def configuredRules (celEvaluator : Option (String → Option String))
    (staticRules : Option (List RawRule)) : List SNTRule :=
  (staticRules.getD []).filterMap (staticRuleFrom celEvaluator)

abbrev CachedStaticRules := Option (KeyedRows String SNTRule SNTRule.identifier)

def updateStaticRules (celEvaluator : Option (String → Option String))
    (staticRules : Option (List RawRule)) : CachedStaticRules :=
  staticRules.map fun rules =>
    (rules.filterMap (staticRuleFrom celEvaluator)).foldl KeyedRows.put KeyedRows.empty

def CachedStaticRules.rule (cached : CachedStaticRules) (identifier : String) : Option SNTRule :=
  cached.bind fun rules => rules.get identifier

/-! ### The order that is intended -/

def matchesSlot (rule : SNTRule) (slot : Option String × SNTRuleType) : Bool :=
  slot = (some rule.identifier, rule.type)

def firstMatched (rules : List SNTRule) (ids : RuleIdentifiers) :
    Option (Option String × SNTRuleType) :=
  ids.slots.find? fun slot => rules.any fun rule => matchesSlot rule slot

/-- A static rule for the first identifier that has one comes before all others, then the
    first row of the table, and last the rule for what is signed like launchd. -/
def Precedence (rules : List SNTRule) (launchdCert : Option String) (table : ExecutionRules)
    (ids : RuleIdentifiers) (found : Option FoundRule) : Prop :=
  match firstMatched rules ids with
  | some slot => ∃ rule ∈ rules, matchesSlot rule slot = true ∧ found = some ⟨rule, true⟩
  | none =>
      found = (((selectedRow table ids).bind executionRuleFromResultSet).or
        (launchdRule launchdCert ids)).map (FoundRule.mk · false)

def lastUnder (rules : List SNTRule) (identifier : String) : Option SNTRule :=
  rules.reverse.find? fun rule => rule.identifier = identifier

/-- The last rule under the first identifier matched has the type matched; and where no
    identifier is matched, the table has a row or no static rule is under the team ID. -/
def Unhidden (rules : List SNTRule) (table : ExecutionRules) (ids : RuleIdentifiers) : Prop :=
  match firstMatched rules ids with
  | some slot => ∃ rule, slot.1.bind (lastUnder rules) = some rule ∧ rule.type = slot.2
  | none => selectedRow table ids ≠ none ∨ ids.teamID.bind (lastUnder rules) = none

/-! ### What the probes find -/

theorem rule_updateStaticRules (celEvaluator : Option (String → Option String))
    (staticRules : Option (List RawRule)) :
    (updateStaticRules celEvaluator staticRules).rule =
      lastUnder (configuredRules celEvaluator staticRules) := by
  funext identifier
  cases staticRules with
  | none => rfl
  | some rules =>
    simp only [CachedStaticRules.rule, updateStaticRules, Option.map_some, Option.bind_some,
      KeyedRows.get_foldl_put, lastUnder, configuredRules, Option.getD_some]
    exact Option.or_none

section
variable {rules : List SNTRule} {launchdCert : Option String} {table : ExecutionRules}
  {ids : RuleIdentifiers} {slot : Option String × SNTRuleType} {rule : SNTRule}

theorem lastUnder_some {identifier : String} (last : lastUnder rules identifier = some rule) :
    rule ∈ rules ∧ rule.identifier = identifier :=
  ⟨List.mem_reverse.mp (List.mem_of_find?_eq_some last), by simpa using List.find?_some last⟩

theorem probe_some (probe : staticRule (lastUnder rules) slot = some rule) :
    rule ∈ rules ∧ matchesSlot rule slot = true := by
  obtain ⟨under, type⟩ := Option.filter_eq_some_iff.mp probe
  obtain ⟨identifier, here, last⟩ := Option.bind_eq_some_iff.mp under
  obtain ⟨member, same⟩ := lastUnder_some last
  refine ⟨member, decide_eq_true (Prod.ext ?_ (of_decide_eq_true type).symm)⟩
  rw [here, same]

theorem probe_none (unmatched : ¬ (rules.any fun rule => matchesSlot rule slot) = true) :
    staticRule (lastUnder rules) slot = none := by
  rw [Option.eq_none_iff_forall_ne_some]
  intro rule probe
  obtain ⟨configured, matched⟩ := probe_some probe
  exact unmatched (List.any_eq_true.mpr ⟨rule, configured, matched⟩)

theorem probes_none (unmatched : firstMatched rules ids = none) :
    ids.slots.findSome? (staticRule (lastUnder rules)) = none := by
  rw [List.findSome?_eq_none_iff]
  exact fun slot member => probe_none (List.find?_eq_none.mp unmatched slot member)

theorem probes_first (first : firstMatched rules ids = some slot)
    (probe : staticRule (lastUnder rules) slot = some rule) :
    ids.slots.findSome? (staticRule (lastUnder rules)) = some rule := by
  obtain ⟨-, before, after, split, unmatched⟩ := List.find?_eq_some_iff_append.mp first
  have nothing : before.findSome? (staticRule (lastUnder rules)) = none := by
    rw [List.findSome?_eq_none_iff]
    exact fun slot member => probe_none (by simpa using unmatched slot member)
  rw [split, List.findSome?_append, nothing, Option.none_or, List.findSome?_cons, probe]

theorem found_matched
    (found : foundRule (lastUnder rules) launchdCert table ids = some ⟨rule, true⟩)
    (matched : matchesSlot rule slot = true) : slot.1.bind (lastUnder rules) = some rule := by
  obtain rfl : slot = (some rule.identifier, rule.type) := of_decide_eq_true matched
  suffices last : ∃ identifier, lastUnder rules identifier = some rule by
    obtain ⟨identifier, last⟩ := last
    rw [Option.bind_some, (lastUnder_some last).2]
    exact last
  unfold foundRule at found
  rcases Option.or_eq_some_iff.mp found with static | ⟨-, later⟩
  · obtain ⟨probed, probes, same⟩ := Option.map_eq_some_iff.mp static
    obtain ⟨slot, -, probe⟩ := List.exists_of_findSome?_eq_some probes
    obtain ⟨identifier, -, last⟩ :=
      Option.bind_eq_some_iff.mp (Option.filter_eq_some_iff.mp probe).1
    obtain rfl : probed = rule := congrArg FoundRule.rule same
    exact ⟨identifier, last⟩
  · rcases Option.or_eq_some_iff.mp later with first | ⟨-, launchd⟩
    · cases selected : selectedRow table ids with
      | some row =>
        rw [selected] at first
        obtain ⟨read, -, same⟩ := Option.map_eq_some_iff.mp first
        exact absurd (congrArg FoundRule.staticRule same) Bool.false_ne_true
      | none =>
        rw [selected] at first
        obtain ⟨left, probe, same⟩ := Option.map_eq_some_iff.mp first
        obtain ⟨teamID, -, last⟩ := Option.bind_eq_some_iff.mp probe
        obtain rfl : left = rule := congrArg FoundRule.rule same
        exact ⟨teamID, last⟩
    · obtain ⟨allowed, -, same⟩ := Option.map_eq_some_iff.mp launchd
      exact absurd (congrArg FoundRule.staticRule same) Bool.false_ne_true

end

theorem found_unmatched {rules : List SNTRule} {ids : RuleIdentifiers}
    (unmatched : firstMatched rules ids = none) (launchdCert : Option String)
    (table : ExecutionRules) :
    foundRule (lastUnder rules) launchdCert table ids =
        (((selectedRow table ids).bind executionRuleFromResultSet).or
          (launchdRule launchdCert ids)).map (FoundRule.mk · false) ↔
      (selectedRow table ids ≠ none ∨ ids.teamID.bind (lastUnder rules) = none) := by
  rw [foundRule, probes_none unmatched, lastProbe]
  cases selected : selectedRow table ids with
  | some row =>
    refine iff_of_true ?_ (.inl (Option.some_ne_none row))
    simp only [Option.map_none, Option.none_or, Option.bind_some, Option.map_or]
  | none =>
    cases ids.teamID.bind (lastUnder rules) with
    | none => simp
    | some left =>
      refine iff_of_false (fun same => ?_) (by simp)
      simp only [Option.map_none, Option.none_or, Option.map_some, Option.some_or,
        Option.bind_none] at same
      obtain ⟨allowed, -, same⟩ := Option.map_eq_some_iff.mp same.symm
      exact absurd (congrArg FoundRule.staticRule same) Bool.false_ne_true

/-! ### The types of static rules -/

theorem typeOfString_declared {ruleTypeString : String} {type : SNTRuleType}
    (known : typeOfString ruleTypeString = some type) : type ∈ ruleTypes := by
  unfold typeOfString at known
  split_ifs at known <;> rw [← Option.some.inj known] <;> decide

theorem initWithDictionary_declared {raw : RawRule} {r : SNTRule}
    (built : initWithDictionary raw = .ok r) : r.type ∈ ruleTypes := by
  unfold initWithDictionary at built
  split at built
  · cases built
  · simp only at built
    split at built
    · cases built
    · split at built
      · split at built
        · cases built
        · split at built
          · split at built
            · cases built
            · rename_i type known
              generalize entry : SNTRule.mk _ _ type _ _ 0 _ _ = given at built
              have init : given.init = some r := by
                unfold SNTRule.init
                cases checked : initWithIdentifier given with
                | error reason => rw [checked] at built; cases built
                | ok read =>
                  rw [checked] at built
                  injection built with same
                  rw [same]
                  rfl
              have sameType := (init_fields init).2.1
              rw [← entry] at sameType
              rw [sameType]
              exact typeOfString_declared known
          · cases built
      · cases built

theorem updateStaticRules_declared (celEvaluator : Option (String → Option String))
    (staticRules : Option (List RawRule)) {identifier : String} {rule : SNTRule}
    (cached : (updateStaticRules celEvaluator staticRules).rule identifier = some rule) :
    rule.type ∈ ruleTypes := by
  rw [rule_updateStaticRules] at cached
  obtain ⟨raw, -, made⟩ := List.mem_filterMap.mp (lastUnder_some cached).1
  unfold staticRuleFrom at made
  split at made
  · cases made
  · rename_i read built
    split_ifs at made
    rw [← Option.some.inj made]
    exact initWithDictionary_declared built

/-- A look-up follows the intended order iff the first static match is not replaced by a rule of
    another type under its identifier and, without a match, no static rule under the team ID
    stands in for a missing row. -/
theorem precedence_iff (celEvaluator : Option (String → Option String))
    (staticRules : Option (List RawRule)) (launchdCert : Option String) (table : ExecutionRules)
    (ids : RuleIdentifiers) :
    Precedence (configuredRules celEvaluator staticRules) launchdCert table ids
        (foundRule (updateStaticRules celEvaluator staticRules).rule launchdCert table ids) ↔
      Unhidden (configuredRules celEvaluator staticRules) table ids := by
  rw [rule_updateStaticRules]
  generalize configuredRules celEvaluator staticRules = rules
  unfold Precedence Unhidden
  cases first : firstMatched rules ids with
  | none => exact found_unmatched first launchdCert table
  | some slot =>
    constructor
    · rintro ⟨rule, -, matched, found⟩
      have same : slot = (some rule.identifier, rule.type) := of_decide_eq_true matched
      exact ⟨rule, found_matched found matched, (congrArg Prod.snd same).symm⟩
    · rintro ⟨rule, under, type⟩
      have probe : staticRule (lastUnder rules) slot = some rule := by
        rw [staticRule, under, Option.filter_some_pos (by simpa using type)]
      obtain ⟨configured, matched⟩ := probe_some probe
      refine ⟨rule, configured, matched, ?_⟩
      rw [foundRule, probes_first first probe]
      rfl

def sharedHash : String := "aaaaaaaaaaaaaaaaaaaaaaaaaaaaaaaaaaaaaaaaaaaaaaaaaaaaaaaaaaaaaaaa"

def staticEntry (type policy : String) : RawRule :=
  .dictionary [("identifier", .text sharedHash), ("rule_type", .text type),
    ("policy", .text policy)]

def clashingRules : Option (List RawRule) :=
  some [staticEntry "BINARY" "BLOCKLIST", staticEntry "CERTIFICATE" "ALLOWLIST"]

def binaryOnly : RuleIdentifiers := ⟨none, some sharedHash, none, none, none⟩

/-- The block rule for the binary is hidden by the certificate rule. -/
theorem hidden_by_other_type :
    ¬ Precedence (configuredRules none clashingRules) none .empty binaryOnly
      (foundRule (updateStaticRules none clashingRules).rule none .empty binaryOnly) := by
  have nothing : foundRule (updateStaticRules none clashingRules).rule none .empty binaryOnly =
      none := by decide +kernel
  have matched : firstMatched (configuredRules none clashingRules) binaryOnly =
      some (some sharedHash, .binary) := by decide +kernel
  rw [nothing, Precedence, matched]
  rintro ⟨rule, -, -, none⟩
  cases none

end SantaStaticRules
