import Santa.Policy.PolicyProcessor

/-!
Rules sent to the daemon, and the verdicts that they change. The decision cache
is flushed for a batch that may take an allow verdict away; the question is what
a batch does for which it is not flushed. Such a batch removes nothing, repeats
rows for everything but its allow rules, and replaces no compiler row. But an
allow rule that is found earlier than the old row decides in its place.
-/
namespace SantaRuleFlush
open SantaRule SantaRuleTable SantaCel SantaPolicy

inductive SNTRuleAddSource where
  | syncService
  | santactl
  deriving DecidableEq, Repr

structure AddReply where
  success : Bool
  errors : List SNTError
  flushed : Bool
  deriving DecidableEq, Repr

structure RuleSources where
  syncBaseURL : Option String
  staticRules : Nat
  deriving DecidableEq, Repr

def RuleSources.refuse (config : RuleSources) (source : SNTRuleAddSource) : Bool :=
  source = .santactl && (config.syncBaseURL.isSome || decide (0 < config.staticRules))

section
variable (compile : Bool → String → Option String) (hash : FileAccessRules → String)
variable (fails : Nat → Option String)

/- Removing outdated transitive rules, which follows the adding, is left out. -/
def databaseRuleAddExecutionRules (config : RuleSources) (table : RuleTable)
    (executionRules : List SNTRule) (fileAccessRules : List SNTFileAccessRule)
    (cleanupType : SNTRuleCleanup) (source : SNTRuleAddSource) : AddReply × RuleTable :=
  if config.refuse source then
    (⟨false, [⟨.manualRulesDisabled, "Rejected by the Santa daemon",
      some "SyncBaseURL or StaticRules are set"⟩], false⟩, table)
  else
    let flushCache := cleanupType ≠ .none || fileAccessRules ≠ [] ||
      addedRulesShouldFlushDecisionCache table.db.executionRules executionRules
    let (result, table) :=
      addExecutionRules compile hash fails table executionRules fileAccessRules cleanupType
    (⟨result.success, result.errors, flushCache⟩, table)

def compiled (batch : List SNTRule) : List SNTRule :=
  batch.filter fun r => (celStatus compile r).isNone

def Written (config : RuleSources) (source : SNTRuleAddSource) (batch : List SNTRule) : Prop :=
  config.refuse source = false ∧ batch ≠ [] ∧ (∀ r ∈ batch, invalidEntry r = false) ∧
    ∀ n < (compiled compile batch).length, fails n = none

end

/-! ### Verdicts -/

inductive Verdict where
  | allow
  | allowCompiler
  deriving DecidableEq, Repr

def verdictOf (applied : Bool × SNTCachedDecision) : Option Verdict :=
  if applied.1 && applied.2.decision.isAllow then
    some (if applied.2.decision.isAllowCompiler then .allowCompiler else .allow)
  else none

structure Circumstances where
  enableTransitiveRules : Bool
  failClosed : Bool
  evaluate : Option Evaluation
  cd : SNTCachedDecision

def verdict (c : Circumstances) (found : Option SNTRule) : Option Verdict :=
  found.bind fun rule =>
    verdictOf (decisionForRule c.enableTransitiveRules c.failClosed c.evaluate c.cd rule)

def lookup (launchdCert : Option String) (table : RuleTable) (ids : RuleIdentifiers) :
    Option SNTRule :=
  executionRuleForIdentifiers (fun _ => none) launchdCert table.db.executionRules ids

def allowRuleAt (batch : List SNTRule) (slot : Option String × SNTRuleType) : Option SNTRule :=
  slot.1.bind fun identifier =>
    batch.find? fun r => r.state = .allow ∧ ruleKey r = (identifier, slot.2)

def overriding (table : ExecutionRules) (batch : List SNTRule)
    (slots : List (Option String × SNTRuleType)) : Option SNTRule :=
  (slots.takeWhile fun slot => (rowAt table slot).isNone).findSome? (allowRuleAt batch)

/-- A batch that is written puts no allow rule before a row with a compiler verdict, and one
    before a row with an allow verdict only if it can be read back, or the binary is allowed
    without any rule. -/
def Undisturbed (compile : Bool → String → Option String) (fails : Nat → Option String)
    (config : RuleSources) (source : SNTRuleAddSource) (c : Circumstances)
    (launchdCert : Option String) (table : RuleTable) (batch : List SNTRule)
    (ids : RuleIdentifiers) : Prop :=
  Written compile fails config source batch →
    ∀ r, overriding table.db.executionRules batch ids.slots = some r →
      ∀ v, verdict c (lookup launchdCert table ids) = some v →
        v = .allow ∧ (r.init.isSome ∨ (launchdRule launchdCert ids).isSome)

/-! ### Rules with one verdict -/

def IsCel (r : SNTRule) : Prop := r.state = .cel ∨ r.state = .celv2

/-- The rules differ in what they say to the user at most. -/
structure Alike (r r' : SNTRule) : Prop where
  key : ruleKey r' = ruleKey r
  state : r'.state = r.state
  expr : IsCel r → r'.celExpr = r.celExpr

theorem Alike.refl (r : SNTRule) : Alike r r := ⟨rfl, rfl, fun _ => rfl⟩

theorem verdictOf_applyState (c : Circumstances) {cd cd' : SNTCachedDecision} {r r' : SNTRule}
    (type : r'.type = r.type) (state : SNTRuleState) :
    verdictOf (applyState c.enableTransitiveRules cd' r' state) =
      verdictOf (applyState c.enableTransitiveRules cd r state) := by
  unfold applyState
  rw [type]
  cases decisions r.type state with
  | none => rfl
  | some decision =>
    simp only [verdictOf]
    split_ifs <;> rfl

theorem verdict_alike (c : Circumstances) {r r' : SNTRule} (h : Alike r r') :
    verdict c (some r') = verdict c (some r) := by
  have type : r'.type = r.type := congrArg Prod.snd h.key
  unfold verdict
  simp only [Option.bind_some]
  cases evaluation : c.evaluate with
  | none =>
    unfold decisionForRule
    simp only
    rw [h.state]
    exact verdictOf_applyState c type r.state
  | some evaluate =>
    by_cases cel : IsCel r
    · have cel' : IsCel r' := by rw [IsCel, h.state]; exact cel
      rw [decisionForRule_cel cel, decisionForRule_cel cel', h.state, h.expr cel]
      cases (evaluate (decide (r.state = .celv2)) (r.celExpr.getD "")).toOption with
      | none => rfl
      | some result =>
        unfold decisionForOutcome
        simp only
        rw [h.state]
        exact verdictOf_applyState c type _
    · have plain : ¬ IsCel r' := by rw [IsCel, h.state]; exact cel
      rw [decisionForRule_plain cel, decisionForRule_plain plain, h.state]
      exact verdictOf_applyState c type r.state

theorem verdict_allow (c : Circumstances) {r : SNTRule} (allow : r.state = .allow)
    (type : r.type ∈ ruleTypes) : verdict c (some r) = some .allow := by
  have plain : ¬ IsCel r := by simp [IsCel, allow]
  unfold verdict
  simp only [Option.bind_some]
  rw [decisionForRule_plain plain, allow]
  unfold applyState
  simp only [ruleTypes, List.mem_cons, List.not_mem_nil, or_false] at type
  rcases type with type | type | type | type | type <;> rw [type] <;> rfl

theorem verdict_compiler {c : Circumstances} {r : SNTRule}
    (h : verdict c (some r) = some .allowCompiler) :
    r.state = .allowCompiler ∧ r.type ∈ compilerTypes := by
  simp only [verdict, Option.bind_some, verdictOf] at h
  split_ifs at h with allowed compiler
  · exact decisionForRule_compiler (Bool.and_eq_true_iff.mp allowed).1 compiler
  · exact nomatch Option.some.inj h

/-! ### Reading a row back -/

def foundFrom (launchdCert : Option String) (ids : RuleIdentifiers) (row : Option SNTRule) :
    Option SNTRule :=
  (row.bind executionRuleFromResultSet).or (launchdRule launchdCert ids)

theorem lookup_eq (launchdCert : Option String) (table : RuleTable) (ids : RuleIdentifiers) :
    lookup launchdCert table ids =
      foundFrom launchdCert ids (selectedRow table.db.executionRules ids) := by
  have noStatic : ids.slots.findSome? (staticRule fun _ => none) = none := by
    rw [List.findSome?_eq_none_iff]
    rintro ⟨identifier, type⟩ _
    cases identifier <;> rfl
  have noProbe : lastProbe (fun _ => none) ids = none := by
    rw [lastProbe]
    cases ids.teamID <;> rfl
  rw [lookup, executionRule_noProbe noProbe, noStatic]
  rfl

theorem verdict_foundFrom_allow (c : Circumstances) {launchdCert : Option String}
    {ids : RuleIdentifiers} {r : SNTRule} (allow : r.state = .allow) (type : r.type ∈ ruleTypes) :
    verdict c (foundFrom launchdCert ids (some r)) =
      if r.init.isSome ∨ (launchdRule launchdCert ids).isSome then some .allow else none := by
  unfold foundFrom executionRuleFromResultSet
  simp only [Option.bind_some]
  cases built : r.init with
  | some r' =>
    obtain ⟨state, sameType, _⟩ := init_fields built
    simp only [Option.some_or, Option.isSome_some, true_or, if_true]
    exact verdict_allow c (state.trans allow) (sameType ▸ type)
  | none =>
    cases launchd : launchdRule launchdCert ids with
    | none => rfl
    | some r' =>
      obtain ⟨state, certificate⟩ := launchdRule_allow launchd
      simp only [Option.none_or, Option.isSome_some, or_true, if_true]
      exact verdict_allow c state (by rw [certificate]; decide)

/-! ### The table after a batch that does not flush -/

/-- What can stand where a row stood: the row again, or an allow rule for one that was not a
    compiler's. -/
def Successor (row row' : SNTRule) : Prop :=
  Alike row row' ∨
    (row'.state = .allow ∧ ruleKey row' = ruleKey row ∧
      ¬ (row.state = .allowCompiler ∧ row.type ∈ compilerTypes))

theorem init_alike {row row' : SNTRule} (h : Alike row row') :
    (row.init = none ∧ row'.init = none) ∨
      ∃ r r', row.init = some r ∧ row'.init = some r' ∧ Alike r r' := by
  obtain ⟨identifier, type⟩ := Prod.mk.inj h.key
  have expr : row'.state = .cel ∧ row'.celExpr.getD "" = "" ↔
      row.state = .cel ∧ row.celExpr.getD "" = "" := by
    rw [h.state]
    refine and_congr_right fun cel => ?_
    rw [h.expr (.inl cel)]
  have readable := init_congr identifier type expr
  cases built : row.init with
  | none =>
    rw [built] at readable
    exact .inl ⟨rfl, by simpa using readable⟩
  | some r =>
    obtain ⟨r', built'⟩ := Option.isSome_iff_exists.mp (readable.mpr (by rw [built]; rfl))
    obtain ⟨state, _, celExpr⟩ := init_fields built
    obtain ⟨state', _, celExpr'⟩ := init_fields built'
    obtain ⟨_, _, i, shape, same⟩ := init_some_iff.mp built
    obtain ⟨_, _, i', shape', same'⟩ := init_some_iff.mp built'
    rw [identifier, type, shape, Option.some.injEq] at shape'
    refine .inr ⟨r, r', rfl, built', ?_, ?_, ?_⟩
    · rw [same, same', ← shape']
      exact Prod.ext rfl type
    · rw [state, state', h.state]
    · intro cel
      rw [IsCel, state] at cel
      rw [celExpr, celExpr', h.expr cel]

theorem verdict_foundFrom_alike (c : Circumstances) {launchdCert : Option String}
    {ids : RuleIdentifiers} {row row' : SNTRule} (h : Alike row row') :
    verdict c (foundFrom launchdCert ids (some row')) =
      verdict c (foundFrom launchdCert ids (some row)) := by
  unfold foundFrom executionRuleFromResultSet
  simp only [Option.bind_some]
  rcases init_alike h with ⟨none, none'⟩ | ⟨r, r', some, some', alike⟩
  · rw [none, none']
  · rw [some, some']
    exact verdict_alike c alike

theorem verdict_successor (c : Circumstances) {launchdCert : Option String} {ids : RuleIdentifiers}
    {row row' : SNTRule} (h : Successor row row') (type : row.type ∈ ruleTypes) {v : Verdict}
    (before : verdict c (foundFrom launchdCert ids (some row)) = some v) :
    verdict c (foundFrom launchdCert ids (some row')) = some v := by
  rcases h with alike | ⟨allow, key, noCompiler⟩
  · rw [verdict_foundFrom_alike c alike, before]
  obtain ⟨identifier, sameType⟩ := Prod.mk.inj key
  rw [verdict_foundFrom_allow c allow (sameType ▸ type)]
  unfold foundFrom executionRuleFromResultSet at before
  simp only [Option.bind_some] at before
  cases built : row.init with
  | some r =>
    obtain ⟨present, _, i, shape, _⟩ := init_some_iff.mp built
    have readable : row'.init.isSome := by
      rw [Option.isSome_iff_exists]
      refine ⟨_, init_some_iff.mpr ⟨?_, ?_, i, ?_, rfl⟩⟩
      · rw [identifier]
        exact present
      · simp [allow]
      · rw [identifier, sameType, shape]
    rw [if_pos (.inl readable)]
    cases v with
    | allow => rfl
    | allowCompiler =>
      rw [built, Option.some_or] at before
      obtain ⟨state, type, _⟩ := init_fields built
      have compiler := verdict_compiler before
      rw [state, type] at compiler
      exact absurd compiler noCompiler
  | none =>
    rw [built, Option.none_or] at before
    cases launchd : launchdRule launchdCert ids with
    | none =>
      rw [launchd] at before
      exact nomatch before
    | some r =>
      obtain ⟨state, certificate⟩ := launchdRule_allow launchd
      rw [launchd, verdict_allow c state (by rw [certificate]; decide)] at before
      rw [if_pos (.inr rfl)]
      exact before

section
variable {compile : Bool → String → Option String} {table : ExecutionRules} {batch : List SNTRule}

def tableAfter (compile : Bool → String → Option String) (table : ExecutionRules)
    (batch : List SNTRule) : ExecutionRules :=
  (compiled compile batch).foldl writeRule table

structure Quiet (table : ExecutionRules) (batch : List SNTRule) : Prop where
  noRemove : ∀ r ∈ batch, r.state ≠ .remove
  stored : ∀ r ∈ batch, r.state ≠ .allow → alreadyStored table r = true
  noCompiler : ∀ r ∈ batch, r.state = .allow → r.type ∈ compilerTypes →
    compilerStored table r.identifier = false

theorem quiet_of_no_flush (h : addedRulesShouldFlushDecisionCache table batch = false) :
    Quiet table batch := by
  unfold addedRulesShouldFlushDecisionCache at h
  simp only [Bool.or_eq_false_iff, List.any_eq_false, flushesFor] at h
  obtain ⟨⟨removes, _⟩, flushes⟩ := h
  constructor
  · intro r member
    simpa using removes r member
  · intro r member other
    simpa [other] using flushes r member
  · intro r member allow type
    have quiet := flushes r member
    have kind : ¬ (r.type = .certificate ∨ r.type = .teamID) := by
      rintro (certificate | teamID)
      · simp [certificate, compilerTypes] at type
      · simp [teamID, compilerTypes] at type
    simpa [allow, kind] using quiet

theorem compiled_mem {r : SNTRule} :
    r ∈ compiled compile batch ↔ r ∈ batch ∧ celStatus compile r = none := by
  rw [compiled, List.mem_filter, Option.isNone_iff_eq_none]

theorem get_tableAfter (quiet : Quiet table batch) (k : String × SNTRuleType) :
    (tableAfter compile table batch).get k =
      ((compiled compile batch).reverse.find? fun r => ruleKey r = k).or (table.get k) := by
  have puts : tableAfter compile table batch =
      (compiled compile batch).foldl KeyedRows.put table := by
    refine List.foldl_ext _ _ _ ?_
    intro rows r member
    rw [writeRule, if_neg (quiet.noRemove r (compiled_mem.mp member).1)]
  rw [puts, KeyedRows.get_foldl_put]

theorem row_kept (quiet : Quiet table batch) (committed : Committed compile table)
    (emptyRejected : ∀ useV2, compile useV2 "" ≠ none) {k : String × SNTRuleType} {row : SNTRule}
    (here : table.get k = some row) :
    ∃ row', (tableAfter compile table batch).get k = some row' ∧ Successor row row' := by
  rw [get_tableAfter quiet, here]
  cases last : (compiled compile batch).reverse.find? fun r => ruleKey r = k with
  | none => exact ⟨row, rfl, .inl (.refl row)⟩
  | some r =>
    refine ⟨r, rfl, ?_⟩
    obtain ⟨member, _⟩ := compiled_mem.mp (List.mem_reverse.mp (List.mem_of_find?_eq_some last))
    have key : ruleKey r = k := by simpa using List.find?_some last
    have same : ruleKey r = ruleKey row := by rw [key, KeyedRows.get_key here]
    by_cases allow : r.state = .allow
    · refine .inr ⟨allow, same, ?_⟩
      rintro ⟨compiler, type⟩
      have sameType : r.type = row.type := congrArg Prod.snd same
      rw [← sameType] at type
      have none := quiet.noCompiler r member allow type
      have stored : compilerStored table r.identifier = true := by
        refine List.any_eq_true.mpr ⟨r.type, type, ?_⟩
        rw [show (r.identifier, r.type) = k from key, here]
        simpa using compiler
      exact nomatch none.symm.trans stored
    · have stored := quiet.stored r member allow
      rw [alreadyStored, key, here, Option.any_some, Bool.and_eq_true] at stored
      obtain ⟨state, expr⟩ := stored
      refine .inl ⟨same, (of_decide_eq_true state).symm, ?_⟩
      intro cel
      -- a row without an expression would not have compiled
      have compiles := (committed row (KeyedRows.get_mem here)).2.1
      have present : row.celExpr ≠ none := by
        intro missing
        unfold IsCel at cel
        rw [celStatus, if_pos cel, missing] at compiles
        exact emptyRejected _ compiles
      simp only [present, decide_false, Bool.false_or, Bool.and_eq_true, decide_eq_true_iff] at expr
      exact expr.2.symm

variable (compile) in
theorem row_added (quiet : Quiet table batch) {k : String × SNTRuleType}
    (here : table.get k = none) :
    ((tableAfter compile table batch).get k).isSome =
        (batch.find? fun r => r.state = .allow ∧ ruleKey r = k).isSome ∧
      ∀ r, (tableAfter compile table batch).get k = some r → r.state = .allow ∧ ruleKey r = k := by
  have allowed : ∀ r ∈ compiled compile batch, ruleKey r = k → r.state = .allow := by
    intro r member key
    by_contra other
    have stored := quiet.stored r (compiled_mem.mp member).1 other
    rw [alreadyStored, key, here] at stored
    exact nomatch stored
  rw [get_tableAfter quiet, here, Option.or_none]
  constructor
  · rw [Bool.eq_iff_iff, List.find?_isSome, List.find?_isSome]
    constructor
    · rintro ⟨r, member, key⟩
      have written := List.mem_reverse.mp member
      have allow := allowed r written (of_decide_eq_true key)
      exact ⟨r, (compiled_mem.mp written).1, by simp [allow, of_decide_eq_true key]⟩
    · rintro ⟨r, member, allow⟩
      obtain ⟨state, key⟩ := of_decide_eq_true allow
      have written : r ∈ compiled compile batch :=
        compiled_mem.mpr ⟨member, by simp [celStatus, state]⟩
      exact ⟨r, List.mem_reverse.mpr written, by simp [key]⟩
  · intro r found
    have key : ruleKey r = k := by simpa using List.find?_some found
    exact ⟨allowed r (List.mem_reverse.mp (List.mem_of_find?_eq_some found)) key, key⟩

theorem overriding_cons (slot : Option String × SNTRuleType)
    (slots : List (Option String × SNTRuleType)) :
    overriding table batch (slot :: slots) =
      match rowAt table slot with
      | some _ => none
      | none => (allowRuleAt batch slot).or (overriding table batch slots) := by
  unfold overriding
  rw [List.takeWhile_cons]
  cases rowAt table slot with
  | some row => rfl
  | none =>
    rw [Option.isNone_none, if_pos rfl, List.findSome?_cons]
    cases allowRuleAt batch slot <;> rfl

def Follows : Option SNTRule → Option SNTRule → Option SNTRule → Prop
  | some r, _, after => ∃ r', after = some r' ∧ r'.state = .allow ∧ r.state = .allow ∧
      ruleKey r' = ruleKey r
  | none, some row, after => ∃ row', after = some row' ∧ Successor row row'
  | none, none, after => after = none

theorem selected_after (quiet : Quiet table batch) (committed : Committed compile table)
    (emptyRejected : ∀ useV2, compile useV2 "" ≠ none)
    (slots : List (Option String × SNTRuleType)) :
    Follows (overriding table batch slots) (slots.findSome? (rowAt table))
      (slots.findSome? (rowAt (tableAfter compile table batch))) := by
  induction slots with
  | nil => rfl
  | cons slot slots ih =>
    rw [overriding_cons]
    obtain ⟨identifier, type⟩ := slot
    cases identifier with
    | none => exact ih
    | some identifier =>
      simp only [rowAt, allowRuleAt, Option.bind_some, List.findSome?_cons]
      cases here : table.get (identifier, type) with
      | some row =>
        obtain ⟨row', after, successor⟩ := row_kept quiet committed emptyRejected here
        rw [after]
        exact ⟨row', rfl, successor⟩
      | none =>
        obtain ⟨added, allow⟩ := row_added compile quiet here
        cases first : batch.find? fun r => r.state = .allow ∧ ruleKey r = (identifier, type) with
        | none =>
          rw [first] at added
          have absent : (tableAfter compile table batch).get (identifier, type) = none := by
            simpa using added
          rw [absent]
          simp only [Option.none_or]
          exact ih
        | some r =>
          rw [first] at added
          obtain ⟨r', after⟩ := Option.isSome_iff_exists.mp added
          have picked := List.find?_some first
          obtain ⟨state, key⟩ := of_decide_eq_true picked
          rw [after]
          simp only [Option.some_or]
          exact ⟨r', rfl, (allow r' after).1, state, by rw [(allow r' after).2, key]⟩

end

section
variable {compile : Bool → String → Option String} {hash : FileAccessRules → String}
variable {fails : Nat → Option String} {config : RuleSources} {source : SNTRuleAddSource}
variable {table : RuleTable} {batch : List SNTRule}

theorem rows_after_written (written : Written compile fails config source batch) :
    (databaseRuleAddExecutionRules compile hash fails config table batch [] .none
      source).2.db.executionRules = tableAfter compile table.db.executionRules batch := by
  obtain ⟨accepted, present, valid, statements⟩ := written
  have count : batch.countP (fun r => (celStatus compile r).isNone) =
      (compiled compile batch).length := List.countP_eq_length_filter
  have added : (addExecutionRulesToDB compile fails batch ⟨table.db, 0⟩ []).1 = true := by
    refine added_iff.mpr ⟨valid, ?_⟩
    intro n bound
    rw [Nat.zero_add]
    exact statements n (count ▸ bound)
  have rows := added_rows added
  unfold databaseRuleAddExecutionRules addExecutionRules
  rw [if_neg (by simp [accepted]), if_neg (by simp [present])]
  simp only [cleanup]
  revert rows added
  cases addExecutionRulesToDB compile fails batch ⟨table.db, 0⟩ [] with
  | mk success rest =>
    intro added rows
    subst added
    exact rows

variable (hash table) in
theorem unchanged_unless_written (unwritten : ¬ Written compile fails config source batch) :
    (databaseRuleAddExecutionRules compile hash fails config table batch [] .none source).2.db =
      table.db := by
  unfold databaseRuleAddExecutionRules
  by_cases refused : config.refuse source = true
  · rw [if_pos refused]
  rw [if_neg refused]
  unfold addExecutionRules
  by_cases empty : batch = []
  · rw [if_pos ⟨empty, rfl, rfl⟩]
  rw [if_neg (by simp [empty])]
  simp only [cleanup]
  have rejected : (addExecutionRulesToDB compile fails batch ⟨table.db, 0⟩ []).1 = false := by
    by_contra accepted
    have added : (addExecutionRulesToDB compile fails batch ⟨table.db, 0⟩ []).1 = true := by
      simpa using accepted
    obtain ⟨valid, statements⟩ := added_iff.mp added
    refine unwritten ⟨by simpa using refused, empty, valid, ?_⟩
    intro n bound
    have statement := statements n (by rwa [List.countP_eq_length_filter])
    rwa [Nat.zero_add] at statement
  revert rejected
  cases addExecutionRulesToDB compile fails batch ⟨table.db, 0⟩ [] with
  | mk success rest =>
    intro rejected
    subst rejected
    rfl

end

theorem kept_iff_of_follows (c : Circumstances) {launchdCert : Option String}
    {ids : RuleIdentifiers} {override before after : Option SNTRule}
    (follows : Follows override before after)
    (typeBefore : ∀ row, before = some row → row.type ∈ ruleTypes)
    (typeAfter : ∀ row, after = some row → row.type ∈ ruleTypes) :
    (∀ v, verdict c (foundFrom launchdCert ids before) = some v →
      verdict c (foundFrom launchdCert ids after) = some v) ↔
      ∀ r, override = some r → ∀ v, verdict c (foundFrom launchdCert ids before) = some v →
        v = .allow ∧ (r.init.isSome ∨ (launchdRule launchdCert ids).isSome) := by
  cases override with
  | none =>
    simp only [reduceCtorEq, false_implies, implies_true, iff_true]
    intro v found
    cases before with
    | none =>
      rw [show after = none from follows]
      exact found
    | some row =>
      obtain ⟨row', same, successor⟩ := follows
      rw [same]
      exact verdict_successor c successor (typeBefore row rfl) found
  | some r =>
    obtain ⟨r', same, allow', allow, key⟩ := follows
    obtain ⟨identifier, type⟩ := Prod.mk.inj key
    have readable : r'.init.isSome = r.init.isSome :=
      Bool.eq_iff_iff.mpr (init_congr identifier type (by simp [allow', allow]))
    rw [same, verdict_foundFrom_allow c allow' (typeAfter r' same), readable]
    constructor
    · intro kept q given v found
      rw [← Option.some.inj given]
      have now := kept v found
      split_ifs at now with holds
      exact ⟨(Option.some.inj now).symm, holds⟩
    · intro holds v found
      obtain ⟨allowed, built⟩ := holds r rfl v found
      rw [if_pos built, allowed]

/-- Without a flush the verdicts to allow are kept exactly when no allow rule of the batch
    comes before the row they rest on, or none that matters. -/
theorem verdict_kept_iff (compile : Bool → String → Option String)
    (hash : FileAccessRules → String) (fails : Nat → Option String) (config : RuleSources)
    (source : SNTRuleAddSource) (c : Circumstances) (launchdCert : Option String)
    (table : RuleTable) (batch : List SNTRule) (ids : RuleIdentifiers)
    (emptyRejected : ∀ useV2, compile useV2 "" ≠ none)
    (committed : Committed compile table.db.executionRules)
    (noFlush : addedRulesShouldFlushDecisionCache table.db.executionRules batch = false) :
    (∀ v, verdict c (lookup launchdCert table ids) = some v →
      verdict c (lookup launchdCert (databaseRuleAddExecutionRules compile hash fails config table
        batch [] .none source).2 ids) = some v) ↔
      Undisturbed compile fails config source c launchdCert table batch ids := by
  by_cases written : Written compile fails config source batch
  · simp only [Undisturbed, written, true_implies, lookup_eq, rows_after_written written]
    exact kept_iff_of_follows c
      (selected_after (quiet_of_no_flush noFlush) committed emptyRejected ids.slots)
      (fun _ => selectedRow_type) (fun _ => selectedRow_type)
  · have same := unchanged_unless_written hash table written
    have trivially : Undisturbed compile fails config source c launchdCert table batch ids :=
      fun here => absurd here written
    simp only [trivially, iff_true, lookup_eq, same]
    exact fun v before => before

/-! ### A compiler with a signing ID rule -/

def compilerHash : String := "89abcdef0123456789abcdef0123456789abcdef0123456789abcdef01234567"

def compilerRule : SNTRule :=
  ⟨"ABCDE12345:com.example.cc", .allowCompiler, .signingID, none, none, 0, none, none⟩

def hashRule : SNTRule := ⟨compilerHash, .allow, .binary, none, none, 0, none, none⟩

def compilerTable : RuleTable := ⟨⟨KeyedRows.empty.put compilerRule, .empty⟩, "", ""⟩

def compilerIdentifiers : RuleIdentifiers :=
  ⟨none, some compilerHash, some "ABCDE12345:com.example.cc", none, some "ABCDE12345"⟩

def transitiveRules : Circumstances := ⟨true, false, none, .new⟩

def compileNonEmpty : Bool → String → Option String :=
  fun _ expr => if expr = "" then some "INVALID_ARGUMENT: unexpected end of input" else none

def addToCompilerTable (batch : List SNTRule) : RuleTable :=
  (databaseRuleAddExecutionRules compileNonEmpty (fun _ => "") (fun _ => none) ⟨none, 0⟩
    compilerTable batch [] .none .syncService).2

theorem compilerTable_committed : Committed compileNonEmpty compilerTable.db.executionRules := by
  intro r member
  rw [List.mem_singleton.mp (show r ∈ [compilerRule] from member)]
  decide

/-- The compiler's rule is sent once more: no flush is needed. -/
theorem repeated_rule_keeps_verdict :
    verdict transitiveRules (lookup none compilerTable compilerIdentifiers) =
        some .allowCompiler ∧
      verdict transitiveRules (lookup none (addToCompilerTable [compilerRule])
        compilerIdentifiers) = some .allowCompiler := by
  have before : verdict transitiveRules (lookup none compilerTable compilerIdentifiers) =
      some .allowCompiler := by decide
  have none : overriding compilerTable.db.executionRules [compilerRule]
      compilerIdentifiers.slots = none := by decide
  have kept := (verdict_kept_iff compileNonEmpty (fun _ => "") (fun _ => .none) ⟨.none, 0⟩
    .syncService transitiveRules .none compilerTable [compilerRule] compilerIdentifiers (by decide)
    compilerTable_committed (by decide)).mpr
      (fun _ r overrides => absurd (none.symm.trans overrides) nofun)
  exact ⟨before, kept .allowCompiler before⟩

/-- The compiler's binary is allowed by hash: it is one no longer, but stays one in the cache. -/
theorem compiler_verdict_lost :
    Committed compileNonEmpty compilerTable.db.executionRules ∧
      addedRulesShouldFlushDecisionCache compilerTable.db.executionRules [hashRule] = false ∧
      ¬ ∀ v, verdict transitiveRules (lookup none compilerTable compilerIdentifiers) = some v →
        verdict transitiveRules (lookup none (addToCompilerTable [hashRule])
          compilerIdentifiers) = some v := by
  refine ⟨compilerTable_committed, by decide, ?_⟩
  intro kept
  exact absurd (kept .allowCompiler (by decide)) (by decide)

end SantaRuleFlush
