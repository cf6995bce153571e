import Santa.Auth.HoldAndAsk
import Santa.Rules.RuleAddition

/-!
The rules that users make. In standalone mode an unknown binary is held, and
when its user agrees an allow rule for it is added. The look-up that found no
rule to apply and the addition are far apart: rules from elsewhere can be added
while the user thinks, and a rule that was there all along may not have been
applied. The executions are those of the run model, and what they look up is the
table that all additions write to.
-/
namespace SantaStandaloneRules
open SantaRule SantaRuleTable SantaRuleAddition SantaPolicy SantaExec SantaExecRuns

structure Daemon where
  runs : SantaExecRuns.System
  table : RuleTable

def reads (runs : SantaExecRuns.System) (table : RuleTable) : SantaExecRuns.System :=
  { runs with world := { runs.world with
    source := { runs.world.source with table := table.db.executionRules } } }

def Daemon.start (rootDevno cacheDenyTimeMs : Nat) (world : World) (table : RuleTable) : Daemon :=
  ⟨reads (.start rootDevno cacheDenyTimeMs world) table, table⟩

inductive Label where
  | execution (label : SantaExecRuns.Label) (fails : Nat → Option String)
  | add (executionRules : List SNTRule) (fileAccessRules : List SNTFileAccessRule)
      (cleanupType : SNTRuleCleanup) (fails : Nat → Option String)

def approvedRule (runs : SantaExecRuns.System) : SantaExecRuns.Label → Option SNTRule
  | .act id _ _ =>
      match (runs.execs id).map Exec.phase with
      | some (.acting (.addRule rule :: _)) => some rule
      | _ => none
  | _ => none

section
variable (compile : Bool → String → Option String) (hash : FileAccessRules → String)

def addApproved (table : RuleTable) (rule : Option SNTRule) (fails : Nat → Option String) :
    RuleTable :=
  match rule with
  | some rule => (addExecutionRules compile hash fails table [rule] [] .none).2
  | none => table

def step (s : Daemon) : Label → Option Daemon
  | .execution label fails =>
      (SantaExecRuns.step s.runs label).map fun runs =>
        let table := addApproved compile hash s.table (approvedRule s.runs label) fails
        ⟨reads runs table, table⟩
  | .add executionRules fileAccessRules cleanupType fails =>
      let table := (addExecutionRules compile hash fails s.table executionRules fileAccessRules
        cleanupType).2
      some ⟨reads s.runs table, table⟩

end

def committed (table : RuleTable) (key : String × SNTRuleType) : Option SNTRule :=
  table.db.executionRules.get key

/-- The states of rules that somebody chose: allow, block, compiler and CEL. -/
def chosen : SNTRuleState → Bool
  | .allow | .block | .silentBlock | .allowCompiler | .cel | .celv2 => true
  | _ => false

def LeftAlone (table after : RuleTable) (key : String × SNTRuleType) : Prop :=
  ∀ row, committed table key = some row → chosen row.state = true →
    ∃ row', committed after key = some row' ∧ row'.state = row.state ∧ row'.celExpr = row.celExpr

/-- An approval leaves the rule for its identifier and type alone. -/
def Preserves (compile : Bool → String → Option String) (hash : FileAccessRules → String)
    (s : Daemon) : Label → Prop
  | .execution label fails => ∀ rule, approvedRule s.runs label = some rule →
      LeftAlone s.table (addApproved compile hash s.table (some rule) fails) (ruleKey rule)
  | .add _ _ _ _ => True

/-- When an approval's rule is about to be written, the table has no rule of another kind for
    its identifier and type, or the write fails. -/
def Unruled (s : Daemon) : Label → Prop
  | .execution label fails => ∀ rule, approvedRule s.runs label = some rule → fails 0 = none →
      ∀ row, committed s.table (ruleKey rule) = some row → chosen row.state = false
  | .add _ _ _ _ => True

/-! ### Rules that were not applied -/

theorem decisions_ne_unknown {type : SNTRuleType} {state : SNTRuleState}
    {decision : SNTEventState} (entry : decisions type state = some decision) :
    decision ≠ .blockUnknown ∧ withoutTransitive type decision ≠ .blockUnknown := by
  unfold decisions at entry
  split at entry <;> cases entry <;> decide

theorem applyState_ne_unknown {enableTransitiveRules : Bool} {cd : SNTCachedDecision}
    {rule : SNTRule} {state : SNTRuleState}
    (applied : (applyState enableTransitiveRules cd rule state).1 = true) :
    (applyState enableTransitiveRules cd rule state).2.decision ≠ .blockUnknown := by
  unfold applyState at applied ⊢
  cases entry : decisions rule.type state with
  | none => simp [entry] at applied
  | some decision =>
    obtain ⟨known, compiled⟩ := decisions_ne_unknown entry
    simp only [entry] at applied ⊢
    by_cases off : state = .allowTransitive ∧ (!enableTransitiveRules) = true
    · rw [if_pos off] at applied
      cases applied
    · rw [if_neg off]
      by_cases compiler : state = .allowCompiler ∧ (!enableTransitiveRules) = true
      · simp only [if_pos compiler]
        by_cases silent : state = .silentBlock
        · simp [compiler.1] at silent
        · rw [if_neg silent]
          exact compiled
      · simp only [if_neg compiler]
        by_cases silent : state = .silentBlock
        · rw [if_pos silent]
          exact known
        · rw [if_neg silent]
          exact known

theorem decisionForRule_settles {enableTransitiveRules failClosed : Bool}
    {evaluate : Option Evaluation} {cd : SNTCachedDecision} {rule : SNTRule}
    (fresh : cd.holdAndAsk = false)
    (applied : (decisionForRule enableTransitiveRules failClosed evaluate cd rule).1 = true)
    (holds : (decisionForRule enableTransitiveRules failClosed evaluate cd rule).2.holdAndAsk =
      true) :
    (decisionForRule enableTransitiveRules failClosed evaluate cd rule).2.decision ≠
      .blockUnknown := by
  by_cases cel : rule.state = .cel ∨ rule.state = .celv2
  · cases evaluate with
    | none => exact applyState_ne_unknown applied
    | some evaluate =>
      rw [decisionForRule_cel cel] at applied holds ⊢
      cases outcome : (evaluate (rule.state = .celv2) (rule.celExpr.getD "")).toOption with
      | none =>
        simp only [outcome, decisionForOutcome] at applied holds
        cases failClosed with
        | false => cases applied
        | true =>
          simp only [if_true] at holds
          rw [fresh] at holds
          cases holds
      | some result =>
        rw [outcome] at applied
        exact applyState_ne_unknown applied
  · rw [decisionForRule_plain cel] at applied ⊢
    exact applyState_ne_unknown applied

/-- When an execution is held as unknown, the rule that was found for it was not applied. -/
theorem held_unknown {source : RuleSource} {config : Configuration} {fi : SNTFileInfo}
    {id : FileIdentity} {evaluate : Option Evaluation} {rule : SNTRule}
    (holds : (decisionForFileInfo source config fi id evaluate).holdAndAsk = true)
    (unknown : (decisionForFileInfo source config fi id evaluate).decision = .blockUnknown)
    (found : executionRuleForIdentifiers source.staticRules source.launchdCert source.table
      (createRuleIDs (initialDecision config fi id).1) = some rule) :
    (decisionForRule config.enableTransitiveRules config.failClosed evaluate
      (initialDecision config fi id).1 rule).1 = false := by
  obtain ⟨_, fresh, _⟩ := initialDecision_flags config fi id
  unfold decisionForFileInfo at holds unknown
  cases critical : id.signingID.bind source.criticalSystemBinaries with
  | some binary => simp [critical, CriticalBinary.decision, SNTCachedDecision.new] at holds
  | none =>
    simp only [critical, found, settle] at holds unknown
    by_cases applied : (decisionForRule config.enableTransitiveRules config.failClosed evaluate
      (initialDecision config fi id).1 rule).1 = true
    · rw [if_pos applied] at holds unknown
      exact absurd unknown (decisionForRule_settles fresh applied holds)
    · simpa using applied

theorem decisions_chosen {type : SNTRuleType} {state : SNTRuleState} (types : type ∈ compilerTypes)
    (other : chosen state = true) (plain : ¬ (state = .cel ∨ state = .celv2)) :
    (decisions type state).isSome = true ∧ state ≠ .allowTransitive := by
  simp only [compilerTypes, List.mem_cons, List.not_mem_nil, or_false] at types
  rcases types with cdHash | binary | signingID <;> subst type <;> cases state <;>
    simp_all [chosen, decisions]

/-- Of the rules that somebody chose for a file, only those with an expression can be found and
    not be applied. -/
theorem unapplied_cel {enableTransitiveRules failClosed : Bool} {evaluate : Option Evaluation}
    {cd : SNTCachedDecision} {rule : SNTRule} (types : rule.type ∈ compilerTypes)
    (other : chosen rule.state = true)
    (unapplied : (decisionForRule enableTransitiveRules failClosed evaluate cd rule).1 = false) :
    rule.state = .cel ∨ rule.state = .celv2 := by
  by_contra plain
  obtain ⟨entry, notTransitive⟩ := decisions_chosen types other plain
  obtain ⟨decision, entry⟩ := Option.isSome_iff_exists.mp entry
  rw [decisionForRule_plain plain, applyState] at unapplied
  simp [entry, notTransitive] at unapplied

/-! ### The rule of an approval -/

structure Local (rule : SNTRule) : Prop where
  state : rule.state = .allowLocalSigningID ∨ rule.state = .allowLocalBinary
  type : rule.type = .signingID ∨ rule.type = .binary
  identifier : rule.identifier ≠ ""

theorem toList_lowercase (cs : List Char) : (lowercase cs).toList.length = cs.length := by
  simp [lowercase]

theorem signingIdentifier_nonempty {text identifier : String}
    (normal : signingIdentifier text = some identifier) : identifier ≠ "" := by
  obtain ⟨⟨team, signing⟩, _, rest⟩ := Option.bind_eq_some_iff.mp normal
  simp only at rest
  split at rest
  · cases rest
  · obtain ⟨prefixed, _, same⟩ := Option.map_eq_some_iff.mp rest
    intro empty
    have lengths := congrArg (fun s => s.toList.length) (same.trans empty)
    simp at lengths

theorem hexIdentifier_nonempty {text identifier : String}
    (normal : hexIdentifier kSHA256Length text = some identifier) : identifier ≠ "" := by
  simp only [hexIdentifier] at normal
  split at normal
  · rename_i hex
    rw [Option.some.injEq] at normal
    intro empty
    have lengths := congrArg (fun s => s.toList.length) (normal.trans empty)
    simp only [toList_lowercase, hex.1] at lengths
    exact absurd lengths (by decide)
  · cases normal

theorem ruleForEvent_local {se : StoredExecutionEvent} {now : Nat} {rule : SNTRule}
    (built : ruleForStandaloneModeEvent se now = some rule) : Local rule := by
  unfold ruleForStandaloneModeEvent at built
  split at built
  · obtain ⟨-, -, identifier, normal, same⟩ := init_some_iff.mp built
    subst same
    exact ⟨.inl rfl, .inl rfl, signingIdentifier_nonempty normal⟩
  · obtain ⟨-, -, identifier, normal, same⟩ := init_some_iff.mp built
    subst same
    exact ⟨.inr rfl, .inr rfl, hexIdentifier_nonempty normal⟩
  · cases built

theorem Local.plain {rule : SNTRule} (made : Local rule) : Plain rule where
  valid := by
    rcases made.state with state | state <;> rcases made.type with type | type <;>
      simp [invalidEntry, state, type, made.identifier]
  stays := by rcases made.state with state | state <;> simp [state]
  unevaluated := by rcases made.state with state | state <;> simp [state]

theorem Local.not_chosen {rule : SNTRule} (made : Local rule) : chosen rule.state = false := by
  rcases made.state with state | state <;> rw [state] <;> rfl

theorem leftAlone_iff {compile : Bool → String → Option String} {hash : FileAccessRules → String}
    (table : RuleTable) {rule : SNTRule} (made : Local rule) (fails : Nat → Option String) :
    LeftAlone table (addApproved compile hash table (some rule) fails) (ruleKey rule) ↔
      (fails 0 = none → ∀ row, committed table (ruleKey rule) = some row →
        chosen row.state = false) := by
  by_cases succeeds : fails 0 = none
  · have now := @plain_rows compile hash fails rule table made.plain succeeds (ruleKey rule)
    rw [if_pos rfl] at now
    constructor
    · intro alone _ row here
      by_cases other : chosen row.state = true
      · obtain ⟨row', there, state, _⟩ := alone row here other
        rw [committed, addApproved, now, Option.some.injEq] at there
        rw [← state, ← there]
        exact made.not_chosen
      · simpa using other
    · intro none row here other
      rw [none succeeds row here] at other
      cases other
  · refine iff_of_true ?_ fun success => absurd success succeeds
    intro row here _
    refine ⟨row, ?_, rfl, rfl⟩
    rw [committed, addApproved, plain_failed table made.plain succeeds]
    exact here

/-! ### Where the rules come from -/

theorem decided_adds_none (world : World) (esMsg : ExecMessage) (stoppedProc : Bool)
    (rule : SNTRule) : .addRule rule ∉ (validateExecEvent world esMsg stoppedProc).2 := by
  unfold validateExecEvent
  cases world.file esMsg.vnode with
  | none => simp
  | some binInfo =>
    simp only
    split_ifs
    · simp
    · simp only [decisionEffects, answerEffects, logEffects, blockEffects, List.mem_cons,
        List.mem_append, reduceCtorEq, false_or, not_or]
      constructor
      · split_ifs <;> simp
      · split_ifs <;> simp

theorem reply_adds {block : ReplyBlock} {authenticated : Bool} {now : Nat} {rule : SNTRule}
    (member : .addRule rule ∈ replyEffects block authenticated now) :
    ruleForStandaloneModeEvent block.event now = some rule := by
  cases authenticated with
  | false =>
    simp only [replyEffects, declinedEffects, Bool.false_eq_true, if_false] at member
    split_ifs at member <;> simp at member
  | true =>
    simp only [replyEffects, approvedEffects, createRuleForStandaloneModeEvent, if_true] at member
    split_ifs at member
    all_goals simp at member
    all_goals exact member

def Inv (s : Daemon) : Prop :=
  ∀ id e todo rule, s.runs.execs id = some e → e.phase = .acting todo →
    .addRule rule ∈ todo → Local rule

theorem inv_start (rootDevno cacheDenyTimeMs : Nat) (world : World) (table : RuleTable) :
    Inv (.start rootDevno cacheDenyTimeMs world table) := by
  intro id e todo rule here
  cases here

theorem inv_step {compile : Bool → String → Option String} {hash : FileAccessRules → String}
    {s t : Daemon} {l : Label} (inv : Inv s) (h : step compile hash s l = some t) : Inv t := by
  cases l with
  | add executionRules fileAccessRules cleanupType fails =>
    rw [← Option.some.inj h]
    exact inv
  | execution label fails =>
    obtain ⟨runs, taken, same⟩ := Option.map_eq_some_iff.mp h
    rw [← same]
    intro id e todo rule there acting member
    by_cases own : label.execution = some id
    · rcases acting_from taken there acting own with denied | ⟨e₀, stoppedProc, _, _, decided⟩ |
        ⟨e₀, effect, here, before⟩ | ⟨e₀, block, authenticated, now, _, _, replied⟩
      · rw [denied] at member
        simp at member
      · rw [decided] at member
        exact absurd member (decided_adds_none _ _ _ _)
      · exact inv id e₀ _ rule here before (List.mem_cons_of_mem effect member)
      · rw [replied] at member
        exact ruleForEvent_local (reply_adds member)
    · rw [show (reads runs _).execs id = runs.execs id from rfl, step_other taken own] at there
      exact inv id e todo rule there acting member

theorem approved_local {s : Daemon} (inv : Inv s) {label : SantaExecRuns.Label} {rule : SNTRule}
    (adds : approvedRule s.runs label = some rule) : Local rule := by
  cases label with
  | act id currentUptime interested =>
    simp only [approvedRule] at adds
    cases here : s.runs.execs id with
    | none => simp [here] at adds
    | some e =>
      simp only [here, Option.map_some] at adds
      split at adds
      · rename_i todo phase
        rw [Option.some.injEq] at phase adds
        subst adds
        exact inv id e _ _ here phase List.mem_cons_self
      · cases adds
  | _ => cases adds

theorem preserves_step_iff {compile : Bool → String → Option String}
    {hash : FileAccessRules → String} {s : Daemon} (inv : Inv s) (l : Label) :
    Preserves compile hash s l ↔ Unruled s l := by
  cases l with
  | add executionRules fileAccessRules cleanupType fails => exact Iff.rfl
  | execution label fails =>
    refine forall_congr' fun rule => forall_congr' fun adds => ?_
    exact leftAlone_iff s.table (approved_local inv adds) fails

/-- Approvals leave the rules of others alone exactly in the runs in which none is written over
    one. -/
theorem leaves_others_alone_iff (compile : Bool → String → Option String)
    (hash : FileAccessRules → String) (rootDevno cacheDenyTimeMs : Nat) (world : World)
    (table : RuleTable) (ls : List Label) :
    Runs.Meets (step compile hash) (Preserves compile hash)
        (.start rootDevno cacheDenyTimeMs world table) ls ↔
      Runs.Meets (step compile hash) Unruled (.start rootDevno cacheDenyTimeMs world table) ls :=
  Runs.meets_iff (fun _ l inv => preserves_step_iff inv l) (fun _ _ _ => inv_step)
    (inv_start rootDevno cacheDenyTimeMs world table) ls

def toolHash : String := String.ofList (List.replicate kSHA256Length 'a')

def hashedTool : BinaryInfo :=
  ⟨⟨some toolHash, "/tmp/tool", true, false, none, .error errSecCSUnsigned⟩, false⟩

def toolWorld : World :=
  { SantaHoldAndAsk.standaloneWorld with file := fun _ => some hashedTool }

def emptyTable : RuleTable := ⟨⟨.empty, .empty⟩, "", ""⟩

def toolBlockRule : SNTRule := ⟨toolHash, .block, .binary, none, none, 0, none, none⟩
def toolCelRule : SNTRule := ⟨toolHash, .cel, .binary, none, none, 0, none, some "path == 1"⟩

def askingRun : List SantaExecRuns.Label :=
  [.exec 1 SantaHoldAndAsk.askedMessage, .check 1 0, .place 1, .decide 1 true] ++
    List.replicate 6 (.act 1 0 false)

def askedRun : List Label := askingRun.map fun l => .execution l fun _ => none

def agrees : Label := .execution (.reply 1 true 7) fun _ => none

def seen (label : SantaExecRuns.Label) (s : Daemon) :
    Bool × Option SNTRule × Option SNTRule × Option SNTRuleState :=
  let rule := approvedRule s.runs label
  let key := (rule.map ruleKey).getD ("", .unknown)
  ((step (fun _ _ => none) (fun _ => "") s (.execution label fun _ => none)).isSome, rule,
    committed s.table key,
    (committed (addApproved (fun _ _ => none) (fun _ => "") s.table rule fun _ => none) key).map
      SNTRule.state)

theorem not_preserved {s : Daemon} {ls : List Label} {label : SantaExecRuns.Label}
    {rule row : SNTRule} {state : SNTRuleState}
    (ends : (Runs.run (step (fun _ _ => none) fun _ => "") s ls).map (seen label) =
      some (true, some rule, some row, some state))
    (other : chosen row.state = true) (changed : state ≠ row.state) :
    ¬ Runs.Meets (step (fun _ _ => none) fun _ => "") (Preserves (fun _ _ => none) fun _ => "") s
      (ls ++ [.execution label fun _ => none]) := by
  intro meets
  obtain ⟨t, ends, facts⟩ := Option.map_eq_some_iff.mp ends
  simp only [seen, Prod.mk.injEq] at facts
  obtain ⟨goesOn, adds, here, after⟩ := facts
  obtain ⟨u, last⟩ := Option.isSome_iff_exists.mp goesOn
  rw [adds] at here after
  obtain ⟨row', there, kept, -⟩ := Runs.meets_last meets ends last rule adds row here other
  rw [Option.map_some, Option.getD_some, there, Option.map_some, Option.some.injEq, kept] at after
  exact changed after.symm

/-- A block rule that comes while the user is asked is replaced, and so is a CEL rule that was
    there before but could not be evaluated. -/
theorem approval_replaces :
    ¬ Runs.Meets (step (fun _ _ => none) fun _ => "") (Preserves (fun _ _ => none) fun _ => "")
      (.start 1 1500 toolWorld emptyTable)
      (askedRun ++ [.add [toolBlockRule] [] .none fun _ => none, agrees] ++
        [.execution (.act 1 0 false) fun _ => none]) ∧
    ¬ Runs.Meets (step (fun _ _ => none) fun _ => "") (Preserves (fun _ _ => none) fun _ => "")
      (.start 1 1500 toolWorld ⟨⟨KeyedRows.empty.put toolCelRule, .empty⟩, "", ""⟩)
      (askedRun ++ [agrees] ++ [.execution (.act 1 0 false) fun _ => none]) := by
  constructor
  · exact @not_preserved _ _ _
      ⟨toolHash, .allowLocalBinary, .binary, none, none, 7, some "/tmp/tool", none⟩ toolBlockRule
      .allowLocalBinary (by decide +kernel) rfl (by decide)
  · exact @not_preserved _ _ _
      ⟨toolHash, .allowLocalBinary, .binary, none, none, 7, some "/tmp/tool", none⟩ toolCelRule
      .allowLocalBinary (by decide +kernel) rfl (by decide)

end SantaStandaloneRules
