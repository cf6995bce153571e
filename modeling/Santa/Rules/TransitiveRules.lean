import Santa.Library.Runs
import Santa.Rules.RuleAddition

/-!
The rules that compilers make. When a compiler has written an executable, the
rule for the file's hash is looked up, and a transitive rule is added if there is
none or a transitive one. The look-up and the addition are two transactions, and
rules from elsewhere can be added between them. A creation is under way from its
look-up to its addition.
-/
namespace SantaCompiler
open SantaRule SantaRuleTable SantaRuleAddition

def prevRule (staticRules : String → Option SNTRule) (launchdCert : Option String)
    (table : ExecutionRules) (sha256 : String) : Option SNTRule :=
  executionRuleForIdentifiers staticRules launchdCert table ⟨none, some sha256, none, none, none⟩

/-- A transitive rule gets the time at which it is built. -/
def transitiveRule (sha256 : String) (now : Nat) : Option SNTRule :=
  (SNTRule.mk sha256 .allowTransitive .binary none none now none none).init

structure System where
  table : RuleTable
  creations : Nat → Option SNTRule

def System.start (table : RuleTable) : System := ⟨table, fun _ => none⟩

inductive Label where
  | lookUp (id : Nat) (sha256 : String) (now : Nat)
  | create (id : Nat) (fails : Nat → Option String)
  | add (executionRules : List SNTRule) (fileAccessRules : List SNTFileAccessRule)
      (cleanupType : SNTRuleCleanup) (fails : Nat → Option String)

section
variable (compile : Bool → String → Option String) (hash : FileAccessRules → String)
variable (staticRules : String → Option SNTRule) (launchdCert : Option String)

def addTransitiveRule (table : RuleTable) (rule : SNTRule) (fails : Nat → Option String) :
    RuleTable :=
  (addExecutionRules compile hash fails table [rule] [] .none).2

def step (s : System) : Label → Option System
  | .lookUp id sha256 now =>
      if s.creations id = none then
        let goesOn := (prevRule staticRules launchdCert s.table.db.executionRules sha256).all
          fun r => r.state = .allowTransitive
        some { s with creations := fun i =>
          if i = id then (if goesOn then transitiveRule sha256 now else none) else s.creations i }
      else none
  | .create id fails =>
      (s.creations id).map fun rule =>
        ⟨addTransitiveRule compile hash s.table rule fails,
          fun i => if i = id then none else s.creations i⟩
  | .add executionRules fileAccessRules cleanupType fails =>
      some { s with table := (addExecutionRules compile hash fails s.table executionRules
        fileAccessRules cleanupType).2 }

end

def binaryRow (table : RuleTable) (sha256 : String) : Option SNTRule :=
  table.db.executionRules.get (sha256, .binary)

def Explicit (table : RuleTable) (sha256 : String) : Prop :=
  ∃ row, binaryRow table sha256 = some row ∧ row.state ≠ .allowTransitive

def LeftAlone (table after : RuleTable) (sha256 : String) : Prop :=
  ∀ row, binaryRow table sha256 = some row → row.state ≠ .allowTransitive →
    ∃ row', binaryRow after sha256 = some row' ∧ row'.state = row.state

section
variable {compile : Bool → String → Option String} {hash : FileAccessRules → String}
variable {staticRules : String → Option SNTRule} {launchdCert : Option String}

/-- Handling a transitive rule leaves an explicit rule for its hash alone. -/
def Preserves (compile : Bool → String → Option String) (hash : FileAccessRules → String)
    (s : System) : Label → Prop
  | .create id fails => ∀ rule, s.creations id = some rule →
      LeftAlone s.table (addTransitiveRule compile hash s.table rule fails) rule.identifier
  | _ => True

/-- When a transitive rule is added, no explicit rule has been committed for its hash, or the
    addition fails. -/
def Unraced (s : System) : Label → Prop
  | .create id fails => ∀ rule, s.creations id = some rule → fails 0 = none →
      ¬ Explicit s.table rule.identifier
  | _ => True

structure Creatable (rule : SNTRule) : Prop where
  state : rule.state = .allowTransitive
  type : rule.type = .binary
  identifier : rule.identifier ≠ ""

theorem transitiveRule_creatable {sha256 : String} {now : Nat} {rule : SNTRule}
    (built : transitiveRule sha256 now = some rule) : Creatable rule := by
  obtain ⟨-, -, identifier, normal, same⟩ := init_some_iff.mp built
  subst same
  refine ⟨rfl, rfl, ?_⟩
  simp only [normalizedIdentifier, hexIdentifier] at normal
  split at normal
  · rename_i hex
    rw [Option.some.injEq] at normal
    intro empty
    have length := congrArg (fun s => s.toList.length) (normal.trans empty)
    simp only [lowercase, String.toList_ofList, List.length_map, hex.1] at length
    exact absurd length (by decide)
  · cases normal

/-! ### The addition of a transitive rule -/

theorem Creatable.plain {rule : SNTRule} (creatable : Creatable rule) : Plain rule where
  valid := by simp [invalidEntry, creatable.state, creatable.type, creatable.identifier]
  stays := by simp [creatable.state]
  unevaluated := by simp [creatable.state]

theorem create_failed (table : RuleTable) {rule : SNTRule} (creatable : Creatable rule)
    {fails : Nat → Option String} (failed : fails 0 ≠ none) :
    (addTransitiveRule compile hash table rule fails).db = table.db :=
  plain_failed table creatable.plain failed

theorem create_rows (table : RuleTable) {rule : SNTRule} (creatable : Creatable rule)
    {fails : Nat → Option String} (succeeds : fails 0 = none) (sha256 : String) :
    binaryRow (addTransitiveRule compile hash table rule fails) sha256 =
      if sha256 = rule.identifier then some rule else binaryRow table sha256 := by
  rw [binaryRow, addTransitiveRule, plain_rows table creatable.plain succeeds, binaryRow]
  simp only [ruleKey, creatable.type, Prod.mk.injEq, and_true]

theorem leftAlone_iff (table : RuleTable) {rule : SNTRule} (creatable : Creatable rule)
    (fails : Nat → Option String) :
    LeftAlone table (addTransitiveRule compile hash table rule fails) rule.identifier ↔
      (fails 0 = none → ¬ Explicit table rule.identifier) := by
  by_cases succeeds : fails 0 = none
  · have now := @create_rows compile hash table rule creatable fails succeeds rule.identifier
    rw [if_pos rfl] at now
    constructor
    · rintro alone - ⟨row, here, explicit⟩
      obtain ⟨row', there, kept⟩ := alone row here explicit
      rw [now, Option.some.injEq] at there
      rw [← there, creatable.state] at kept
      exact explicit kept.symm
    · intro none row here explicit
      exact absurd ⟨row, here, explicit⟩ (none succeeds)
  · apply iff_of_true
    · intro row here _
      refine ⟨row, ?_, rfl⟩
      rw [binaryRow, create_failed table creatable succeeds]
      exact here
    · exact fun success => absurd success succeeds

/-! ### Runs -/

def Inv (s : System) : Prop := ∀ id rule, s.creations id = some rule → Creatable rule

theorem inv_start (table : RuleTable) : Inv (.start table) := fun _ _ none => nomatch none

theorem inv_step {s t : System} {l : Label} (inv : Inv s)
    (h : step compile hash staticRules launchdCert s l = some t) : Inv t := by
  cases l with
  | lookUp id sha256 now =>
    simp only [step] at h
    split at h
    · rw [← Option.some.inj h]
      intro id' rule pending
      simp only at pending
      split at pending
      · split at pending
        · exact transitiveRule_creatable pending
        · cases pending
      · exact inv id' rule pending
    · cases h
  | create id fails =>
    obtain ⟨rule, here, same⟩ := Option.map_eq_some_iff.mp h
    rw [← same]
    intro id' rule' pending
    simp only at pending
    split at pending
    · cases pending
    · exact inv id' rule' pending
  | add executionRules fileAccessRules cleanupType fails =>
    rw [← Option.some.inj h]
    exact inv

theorem preserves_step_iff {s : System} (inv : Inv s) (l : Label) :
    Preserves compile hash s l ↔ Unraced s l := by
  cases l with
  | create id fails =>
    apply forall_congr'
    intro rule
    apply forall_congr'
    intro pending
    exact leftAlone_iff s.table (inv id rule pending) fails
  | lookUp id sha256 now => exact Iff.rfl
  | add executionRules fileAccessRules cleanupType fails => exact Iff.rfl

/-- Transitive rules leave explicit ones alone exactly in the runs in which none is added after
    an explicit rule for its hash has been committed. -/
theorem preserves_iff (compile : Bool → String → Option String) (hash : FileAccessRules → String)
    (staticRules : String → Option SNTRule) (launchdCert : Option String) (table : RuleTable)
    (ls : List Label) :
    Runs.Meets (step compile hash staticRules launchdCert) (Preserves compile hash)
        (.start table) ls ↔
      Runs.Meets (step compile hash staticRules launchdCert) Unraced (.start table) ls :=
  Runs.meets_iff (fun _ l inv => preserves_step_iff inv l) (fun _ _ _ => inv_step)
    (inv_start table) ls

def sampleHash : String := String.ofList (List.replicate kSHA256Length 'a')

def blockRule : SNTRule := ⟨sampleHash, .block, .binary, none, none, 0, none, none⟩

/-- A block rule is committed after the look-up and is then replaced. -/
theorem block_rule_overwritten :
    blockRule.init = some blockRule ∧
    ¬ Runs.Meets (step (fun _ _ => none) (fun _ => "") (fun _ => none) none)
      (Preserves (fun _ _ => none) (fun _ => "")) (.start ⟨⟨.empty, .empty⟩, "", ""⟩)
      [.lookUp 1 sampleHash 7, .add [blockRule] [] .none (fun _ => none),
        .create 1 (fun _ => none)] := by
  refine ⟨by decide +kernel, ?_⟩
  intro meets
  have overwritten := (((meets _ rfl).2 _ rfl).2 _ rfl).1
    ⟨sampleHash, .allowTransitive, .binary, none, none, 7, none, none⟩ (by decide +kernel)
  obtain ⟨row', there, kept⟩ := overwritten blockRule (by decide +kernel) (by decide)
  have states := congrArg (Option.map SNTRule.state) there
  rw [Option.map_some, kept] at states
  exact absurd states (by decide +kernel)

/-! ### Runs that nothing disturbs -/

/-- No rule added while a creation is under way is explicit and for its hash, and a look-up sees
    an explicit rule for the hash: the row can be read, and no static rule hides it. -/
def Undisturbed (compile : Bool → String → Option String) (hash : FileAccessRules → String)
    (staticRules : String → Option SNTRule) (s : System) : Label → Prop
  | .lookUp _ sha256 now =>
      (∀ row, binaryRow s.table sha256 = some row → row.init.isSome) ∧
        (∀ r, staticRules sha256 = some r → r.state ≠ .allowTransitive) ∧
        ∀ rule, transitiveRule sha256 now = some rule → rule.identifier = sha256
  | .add executionRules fileAccessRules cleanupType fails =>
      ∀ id rule, s.creations id = some rule → ¬ Explicit (addExecutionRules compile hash fails
        s.table executionRules fileAccessRules cleanupType).2 rule.identifier
  | .create _ _ => True

theorem prevRule_explicit {table : RuleTable} {sha256 : String}
    (readable : ∀ row, binaryRow table sha256 = some row → row.init.isSome)
    (static : ∀ r, staticRules sha256 = some r → r.state ≠ .allowTransitive)
    (explicit : Explicit table sha256) :
    ∃ r, prevRule staticRules launchdCert table.db.executionRules sha256 = some r ∧
      r.state ≠ .allowTransitive := by
  obtain ⟨row, here, state⟩ := explicit
  obtain ⟨r, built⟩ := Option.isSome_iff_exists.mp (readable row here)
  have selected : selectedRow table.db.executionRules ⟨none, some sha256, none, none, none⟩ =
      some row := by
    rw [binaryRow] at here
    simp only [selectedRow, RuleIdentifiers.slots, List.findSome?_cons, rowAt, Option.bind_none,
      Option.bind_some, here]
  have noProbe : lastProbe staticRules ⟨none, some sha256, none, none, none⟩ = none := rfl
  unfold prevRule
  rw [executionRule_noProbe noProbe, selected, Option.bind_some, executionRuleFromResultSet, built, Option.some_or]
  cases hidden : RuleIdentifiers.slots ⟨none, some sha256, none, none, none⟩ |>.findSome?
      (staticRule staticRules) with
  | none => exact ⟨r, rfl, by rw [(init_fields built).1]; exact state⟩
  | some found =>
    refine ⟨found, rfl, static found ?_⟩
    obtain ⟨⟨identifier, type⟩, member, here⟩ := List.exists_of_findSome?_eq_some hidden
    obtain ⟨hash, names, got⟩ := Option.bind_eq_some_iff.mp (Option.filter_eq_some_iff.mp here).1
    simp only [RuleIdentifiers.slots, List.mem_cons, Prod.mk.injEq, List.not_mem_nil,
      or_false] at member
    simp only at names
    subst names
    rcases member with ⟨⟨⟩, -⟩ | ⟨same, -⟩ | ⟨⟨⟩, -⟩ | ⟨⟨⟩, -⟩ | ⟨⟨⟩, -⟩
    rw [← Option.some.inj same]
    exact got

structure Clear (s : System) : Prop where
  creatable : Inv s
  free : ∀ id rule, s.creations id = some rule → ¬ Explicit s.table rule.identifier

theorem binaryRow_create_other (table : RuleTable) {rule : SNTRule} (creatable : Creatable rule)
    (fails : Nat → Option String) {sha256 : String} (explicit : Explicit
      (addTransitiveRule compile hash table rule fails) sha256) : Explicit table sha256 := by
  obtain ⟨row, here, state⟩ := explicit
  by_cases succeeds : fails 0 = none
  · rw [create_rows table creatable succeeds] at here
    split at here
    · rw [← Option.some.inj here] at state
      exact absurd creatable.state state
    · exact ⟨row, here, state⟩
  · rw [binaryRow, create_failed table creatable succeeds] at here
    exact ⟨row, here, state⟩

theorem clear_step {s t : System} {l : Label} (clear : Clear s)
    (calm : Undisturbed compile hash staticRules s l)
    (h : step compile hash staticRules launchdCert s l = some t) : Clear t := by
  refine ⟨inv_step clear.creatable h, ?_⟩
  cases l with
  | lookUp id sha256 now =>
    simp only [step] at h
    split at h
    · rw [← Option.some.inj h]
      intro id' rule pending
      simp only at pending
      split at pending
      · split at pending
        · -- The look-up would have seen an explicit rule.
          rename_i goesOn
          intro explicit
          rw [calm.2.2 rule pending] at explicit
          obtain ⟨r, found, state⟩ := @prevRule_explicit staticRules launchdCert _ _
            calm.1 calm.2.1 explicit
          rw [found, Option.all_some, decide_eq_true_iff] at goesOn
          exact state goesOn
        · cases pending
      · exact clear.free id' rule pending
    · cases h
  | create id fails =>
    obtain ⟨rule, here, same⟩ := Option.map_eq_some_iff.mp h
    rw [← same]
    intro id' rule' pending
    simp only at pending
    split at pending
    · cases pending
    · exact fun explicit => clear.free id' rule' pending
        (binaryRow_create_other s.table (clear.creatable id rule here) fails explicit)
  | add executionRules fileAccessRules cleanupType fails =>
    rw [← Option.some.inj h]
    exact calm

/-- Without a rule from elsewhere between a look-up and its addition, explicit rules are safe. -/
theorem preserves_of_undisturbed {table : RuleTable} {ls : List Label}
    (calm : Runs.Meets (step compile hash staticRules launchdCert)
      (Undisturbed compile hash staticRules) (.start table) ls) :
    Runs.Meets (step compile hash staticRules launchdCert) (Preserves compile hash)
      (.start table) ls := by
  refine Runs.meets_of_meets ?_ (fun _ _ _ => clear_step)
    ⟨inv_start table, fun _ _ none => nomatch none⟩ calm
  intro s l clear _
  refine (preserves_step_iff clear.creatable l).mpr ?_
  cases l with
  | create id fails => exact fun rule pending _ => clear.free id rule pending
  | lookUp id sha256 now => trivial
  | add executionRules fileAccessRules cleanupType fails => trivial

end

end SantaCompiler
