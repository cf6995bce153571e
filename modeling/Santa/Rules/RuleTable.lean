import Santa.Library.KeyedRows
import Santa.Rules.Rule

/-!
The rule table of santad: execution rules under a unique index on identifier and
type, file access rules under their name. A statement that changes the database
may fail; `fails` gives the error message of each, counted from the start of the
transaction. Queries do not fail. The CEL compiler is a parameter: it answers
with a status message for an expression that it rejects.
-/
namespace SantaRuleTable
open SantaRule

def ruleKey (r : SNTRule) : String × SNTRuleType := (r.identifier, r.type)

abbrev ExecutionRules := KeyedRows (String × SNTRuleType) SNTRule ruleKey

inductive SNTFileAccessRuleState where
  | add
  | remove
  | undeclared (raw : Int)
  deriving DecidableEq, Repr

/- `description` is the one that every object has. -/
structure SNTFileAccessRule where
  state : SNTFileAccessRuleState
  name : String
  details : List UInt8
  description : String
  deriving DecidableEq, Repr

structure FileAccessRow where
  name : String
  ruleData : List UInt8
  deriving DecidableEq, Repr

abbrev FileAccessRules := KeyedRows String FileAccessRow FileAccessRow.name

structure Database where
  executionRules : ExecutionRules
  fileAccessRules : FileAccessRules

structure Transaction where
  db : Database
  executed : Nat

def executeUpdate (fails : Nat → Option String) (update : Database → Database)
    (t : Transaction) : Option String × Transaction :=
  match fails t.executed with
  | some message => (some message, { t with executed := t.executed + 1 })
  | none => (none, ⟨update t.db, t.executed + 1⟩)

def Database.deleteRule (db : Database) (r : SNTRule) : Database :=
  { db with executionRules := db.executionRules.remove (ruleKey r) }

def Database.insertOrReplaceRule (db : Database) (r : SNTRule) : Database :=
  { db with executionRules := db.executionRules.put r }

inductive SNTRuleCleanup where
  | none
  | all
  | nonTransitive
  | standalone
  | executionRules
  | fileAccessRules
  deriving DecidableEq, Repr

def Database.deleteFileAccessRules (db : Database) : Database :=
  { db with fileAccessRules := .empty }

def Database.deleteExecutionRules (db : Database) : Database :=
  { db with executionRules := .empty }

def Database.deleteNonTransitive (db : Database) : Database :=
  { db with executionRules := db.executionRules.select fun r => r.state = .allowTransitive }

/-! ### Adding -/

section
variable (compile : Bool → String → Option String)

def celStatus (r : SNTRule) : Option String :=
  if r.state = .cel ∨ r.state = .celv2 then compile (r.state = .celv2) (r.celExpr.getD "")
  else none

def invalidEntry (r : SNTRule) : Bool :=
  r.identifier = "" || r.state = .unknown || r.type = .unknown

def addExecutionRulesToDB (fails : Nat → Option String) :
    List SNTRule → Transaction → List SNTError → Bool × Transaction × List SNTError
  | [], t, errors => (true, t, errors)
  | r :: rules, t, errors =>
      if invalidEntry r then
        (false, t, errors ++
          [⟨.ruleInvalid, "Execution rule array contained invalid entry", some r.description⟩])
      else match celStatus compile r with
        | some status =>
            addExecutionRulesToDB fails rules t (errors ++ [⟨.ruleInvalidCELExpression,
              "Rule array contained rule with invalid CEL expression", some status⟩])
        | none =>
            if r.state = .remove then
              match executeUpdate fails (·.deleteRule r) t with
              | (some message, t) => (false, t, errors ++ [⟨.removeRuleFailed,
                  "A database error occurred while deleting a rule", some message⟩])
              | (none, t) => addExecutionRulesToDB fails rules t errors
            else
              match executeUpdate fails (·.insertOrReplaceRule r) t with
              | (some message, t) => (false, t, errors ++ [⟨.insertOrReplaceRuleFailed,
                  "A database error occurred while inserting/replacing a rule", some message⟩])
              | (none, t) => addExecutionRulesToDB fails rules t errors

def invalidFileAccessEntry (r : SNTFileAccessRule) : Bool :=
  r.name = "" || (r.state = .add && r.details = [] && r.state ≠ .remove)

def addFileAccessRulesToDB (fails : Nat → Option String) :
    List SNTFileAccessRule → Transaction → List SNTError → Bool × Transaction × List SNTError
  | [], t, errors => (true, t, errors)
  | r :: rules, t, errors =>
      if invalidFileAccessEntry r then
        (false, t, errors ++
          [⟨.ruleInvalid, "File access rule array contained invalid entry", some r.description⟩])
      else if r.state = .remove then
        match executeUpdate fails
            (fun db => { db with fileAccessRules := db.fileAccessRules.remove r.name }) t with
        | (some message, t) => (false, t, errors ++ [⟨.removeRuleFailed,
            "A database error occurred while deleting a file access rule", some message⟩])
        | (none, t) => addFileAccessRulesToDB fails rules t errors
      else
        match executeUpdate fails
            (fun db => { db with
              fileAccessRules := db.fileAccessRules.put ⟨r.name, r.details⟩ }) t with
        | (some message, t) => (false, t, errors ++ [⟨.insertOrReplaceRuleFailed,
            "A database error occurred while inserting/replacing a file access rule",
            some message⟩])
        | (none, t) => addFileAccessRulesToDB fails rules t errors

/-- The cleanup statements' results are not looked at. -/
def cleanup (fails : Nat → Option String) (cleanupType : SNTRuleCleanup) (t : Transaction) :
    Transaction :=
  match cleanupType with
  | .all =>
      let t := (executeUpdate fails (·.deleteExecutionRules) t).2
      (executeUpdate fails (·.deleteFileAccessRules) t).2
  | .nonTransitive =>
      let t := (executeUpdate fails (·.deleteNonTransitive) t).2
      (executeUpdate fails (·.deleteFileAccessRules) t).2
  | .executionRules => (executeUpdate fails (·.deleteNonTransitive) t).2
  | .fileAccessRules => (executeUpdate fails (·.deleteFileAccessRules) t).2
  | .none => t
  | .standalone => t

structure RuleTable where
  db : Database
  executionRulesHash : String
  fileAccessRulesHash : String

/-- A memoized hash is used unless it is empty. -/
def fileAccessRulesHashSerialized (hash : FileAccessRules → String) (memo : String)
    (db : Database) : String :=
  if memo = "" then hash db.fileAccessRules else memo

structure AddResult where
  success : Bool
  errors : List SNTError
  callback : Option Nat
  deriving DecidableEq, Repr

/-- All of it is one transaction, rolled back when a rule is refused. `callback` is the
    count given to the file access callback, when it runs. -/
def addExecutionRules (hash : FileAccessRules → String) (fails : Nat → Option String)
    (table : RuleTable) (executionRules : List SNTRule)
    (fileAccessRules : List SNTFileAccessRule) (cleanupType : SNTRuleCleanup) :
    AddResult × RuleTable :=
  if executionRules = [] ∧ fileAccessRules = [] ∧ cleanupType = .none then
    (⟨false, [⟨.emptyRuleArray, "Empty execution and file access rule arrays", none⟩], none⟩, table)
  else
    let before := fileAccessRulesHashSerialized hash table.fileAccessRulesHash table.db
    let table := { table with fileAccessRulesHash := before }
    match addExecutionRulesToDB compile fails executionRules (cleanup fails cleanupType ⟨table.db, 0⟩)
        [] with
    | (false, _, errors) => (⟨false, errors, none⟩, table)
    | (true, t, errors) =>
        match addFileAccessRulesToDB fails fileAccessRules t errors with
        | (false, _, errors) => (⟨false, errors, none⟩, table)
        | (true, t, errors) =>
            let after := fileAccessRulesHashSerialized hash "" t.db
            (⟨true, errors, if before = after then none
              else some t.db.fileAccessRules.rows.length⟩, ⟨t.db, "", after⟩)

end

/-! ### What adding writes -/

def writeRule (rows : ExecutionRules) (r : SNTRule) : ExecutionRules :=
  if r.state = .remove then rows.remove (ruleKey r) else rows.put r

/-- The table's rows have passed the checks of the rules added to it. -/
def Committed (compile : Bool → String → Option String) (rows : ExecutionRules) : Prop :=
  ∀ r ∈ rows.rows, invalidEntry r = false ∧ celStatus compile r = none ∧ r.state ≠ .remove

section
variable {compile : Bool → String → Option String} {fails : Nat → Option String}

theorem committed_writeRule {rows : ExecutionRules} {r : SNTRule} (h : Committed compile rows)
    (valid : invalidEntry r = false) (compiles : celStatus compile r = none) :
    Committed compile (writeRule rows r) := by
  unfold writeRule
  split_ifs with remove
  · exact fun w member => h w (KeyedRows.mem_remove member)
  · intro w member
    rcases KeyedRows.mem_put member with new | old
    · subst new
      exact ⟨valid, compiles, remove⟩
    · exact h w old

theorem added_iff {rules : List SNTRule} {t : Transaction} {errors : List SNTError} :
    (addExecutionRulesToDB compile fails rules t errors).1 = true ↔
      (∀ r ∈ rules, invalidEntry r = false) ∧
        ∀ n < rules.countP (fun r => (celStatus compile r).isNone), fails (t.executed + n) = none := by
  induction rules generalizing t errors with
  | nil => simp [addExecutionRulesToDB]
  | cons r rules ih =>
    unfold addExecutionRulesToDB
    by_cases invalid : invalidEntry r = true
    · simp [invalid]
    · rw [if_neg invalid]
      have valid : invalidEntry r = false := by simpa using invalid
      cases status : celStatus compile r with
      | some message =>
        simp only [ih, List.mem_cons, forall_eq_or_imp, valid, true_and]
        rw [List.countP_cons_of_neg (by simp [status])]
      | none =>
        rw [List.countP_cons_of_pos (by simp [status])]
        simp only [List.mem_cons, forall_eq_or_imp, valid, true_and]
        have statements : ∀ update, (match executeUpdate fails update t with
            | (some _, _) => False
            | (none, t) => ∀ n < rules.countP (fun r => (celStatus compile r).isNone),
                fails (t.executed + n) = none) ↔
            ∀ n < rules.countP (fun r => (celStatus compile r).isNone) + 1,
              fails (t.executed + n) = none := by
          intro update
          unfold executeUpdate
          cases first : fails t.executed with
          | some message =>
            simp only [false_iff, not_forall]
            exact ⟨0, by omega, by simp [first]⟩
          | none =>
            constructor
            · intro later n bound
              cases n with
              | zero => exact first
              | succ n =>
                have := later n (by omega)
                rwa [Nat.add_right_comm] at this
            · intro all n bound
              have := all (n + 1) (by omega)
              rwa [← Nat.add_assoc, Nat.add_right_comm] at this
        split_ifs with remove
        · rw [← statements (·.deleteRule r)]
          unfold executeUpdate
          cases fails t.executed with
          | some message => simp
          | none => exact ih
        · rw [← statements (·.insertOrReplaceRule r)]
          unfold executeUpdate
          cases fails t.executed with
          | some message => simp
          | none => exact ih

theorem added_rows {rules : List SNTRule} {t : Transaction} {errors : List SNTError}
    (added : (addExecutionRulesToDB compile fails rules t errors).1 = true) :
    (addExecutionRulesToDB compile fails rules t errors).2.1.db.executionRules =
      (rules.filter fun r => (celStatus compile r).isNone).foldl writeRule t.db.executionRules := by
  induction rules generalizing t errors with
  | nil => rfl
  | cons r rules ih =>
    unfold addExecutionRulesToDB at added ⊢
    by_cases invalid : invalidEntry r = true
    · simp [invalid] at added
    · rw [if_neg invalid] at added ⊢
      cases status : celStatus compile r with
      | some message =>
        simp only [status] at added ⊢
        rw [List.filter_cons_of_neg (by simp [status])]
        exact ih added
      | none =>
        simp only [status] at added ⊢
        rw [List.filter_cons_of_pos (by simp [status]), List.foldl_cons]
        unfold executeUpdate at added ⊢
        by_cases remove : r.state = .remove
        · rw [if_pos remove] at added ⊢
          cases statement : fails t.executed with
          | some message => simp [statement] at added
          | none =>
            simp only [statement] at added ⊢
            rw [ih added, writeRule, if_pos remove]
            rfl
        · rw [if_neg remove] at added ⊢
          cases statement : fails t.executed with
          | some message => simp [statement] at added
          | none =>
            simp only [statement] at added ⊢
            rw [ih added, writeRule, if_neg remove]
            rfl

theorem committed_foldl {rules : List SNTRule} {rows : ExecutionRules}
    (start : Committed compile rows)
    (checked : ∀ r ∈ rules, invalidEntry r = false ∧ celStatus compile r = none) :
    Committed compile (rules.foldl writeRule rows) := by
  induction rules generalizing rows with
  | nil => exact start
  | cons r rules ih =>
    obtain ⟨valid, compiles⟩ := checked r List.mem_cons_self
    exact ih (committed_writeRule start valid compiles)
      fun q member => checked q (List.mem_cons_of_mem r member)

theorem committed_added {rules : List SNTRule} {t : Transaction} {errors : List SNTError}
    (start : Committed compile t.db.executionRules)
    (added : (addExecutionRulesToDB compile fails rules t errors).1 = true) :
    Committed compile (addExecutionRulesToDB compile fails rules t errors).2.1.db.executionRules := by
  rw [added_rows added]
  refine committed_foldl start ?_
  intro r member
  obtain ⟨given, compiles⟩ := List.mem_filter.mp member
  exact ⟨(added_iff.mp added).1 r given, Option.isNone_iff_eq_none.mp compiles⟩

end

/-! ### Lookup -/

structure RuleIdentifiers where
  cdhash : Option String
  binarySHA256 : Option String
  signingID : Option String
  certificateSHA256 : Option String
  teamID : Option String
  deriving DecidableEq, Repr

def RuleIdentifiers.slots (ids : RuleIdentifiers) : List (Option String × SNTRuleType) :=
  [(ids.cdhash, .cdHash), (ids.binarySHA256, .binary), (ids.signingID, .signingID),
    (ids.certificateSHA256, .certificate), (ids.teamID, .teamID)]

def executionRuleFromResultSet (row : SNTRule) : Option SNTRule := row.init

/-- A NULL parameter equals no identifier. -/
def rowAt (table : ExecutionRules) (slot : Option String × SNTRuleType) : Option SNTRule :=
  slot.1.bind fun identifier => table.get (identifier, slot.2)

/-- The row of the query, whose alternatives are tried as written up to the first match. -/
def selectedRow (table : ExecutionRules) (ids : RuleIdentifiers) : Option SNTRule :=
  ids.slots.findSome? (rowAt table)

def staticRule (staticRules : String → Option SNTRule) (slot : Option String × SNTRuleType) :
    Option SNTRule :=
  (slot.1.bind staticRules).filter fun rule => rule.type = slot.2

/-- Binaries signed like launchd are allowed when no rule matched. -/
def launchdRule (launchdCert : Option String) (ids : RuleIdentifiers) : Option SNTRule :=
  ids.certificateSHA256.bind fun certificate =>
    if launchdCert = some certificate then
      (SNTRule.mk certificate .allow .certificate none none 0 none none).init
    else none

/-- What the probes of the static rules leave behind: the last of them is for the team ID. -/
def lastProbe (staticRules : String → Option SNTRule) (ids : RuleIdentifiers) : Option SNTRule :=
  ids.teamID.bind staticRules

structure FoundRule where
  rule : SNTRule
  staticRule : Bool
  deriving DecidableEq, Repr

/-- A last probe of the wrong type is still there when the query gives no row. -/
def foundRule (staticRules : String → Option SNTRule) (launchdCert : Option String)
    (table : ExecutionRules) (ids : RuleIdentifiers) : Option FoundRule :=
  ((ids.slots.findSome? (staticRule staticRules)).map (FoundRule.mk · true)).or
    ((match selectedRow table ids with
      | some row => (executionRuleFromResultSet row).map (FoundRule.mk · false)
      | none => (lastProbe staticRules ids).map (FoundRule.mk · true)).or
      ((launchdRule launchdCert ids).map (FoundRule.mk · false)))

def executionRuleForIdentifiers (staticRules : String → Option SNTRule)
    (launchdCert : Option String) (table : ExecutionRules) (ids : RuleIdentifiers) :
    Option SNTRule :=
  (foundRule staticRules launchdCert table ids).map FoundRule.rule

theorem executionRule_cases {staticRules : String → Option SNTRule} {launchdCert : Option String}
    {table : ExecutionRules} {ids : RuleIdentifiers} {r : SNTRule}
    (found : executionRuleForIdentifiers staticRules launchdCert table ids = some r) :
    ids.slots.findSome? (staticRule staticRules) = some r ∨
      (∃ row, selectedRow table ids = some row ∧ executionRuleFromResultSet row = some r) ∨
      (selectedRow table ids = none ∧ lastProbe staticRules ids = some r) ∨
      launchdRule launchdCert ids = some r := by
  obtain ⟨⟨rule, isStatic⟩, first, rfl⟩ := Option.map_eq_some_iff.mp found
  unfold foundRule at first
  rcases Option.or_eq_some_iff.mp first with static | ⟨_, later⟩
  · obtain ⟨rule, matched, same⟩ := Option.map_eq_some_iff.mp static
    rw [← congrArg FoundRule.rule same]
    exact .inl matched
  · rcases Option.or_eq_some_iff.mp later with first | ⟨_, launchd⟩
    · cases selected : selectedRow table ids with
      | some row =>
        rw [selected] at first
        obtain ⟨rule, read, same⟩ := Option.map_eq_some_iff.mp first
        rw [← congrArg FoundRule.rule same]
        exact .inr (.inl ⟨row, rfl, read⟩)
      | none =>
        rw [selected] at first
        obtain ⟨rule, left, same⟩ := Option.map_eq_some_iff.mp first
        rw [← congrArg FoundRule.rule same]
        exact .inr (.inr (.inl ⟨rfl, left⟩))
    · obtain ⟨rule, allowed, same⟩ := Option.map_eq_some_iff.mp launchd
      rw [← congrArg FoundRule.rule same]
      exact .inr (.inr (.inr allowed))

/-- Where the probes leave nothing behind, a static rule comes first, then the row. -/
theorem executionRule_noProbe {staticRules : String → Option SNTRule} {launchdCert : Option String}
    {table : ExecutionRules} {ids : RuleIdentifiers} (left : lastProbe staticRules ids = none) :
    executionRuleForIdentifiers staticRules launchdCert table ids =
      (ids.slots.findSome? (staticRule staticRules)).or
        (((selectedRow table ids).bind executionRuleFromResultSet).or
          (launchdRule launchdCert ids)) := by
  rw [executionRuleForIdentifiers, foundRule, left]
  cases ids.slots.findSome? (staticRule staticRules) with
  | some r => rfl
  | none =>
    cases selectedRow table ids with
    | none => cases launchdRule launchdCert ids <;> rfl
    | some row =>
      simp only [Option.bind_some]
      cases executionRuleFromResultSet row with
      | some r => rfl
      | none => cases launchdRule launchdCert ids <;> rfl

/-! ### The types that a lookup finds -/

def ruleTypes : List SNTRuleType := [.cdHash, .binary, .signingID, .certificate, .teamID]

theorem slots_types {ids : RuleIdentifiers} {slot : Option String × SNTRuleType}
    (h : slot ∈ ids.slots) : slot.2 ∈ ruleTypes := by
  have member : slot.2 ∈ ids.slots.map Prod.snd := List.mem_map_of_mem h
  exact member

theorem selectedRow_type {rows : ExecutionRules} {ids : RuleIdentifiers} {row : SNTRule}
    (selected : selectedRow rows ids = some row) : row.type ∈ ruleTypes := by
  obtain ⟨⟨identifier, type⟩, member, here⟩ := List.exists_of_findSome?_eq_some selected
  obtain ⟨i, _, got⟩ := Option.bind_eq_some_iff.mp here
  have sameType : row.type = type := congrArg Prod.snd (KeyedRows.get_key got)
  rw [sameType]
  exact slots_types member

theorem launchdRule_allow {launchdCert : Option String} {ids : RuleIdentifiers} {r : SNTRule}
    (h : launchdRule launchdCert ids = some r) : r.state = .allow ∧ r.type = .certificate := by
  obtain ⟨certificate, _, built⟩ := Option.bind_eq_some_iff.mp h
  split_ifs at built
  obtain ⟨state, type, _⟩ := init_fields built
  exact ⟨state, type⟩

theorem lookup_type {staticRules : String → Option SNTRule} {launchdCert : Option String}
    {table : ExecutionRules} {ids : RuleIdentifiers} {r : SNTRule}
    (declared : ∀ identifier rule, staticRules identifier = some rule → rule.type ∈ ruleTypes)
    (h : executionRuleForIdentifiers staticRules launchdCert table ids = some r) :
    r.type ∈ ruleTypes := by
  rcases executionRule_cases h with static | ⟨row, selected, built⟩ | ⟨-, left⟩ | launchd
  · obtain ⟨slot, member, here⟩ := List.exists_of_findSome?_eq_some static
    have sameType : r.type = slot.2 := of_decide_eq_true (Option.filter_eq_some_iff.mp here).2
    rw [sameType]
    exact slots_types member
  · rw [(init_fields built).2.1]
    exact selectedRow_type selected
  · obtain ⟨teamID, -, got⟩ := Option.bind_eq_some_iff.mp left
    exact declared teamID r got
  · rw [(launchdRule_allow launchd).2]
    decide

/-! ### Whether added rules flush the decision cache -/

def nonAllowRuleCount (rules : List SNTRule) : Nat := rules.countP fun r => r.state ≠ .allow

/-- The rule is in the table with its state, and the row's expression is NULL or the same.
    An expression that is NULL in the rule equals nothing. -/
def alreadyStored (table : ExecutionRules) (r : SNTRule) : Bool :=
  (table.get (ruleKey r)).any fun row =>
    row.state = r.state && (row.celExpr = none || (r.celExpr ≠ none && row.celExpr = r.celExpr))

def compilerTypes : List SNTRuleType := [.cdHash, .binary, .signingID]

def compilerStored (table : ExecutionRules) (identifier : String) : Bool :=
  compilerTypes.any fun type =>
    (table.get (identifier, type)).any fun row => row.state = .allowCompiler

def flushesFor (table : ExecutionRules) (r : SNTRule) : Bool :=
  if r.state ≠ .allow then !alreadyStored table r
  else if r.type = .certificate ∨ r.type = .teamID then false
  else compilerStored table r.identifier

def addedRulesShouldFlushDecisionCache (table : ExecutionRules) (rules : List SNTRule) : Bool :=
  rules.any (fun r => r.state = .remove) || decide (1000 ≤ nonAllowRuleCount rules) ||
    rules.any (flushesFor table)

end SantaRuleTable
