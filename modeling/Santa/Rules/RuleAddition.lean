import Santa.Rules.RuleTable

/-!
What adding rules does, as a whole: it is refused and leaves the table alone, or
the cleanup is done and the batch is written in order. The statements of the
cleanup may fail like any other, but nobody looks at their result. A table is the
same as another if it has the same row under every key.
-/
namespace SantaRuleAddition
open SantaRule SantaRuleTable

/-! ### The specification -/

def keepsExecution (cleanupType : SNTRuleCleanup) (r : SNTRule) : Bool :=
  match cleanupType with
  | .all => false
  | .nonTransitive | .executionRules => r.state = .allowTransitive
  | .fileAccessRules | .none | .standalone => true

def keepsFileAccess : SNTRuleCleanup → Bool
  | .all | .nonTransitive | .fileAccessRules => false
  | .executionRules | .none | .standalone => true

def fileAccessWrites (rules : List SNTFileAccessRule) : List (Bool × FileAccessRow) :=
  rules.map fun r => (r.state = .remove, ⟨r.name, r.details⟩)

def notCompiled (status : String) : SNTError :=
  ⟨.ruleInvalidCELExpression, "Rule array contained rule with invalid CEL expression", some status⟩

section
variable (compile : Bool → String → Option String)

/-- A rule that does not compile writes nothing. -/
def executionWrites (rules : List SNTRule) : List (Bool × SNTRule) :=
  (rules.filter fun r => (celStatus compile r).isNone).map fun r => (r.state = .remove, r)

def skipped (rules : List SNTRule) : List SNTError :=
  (rules.filterMap (celStatus compile)).map notCompiled

def applied (cleanupType : SNTRuleCleanup) (executionRules : List SNTRule)
    (fileAccessRules : List SNTFileAccessRule) (db : Database) : Database where
  executionRules :=
    (db.executionRules.select (keepsExecution cleanupType)).writeAll
      (executionWrites compile executionRules)
  fileAccessRules :=
    (db.fileAccessRules.select fun _ => keepsFileAccess cleanupType).writeAll
      (fileAccessWrites fileAccessRules)

end

def SameTables (db db' : Database) : Prop :=
  KeyedRows.Same db.executionRules db'.executionRules ∧
    KeyedRows.Same db.fileAccessRules db'.fileAccessRules

/-! ### The batch -/

section
variable {compile : Bool → String → Option String} {fails : Nat → Option String}

theorem writeRule_eq (rows : ExecutionRules) (r : SNTRule) :
    writeRule rows r = rows.write (r.state = .remove, r) := by
  unfold writeRule KeyedRows.write
  by_cases remove : r.state = .remove
  · rw [if_pos remove, if_pos (decide_eq_true remove)]
  · rw [if_neg remove, if_neg (by simpa using remove)]

theorem foldl_writeRule (rules : List SNTRule) (rows : ExecutionRules) :
    rules.foldl writeRule rows = rows.writeAll (rules.map fun r => (r.state = .remove, r)) := by
  rw [KeyedRows.writeAll, List.foldl_map]
  congr
  funext rows r
  exact writeRule_eq rows r

theorem executionWrites_length (rules : List SNTRule) :
    (executionWrites compile rules).length =
      rules.countP fun r => (celStatus compile r).isNone := by
  rw [executionWrites, List.length_map, List.countP_eq_length_filter]

theorem execution_added_cons {r : SNTRule} {rules : List SNTRule} {t : Transaction}
    {errors : List SNTError}
    (added : (addExecutionRulesToDB compile fails (r :: rules) t errors).1 = true) :
    (∃ status, celStatus compile r = some status ∧
      addExecutionRulesToDB compile fails (r :: rules) t errors =
        addExecutionRulesToDB compile fails rules t (errors ++ [notCompiled status])) ∨
    (celStatus compile r = none ∧
      addExecutionRulesToDB compile fails (r :: rules) t errors =
        addExecutionRulesToDB compile fails rules
          ⟨{ t.db with executionRules := writeRule t.db.executionRules r }, t.executed + 1⟩
          errors) := by
  rw [addExecutionRulesToDB] at added ⊢
  by_cases invalid : invalidEntry r = true
  · rw [if_pos invalid] at added
    cases added
  rw [if_neg invalid] at added ⊢
  cases status : celStatus compile r with
  | some message => exact .inl ⟨message, rfl, rfl⟩
  | none =>
    apply Or.inr
    refine ⟨rfl, ?_⟩
    simp only [status, executeUpdate] at added ⊢
    by_cases remove : r.state = .remove
    · rw [if_pos remove] at added ⊢
      cases statement : fails t.executed with
      | some message => simp [statement] at added
      | none => simp only [writeRule, if_pos remove, Database.deleteRule]
    · rw [if_neg remove] at added ⊢
      cases statement : fails t.executed with
      | some message => simp [statement] at added
      | none => simp only [writeRule, if_neg remove, Database.insertOrReplaceRule]

theorem execution_added_rest {rules : List SNTRule} {t : Transaction} {errors : List SNTError}
    (added : (addExecutionRulesToDB compile fails rules t errors).1 = true) :
    let after := (addExecutionRulesToDB compile fails rules t errors).2
    after.1.db.fileAccessRules = t.db.fileAccessRules ∧
      after.1.executed = t.executed + (executionWrites compile rules).length ∧
      after.2 = errors ++ skipped compile rules := by
  induction rules generalizing t errors with
  | nil => simp [addExecutionRulesToDB, executionWrites, skipped]
  | cons r rules ih =>
    intro after
    rcases execution_added_cons added with ⟨status, message, same⟩ | ⟨compiles, same⟩
    · rw [same] at added
      obtain ⟨rows, executed, rest⟩ := ih added
      simp only [after, same]
      refine ⟨rows, ?_, ?_⟩
      · simp [executed, executionWrites, message]
      · simp [rest, skipped, message]
    · rw [same] at added
      obtain ⟨rows, executed, rest⟩ := ih added
      simp only [after, same]
      refine ⟨rows, ?_, ?_⟩
      · simp [executed, executionWrites, compiles]
        omega
      · simp [rest, skipped, compiles]

def wroteFileAccessRule (t : Transaction) (r : SNTFileAccessRule) : Transaction :=
  let rows := t.db.fileAccessRules.write (r.state = .remove, ⟨r.name, r.details⟩)
  ⟨{ t.db with fileAccessRules := rows }, t.executed + 1⟩

theorem fileAccess_cons (r : SNTFileAccessRule) (rules : List SNTFileAccessRule)
    (t : Transaction) (errors : List SNTError) :
    (invalidFileAccessEntry r = false ∧ fails t.executed = none ∧
      addFileAccessRulesToDB fails (r :: rules) t errors =
        addFileAccessRulesToDB fails rules (wroteFileAccessRule t r) errors) ∨
    (¬ (invalidFileAccessEntry r = false ∧ fails t.executed = none) ∧
      (addFileAccessRulesToDB fails (r :: rules) t errors).1 = false) := by
  rw [addFileAccessRulesToDB]
  by_cases invalid : invalidFileAccessEntry r = true
  · apply Or.inr
    rw [if_pos invalid, invalid]
    exact ⟨fun valid => Bool.noConfusion valid.1, rfl⟩
  rw [if_neg invalid]
  simp only [executeUpdate]
  cases statement : fails t.executed with
  | some message =>
    apply Or.inr
    constructor
    · rintro ⟨-, ⟨⟩⟩
    · split <;> rfl
  | none =>
    apply Or.inl
    refine ⟨by simpa using invalid, rfl, ?_⟩
    by_cases remove : r.state = .remove
    · simp only [if_pos remove, wroteFileAccessRule, KeyedRows.write, decide_eq_true remove,
        if_true]
    · simp only [wroteFileAccessRule, KeyedRows.write, remove, decide_false, Bool.false_eq_true,
        if_false]

theorem fileAccess_added_iff {rules : List SNTFileAccessRule} {t : Transaction}
    {errors : List SNTError} :
    (addFileAccessRulesToDB fails rules t errors).1 = true ↔
      (∀ r ∈ rules, invalidFileAccessEntry r = false) ∧
        ∀ n < rules.length, fails (t.executed + n) = none := by
  induction rules generalizing t errors with
  | nil => simp [addFileAccessRulesToDB]
  | cons r rules ih =>
    have statements : (∀ n < rules.length + 1, fails (t.executed + n) = none) ↔
        fails t.executed = none ∧ ∀ n < rules.length, fails (t.executed + 1 + n) = none := by
      rw [Nat.forall_lt_succ_left]
      simp only [Nat.add_zero, Nat.add_right_comm, Nat.add_assoc]
    rw [List.forall_mem_cons, List.length_cons, statements]
    rcases fileAccess_cons r rules t errors with ⟨valid, statement, same⟩ | ⟨refused, same⟩
    · rw [same, ih]
      simp [valid, statement, wroteFileAccessRule]
    · rw [same]
      apply iff_of_false Bool.false_ne_true
      rintro ⟨⟨valid, -⟩, statement, -⟩
      exact refused ⟨valid, statement⟩

theorem fileAccess_added_rest {rules : List SNTFileAccessRule} {t : Transaction}
    {errors : List SNTError} (added : (addFileAccessRulesToDB fails rules t errors).1 = true) :
    let after := (addFileAccessRulesToDB fails rules t errors).2
    after.1.db.executionRules = t.db.executionRules ∧
      after.1.db.fileAccessRules = t.db.fileAccessRules.writeAll (fileAccessWrites rules) ∧
      after.2 = errors := by
  induction rules generalizing t errors with
  | nil => exact ⟨rfl, rfl, rfl⟩
  | cons r rules ih =>
    rcases fileAccess_cons r rules t errors with ⟨-, -, same⟩ | ⟨-, same⟩
    · rw [same] at added ⊢
      exact ih added
    · rw [same] at added
      cases added

end

/-! ### The cleanup -/

def leavesExecution (fails : Nat → Option String) (cleanupType : SNTRuleCleanup) (r : SNTRule) :
    Bool := (fails 0).isSome || keepsExecution cleanupType r

def fileAccessStatement : SNTRuleCleanup → Nat
  | .all | .nonTransitive => 1
  | _ => 0

def leavesFileAccess (fails : Nat → Option String) (cleanupType : SNTRuleCleanup) : Bool :=
  (fails (fileAccessStatement cleanupType)).isSome || keepsFileAccess cleanupType

def cleanupStatements : SNTRuleCleanup → Nat
  | .all | .nonTransitive => 2
  | .executionRules | .fileAccessRules => 1
  | .none | .standalone => 0

theorem cleanup_execution (fails : Nat → Option String) (cleanupType : SNTRuleCleanup)
    (db : Database) :
    KeyedRows.Same (cleanup fails cleanupType ⟨db, 0⟩).db.executionRules
      (db.executionRules.select (leavesExecution fails cleanupType)) := by
  have left : (cleanup fails cleanupType ⟨db, 0⟩).db.executionRules =
      if (fails 0).isSome then db.executionRules
      else match cleanupType with
        | .all => .empty
        | .nonTransitive | .executionRules => db.deleteNonTransitive.executionRules
        | _ => db.executionRules := by
    cases cleanupType <;> simp only [cleanup, executeUpdate] <;> cases fails 0 <;>
      cases fails 1 <;> rfl
  rw [left]
  unfold leavesExecution
  cases fails 0 with
  | some message => exact KeyedRows.same_select_all fun _ => rfl
  | none =>
    cases cleanupType with
    | all => exact KeyedRows.same_select_none fun _ => rfl
    | nonTransitive | executionRules => exact fun _ => rfl
    | fileAccessRules | none | standalone => exact KeyedRows.same_select_all fun _ => rfl

theorem cleanup_fileAccess (fails : Nat → Option String) (cleanupType : SNTRuleCleanup)
    (db : Database) :
    KeyedRows.Same (cleanup fails cleanupType ⟨db, 0⟩).db.fileAccessRules
      (db.fileAccessRules.select fun _ => leavesFileAccess fails cleanupType) := by
  have left : (cleanup fails cleanupType ⟨db, 0⟩).db.fileAccessRules =
      bif leavesFileAccess fails cleanupType then db.fileAccessRules else .empty := by
    cases cleanupType <;>
      simp only [cleanup, executeUpdate, leavesFileAccess, fileAccessStatement] <;>
      cases fails 0 <;> cases fails 1 <;> rfl
  rw [left]
  cases leaves : leavesFileAccess fails cleanupType with
  | true => exact KeyedRows.same_select_all fun _ => rfl
  | false => exact KeyedRows.same_select_none fun _ => rfl

theorem cleanup_executed (fails : Nat → Option String) (cleanupType : SNTRuleCleanup)
    (db : Database) :
    (cleanup fails cleanupType ⟨db, 0⟩).executed = cleanupStatements cleanupType := by
  cases cleanupType <;> simp only [cleanup, executeUpdate] <;> cases fails 0 <;> cases fails 1 <;>
    rfl

/-! ### All of it -/

section
variable (compile : Bool → String → Option String) (fails : Nat → Option String)

structure Accepted (executionRules : List SNTRule) (fileAccessRules : List SNTFileAccessRule)
    (cleanupType : SNTRuleCleanup) : Prop where
  something : ¬ (executionRules = [] ∧ fileAccessRules = [] ∧ cleanupType = .none)
  execution : ∀ r ∈ executionRules, invalidEntry r = false
  fileAccess : ∀ r ∈ fileAccessRules, invalidFileAccessEntry r = false
  statements : ∀ n < (executionWrites compile executionRules).length + fileAccessRules.length,
    fails (cleanupStatements cleanupType + n) = none

def written (cleanupType : SNTRuleCleanup) (executionRules : List SNTRule)
    (fileAccessRules : List SNTFileAccessRule) (db : Database) : Database where
  executionRules :=
    (db.executionRules.select (leavesExecution fails cleanupType)).writeAll
      (executionWrites compile executionRules)
  fileAccessRules :=
    (db.fileAccessRules.select fun _ => leavesFileAccess fails cleanupType).writeAll
      (fileAccessWrites fileAccessRules)

end

section
variable {compile : Bool → String → Option String} {fails : Nat → Option String}
variable {hash : FileAccessRules → String}

/-- The tables are as they were; the hash of the file access rules may have been computed. -/
structure Refused (hash : FileAccessRules → String) (nothing : Prop) [Decidable nothing]
    (table : RuleTable) (outcome : AddResult × RuleTable) : Prop where
  success : outcome.1.success = false
  callback : outcome.1.callback = none
  db : outcome.2.db = table.db
  executionRulesHash : outcome.2.executionRulesHash = table.executionRulesHash
  fileAccessRulesHash : outcome.2.fileAccessRulesHash =
    if nothing then table.fileAccessRulesHash
    else fileAccessRulesHashSerialized hash table.fileAccessRulesHash table.db

structure Written (hash : FileAccessRules → String) (table : RuleTable) (db : Database)
    (errors : List SNTError) (outcome : AddResult × RuleTable) : Prop where
  success : outcome.1.success = true
  errors : outcome.1.errors = errors
  db : SameTables outcome.2.db db
  executionRulesHash : outcome.2.executionRulesHash = ""
  fileAccessRulesHash : outcome.2.fileAccessRulesHash = hash outcome.2.db.fileAccessRules
  callback : outcome.1.callback =
    if fileAccessRulesHashSerialized hash table.fileAccessRulesHash table.db =
      hash outcome.2.db.fileAccessRules then none
    else some outcome.2.db.fileAccessRules.rows.length

theorem forall_lt_add_iff {p : Nat → Prop} {a b : Nat} :
    (∀ n < a + b, p n) ↔ (∀ n < a, p n) ∧ ∀ n < b, p (a + n) := by
  constructor
  · intro all
    exact ⟨fun n bound => all n (by omega), fun n bound => all (a + n) (by omega)⟩
  · rintro ⟨first, later⟩ n bound
    by_cases before : n < a
    · exact first n before
    · have after := later (n - a) (by omega)
      rwa [Nat.add_sub_cancel' (by omega)] at after

theorem accepted_iff {executionRules : List SNTRule} {fileAccessRules : List SNTFileAccessRule}
    {cleanupType : SNTRuleCleanup} {t : Transaction}
    (something : ¬ (executionRules = [] ∧ fileAccessRules = [] ∧ cleanupType = .none))
    (executed : t.executed = cleanupStatements cleanupType) :
    Accepted compile fails executionRules fileAccessRules cleanupType ↔
      (addExecutionRulesToDB compile fails executionRules t []).1 = true ∧
        (addFileAccessRulesToDB fails fileAccessRules
          (addExecutionRulesToDB compile fails executionRules t []).2.1
          (addExecutionRulesToDB compile fails executionRules t []).2.2).1 = true := by
  set after := addExecutionRulesToDB compile fails executionRules t []
  have execution : after.1 = true ↔ _ := added_iff
  rw [executed, ← executionWrites_length] at execution
  have executed_after : after.1 = true → after.2.1.executed =
      cleanupStatements cleanupType + (executionWrites compile executionRules).length := by
    intro added
    rw [← executed]
    exact (execution_added_rest added).2.1
  rw [fileAccess_added_iff]
  constructor
  · intro accepted
    obtain ⟨first, later⟩ := forall_lt_add_iff.mp accepted.statements
    have added := execution.mpr ⟨accepted.execution, first⟩
    refine ⟨added, accepted.fileAccess, fun n bound => ?_⟩
    rw [executed_after added, Nat.add_assoc]
    exact later n bound
  · rintro ⟨added, validFiles, later⟩
    obtain ⟨valid, first⟩ := execution.mp added
    refine ⟨something, valid, validFiles, forall_lt_add_iff.mpr ⟨first, fun n bound => ?_⟩⟩
    rw [← Nat.add_assoc, ← executed_after added]
    exact later n bound

theorem written_of_added {executionRules : List SNTRule} {fileAccessRules : List SNTFileAccessRule}
    {cleanupType : SNTRuleCleanup} {db : Database} :
    let after := addExecutionRulesToDB compile fails executionRules
      (cleanup fails cleanupType ⟨db, 0⟩) []
    let afterFiles := addFileAccessRulesToDB fails fileAccessRules after.2.1 after.2.2
    after.1 = true → afterFiles.1 = true →
      SameTables afterFiles.2.1.db
          (written compile fails cleanupType executionRules fileAccessRules db) ∧
        afterFiles.2.2 = skipped compile executionRules := by
  intro after afterFiles added addedFiles
  have rows := added_rows added
  rw [foldl_writeRule] at rows
  obtain ⟨files, -, errors⟩ := execution_added_rest added
  obtain ⟨kept, files', same⟩ := fileAccess_added_rest addedFiles
  refine ⟨⟨?_, ?_⟩, same.trans errors⟩
  · rw [kept, rows]
    exact (cleanup_execution fails cleanupType db).writeAll _
  · rw [files', files]
    exact (cleanup_fileAccess fails cleanupType db).writeAll _

theorem addExecutionRules_cases (table : RuleTable) (executionRules : List SNTRule)
    (fileAccessRules : List SNTFileAccessRule) (cleanupType : SNTRuleCleanup) :
    let outcome :=
      addExecutionRules compile hash fails table executionRules fileAccessRules cleanupType
    (¬ Accepted compile fails executionRules fileAccessRules cleanupType ∧
      Refused hash (executionRules = [] ∧ fileAccessRules = [] ∧ cleanupType = .none) table
        outcome) ∨
    (Accepted compile fails executionRules fileAccessRules cleanupType ∧
      Written hash table
        (written compile fails cleanupType executionRules fileAccessRules table.db)
        (skipped compile executionRules) outcome) := by
  intro outcome
  by_cases nothing : executionRules = [] ∧ fileAccessRules = [] ∧ cleanupType = .none
  · have same : outcome = (⟨false, [⟨.emptyRuleArray,
        "Empty execution and file access rule arrays", none⟩], none⟩, table) := if_pos nothing
    rw [same]
    apply Or.inl
    exact ⟨fun accepted => accepted.something nothing, rfl, rfl, rfl, rfl, (if_pos nothing).symm⟩
  have unfolded : outcome = _ := if_neg nothing
  dsimp only at unfolded
  rw [accepted_iff nothing (cleanup_executed fails cleanupType table.db)]
  have leaves := @written_of_added compile fails executionRules fileAccessRules cleanupType table.db
  obtain ⟨ok, t, errors, execution⟩ : ∃ ok t errors, addExecutionRulesToDB compile fails
    executionRules (cleanup fails cleanupType ⟨table.db, 0⟩) [] = (ok, t, errors) := ⟨_, _, _, rfl⟩
  rw [execution] at unfolded leaves ⊢
  cases ok with
  | false =>
    rw [unfolded]
    apply Or.inl
    exact ⟨fun added => Bool.false_ne_true added.1, rfl, rfl, rfl, rfl, (if_neg nothing).symm⟩
  | true =>
    obtain ⟨ok, t', errors', fileAccess⟩ : ∃ ok t' errors',
      addFileAccessRulesToDB fails fileAccessRules t errors = (ok, t', errors') := ⟨_, _, _, rfl⟩
    dsimp only at unfolded leaves ⊢
    rw [fileAccess] at unfolded leaves ⊢
    rw [unfolded]
    cases ok with
    | false =>
      apply Or.inl
      exact ⟨fun added => Bool.false_ne_true added.2, rfl, rfl, rfl, rfl, (if_neg nothing).symm⟩
    | true =>
      apply Or.inr
      obtain ⟨tables, errors⟩ := leaves rfl rfl
      exact ⟨⟨rfl, rfl⟩, rfl, errors, tables, rfl, rfl, rfl⟩

end

/-! ### What adding promises -/

section
variable (compile : Bool → String → Option String) (fails : Nat → Option String)
variable (hash : FileAccessRules → String)

/-- Refused rules change nothing, hashes included; others are applied and the ones that do not
    compile reported; the callback runs when the hash of the file access rules has changed. -/
structure Atomic (table : RuleTable) (executionRules : List SNTRule)
    (fileAccessRules : List SNTFileAccessRule) (cleanupType : SNTRuleCleanup)
    (outcome : AddResult × RuleTable) : Prop where
  refused : outcome.1.success = false → outcome.2 = table
  added : outcome.1.success = true →
    SameTables outcome.2.db
      (applied compile cleanupType executionRules fileAccessRules table.db) ∧
      outcome.1.errors = skipped compile executionRules
  callback : outcome.1.callback.isSome = true ↔
    fileAccessRulesHashSerialized hash table.fileAccessRulesHash table.db ≠
      fileAccessRulesHashSerialized hash outcome.2.fileAccessRulesHash outcome.2.db

/-- A statement of the cleanup that fails leaves only rows that stay or that the batch writes. -/
structure CleansUp (executionRules : List SNTRule) (fileAccessRules : List SNTFileAccessRule)
    (cleanupType : SNTRuleCleanup) (db : Database) : Prop where
  execution : ∀ r ∈ db.executionRules.rows, (fails 0 = none ∨ keepsExecution cleanupType r = true) ∨
    ∃ w ∈ executionWrites compile executionRules, ruleKey w.2 = ruleKey r
  fileAccess : ∀ r ∈ db.fileAccessRules.rows,
    (fails (fileAccessStatement cleanupType) = none ∨ keepsFileAccess cleanupType = true) ∨
      ∃ w ∈ fileAccessWrites fileAccessRules, w.2.name = r.name

end

section
variable {compile : Bool → String → Option String} {fails : Nat → Option String}
variable {hash : FileAccessRules → String}

theorem leaves_iff {failure : Option String} {keeps : Bool} :
    (failure.isSome || keeps) = keeps ↔ failure = none ∨ keeps = true := by
  cases failure <;> cases keeps <;> simp

theorem written_iff {executionRules : List SNTRule} {fileAccessRules : List SNTFileAccessRule}
    {cleanupType : SNTRuleCleanup} {db : Database} :
    SameTables (written compile fails cleanupType executionRules fileAccessRules db)
        (applied compile cleanupType executionRules fileAccessRules db) ↔
      CleansUp compile fails executionRules fileAccessRules cleanupType db := by
  unfold SameTables written applied
  rw [KeyedRows.same_select_iff, KeyedRows.same_select_iff]
  simp only [leavesExecution, leavesFileAccess, leaves_iff]
  constructor
  · rintro ⟨execution, fileAccess⟩
    exact ⟨execution, fileAccess⟩
  · rintro ⟨execution, fileAccess⟩
    exact ⟨execution, fileAccess⟩

theorem sameTables_iff {db db' db'' : Database} (same : SameTables db db') :
    SameTables db db'' ↔ SameTables db' db'' := by
  constructor
  · exact fun h => ⟨same.1.symm.trans h.1, same.2.symm.trans h.2⟩
  · exact fun h => ⟨same.1.trans h.1, same.2.trans h.2⟩

theorem hashSerialized_eq_memo_iff {hash : FileAccessRules → String} {memo : String}
    {db : Database} :
    fileAccessRulesHashSerialized hash memo db = memo ↔
      memo ≠ "" ∨ hash db.fileAccessRules = "" := by
  unfold fileAccessRulesHashSerialized
  by_cases computed : memo = ""
  · rw [if_pos computed, computed]
    simp
  · rw [if_neg computed]
    exact iff_of_true rfl (.inl computed)

theorem atomic_refused_iff {table : RuleTable} {executionRules : List SNTRule}
    {fileAccessRules : List SNTFileAccessRule} {cleanupType : SNTRuleCleanup}
    {nothing : Prop} [Decidable nothing] {outcome : AddResult × RuleTable}
    (refused : Refused hash nothing table outcome) :
    Atomic compile hash table executionRules fileAccessRules cleanupType outcome ↔
      nothing ∨ table.fileAccessRulesHash ≠ "" ∨ hash table.db.fileAccessRules = "" := by
  rw [← hashSerialized_eq_memo_iff]
  constructor
  · intro atomic
    by_cases none : nothing
    · exact .inl none
    · have same := refused.fileAccessRulesHash
      rw [if_neg none, atomic.refused refused.success] at same
      exact .inr same.symm
  · intro cached
    have memo : outcome.2.fileAccessRulesHash = table.fileAccessRulesHash := by
      rw [refused.fileAccessRulesHash]
      rcases cached with none | cached
      · exact if_pos none
      · rw [cached, ite_self]
    have same : outcome.2 = table :=
      calc
        outcome.2 = ⟨outcome.2.db, outcome.2.executionRulesHash,
          outcome.2.fileAccessRulesHash⟩ := rfl
        _ = table := by rw [refused.db, refused.executionRulesHash, memo]
    refine ⟨fun _ => same, ?_, ?_⟩
    · intro success
      rw [refused.success] at success
      cases success
    · rw [refused.callback, same]
      exact iff_of_false Bool.false_ne_true (fun changed => changed rfl)

theorem atomic_written_iff {table : RuleTable} {executionRules : List SNTRule}
    {fileAccessRules : List SNTFileAccessRule} {cleanupType : SNTRuleCleanup}
    {outcome : AddResult × RuleTable}
    (wrote : Written hash table
      (written compile fails cleanupType executionRules fileAccessRules table.db)
      (skipped compile executionRules) outcome) :
    Atomic compile hash table executionRules fileAccessRules cleanupType outcome ↔
      CleansUp compile fails executionRules fileAccessRules cleanupType table.db := by
  rw [← written_iff, ← sameTables_iff wrote.db]
  constructor
  · exact fun atomic => (atomic.added wrote.success).1
  · intro same
    refine ⟨?_, fun _ => ⟨same, wrote.errors⟩, ?_⟩
    · intro failure
      rw [wrote.success] at failure
      cases failure
    · have reported : fileAccessRulesHashSerialized hash outcome.2.fileAccessRulesHash
          outcome.2.db = hash outcome.2.db.fileAccessRules := by
        rw [wrote.fileAccessRulesHash]
        exact ite_eq_right_iff.mpr fun _ => rfl
      rw [wrote.callback, reported]
      split
      · rename_i unchanged
        exact iff_of_false Bool.false_ne_true fun changed => changed unchanged
      · rename_i changed
        exact iff_of_true rfl changed

/-- Adding is atomic as far as the cleanup cleans up, and a refusal computes no hash. -/
theorem atomic_iff (table : RuleTable) (executionRules : List SNTRule)
    (fileAccessRules : List SNTFileAccessRule) (cleanupType : SNTRuleCleanup) :
    Atomic compile hash table executionRules fileAccessRules cleanupType
        (addExecutionRules compile hash fails table executionRules fileAccessRules cleanupType) ↔
      (¬ Accepted compile fails executionRules fileAccessRules cleanupType →
        (executionRules = [] ∧ fileAccessRules = [] ∧ cleanupType = .none) ∨
          table.fileAccessRulesHash ≠ "" ∨ hash table.db.fileAccessRules = "") ∧
      (Accepted compile fails executionRules fileAccessRules cleanupType →
        CleansUp compile fails executionRules fileAccessRules cleanupType table.db) := by
  rcases @addExecutionRules_cases compile fails hash table
    executionRules fileAccessRules cleanupType with ⟨not_accepted, refused⟩ | ⟨accepted, wrote⟩
  · rw [atomic_refused_iff refused]
    constructor
    · exact fun cached => ⟨fun _ => cached, fun accepted => absurd accepted not_accepted⟩
    · exact fun condition => condition.1 not_accepted
  · rw [atomic_written_iff wrote]
    constructor
    · exact fun clean => ⟨fun not_accepted => absurd accepted not_accepted, fun _ => clean⟩
    · exact fun condition => condition.2 accepted

end

/-! ### One rule -/

/-- A rule that is neither evaluated nor a removal, as the daemon itself adds them. -/
structure Plain (rule : SNTRule) : Prop where
  valid : invalidEntry rule = false
  stays : rule.state ≠ .remove
  unevaluated : rule.state ≠ .cel ∧ rule.state ≠ .celv2

section
variable {compile : Bool → String → Option String} {hash : FileAccessRules → String}
variable {fails : Nat → Option String} {rule : SNTRule}

theorem plain_compiles (plain : Plain rule) : celStatus compile rule = none :=
  if_neg fun evaluated => evaluated.elim plain.unevaluated.1 plain.unevaluated.2

theorem plain_accepted (plain : Plain rule) :
    Accepted compile fails [rule] [] .none ↔ fails 0 = none := by
  have one : (executionWrites compile [rule]).length = 1 := by
    simp [executionWrites, plain_compiles plain]
  constructor
  · intro accepted
    exact accepted.statements 0 (by rw [one]; decide)
  · intro succeeds
    constructor
    · exact fun nothing => List.cons_ne_nil _ _ nothing.1
    · intro r member
      rw [List.mem_singleton.mp member]
      exact plain.valid
    · exact fun r member => absurd member List.not_mem_nil
    · intro n bound
      rw [one] at bound
      obtain rfl : n = 0 := by simpa using bound
      exact succeeds

theorem plain_failed (table : RuleTable) (plain : Plain rule) (failed : fails 0 ≠ none) :
    (addExecutionRules compile hash fails table [rule] [] .none).2.db = table.db := by
  rcases @addExecutionRules_cases compile fails hash table [rule] [] .none with
    ⟨-, refused⟩ | ⟨accepted, -⟩
  · exact refused.db
  · exact absurd ((plain_accepted plain).mp accepted) failed

theorem plain_rows (table : RuleTable) (plain : Plain rule) (succeeds : fails 0 = none)
    (key : String × SNTRuleType) :
    (addExecutionRules compile hash fails table [rule] [] .none).2.db.executionRules.get key =
      if key = ruleKey rule then some rule else table.db.executionRules.get key := by
  rcases @addExecutionRules_cases compile fails hash table [rule] [] .none with
    ⟨not_accepted, -⟩ | ⟨-, wrote⟩
  · exact absurd ((plain_accepted plain).mpr succeeds) not_accepted
  · have writes : executionWrites compile [rule] = [(false, rule)] := by
      simp [executionWrites, plain_compiles plain, plain.stays]
    have kept : leavesExecution fails .none = fun _ => true := by
      funext r
      simp [leavesExecution, keepsExecution]
    have rows := wrote.db.1 key
    rw [written, writes, kept] at rows
    rw [rows, KeyedRows.writeAll, List.foldl_cons, List.foldl_nil, KeyedRows.get_write,
      ← KeyedRows.same_select_all (fun _ => rfl)]
    simp only [Bool.false_eq_true, if_false]

end

/-- A cleanup whose first statement fails: the old rule stays, and the answer is yes. -/
theorem failed_cleanup_not_atomic :
    let old : SNTRule := ⟨"EQHXZ8M8AV", .block, .teamID, none, none, 0, none, none⟩
    let table : RuleTable := ⟨⟨KeyedRows.empty.put old, .empty⟩, "", ""⟩
    let fails : Nat → Option String := fun n => if n = 0 then some "disk I/O error" else none
    let outcome := addExecutionRules (fun _ _ => none) (fun _ => "0") fails table [] [] .all
    outcome.1.success = true ∧
      ¬ Atomic (fun _ _ => none) (fun _ => "0") table [] [] .all outcome := by
  intro old table fails outcome
  refine ⟨by decide, ?_⟩
  intro atomic
  have same := (atomic.added (by decide)).1.1 ("EQHXZ8M8AV", .teamID)
  exact absurd same (by decide)

end SantaRuleAddition
