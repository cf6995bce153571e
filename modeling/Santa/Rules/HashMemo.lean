import Santa.Library.Runs
import Santa.Rules.RulesHash
import Santa.Sync.RuleDownload

/-!
The two hashes that the rule table keeps in memory. They are cleared when rules
have been added, and computed again when they are asked for and there is none.
Everything that touches them runs on the queue of the database, one after the
other. What turns bytes into a hash is a parameter.
-/
namespace SantaHashMemo
open SantaRule SantaRuleTable SantaRuleAddition SantaRulesHash SantaRuleDownload

section
variable (digest : List UInt8 → String)

def executionRulesHashSerialized (table : RuleTable) : String × RuleTable :=
  if table.executionRulesHash = "" then
    let hash := digest (executionRulesBytes table.db.executionRules)
    (hash, { table with executionRulesHash := hash })
  else (table.executionRulesHash, table)

def fileAccessHash (rules : FileAccessRules) : String := digest (fileAccessRulesBytes rules)

def hashOfHashes (table : RuleTable) : (String × String) × RuleTable :=
  let (execution, table) := executionRulesHashSerialized digest table
  let fileAccess := fileAccessRulesHashSerialized (fileAccessHash digest)
    table.fileAccessRulesHash table.db
  ((execution, fileAccess), { table with fileAccessRulesHash := fileAccess })

end

theorem ruleKey_timestamp (now : Nat) (row : SNTRule) :
    ruleKey { row with timestamp := now } = ruleKey row := rfl

def resetTimestampForExecutionRule (rule : SNTRule) (now : Nat) (fails : Bool)
    (rows : ExecutionRules) : ExecutionRules :=
  if fails then rows
  else rows.modify (ruleKey rule) (fun row => { row with timestamp := now })
    (ruleKey_timestamp now)

def RuleTable.withExecutionRules (table : RuleTable) (rows : ExecutionRules) : RuleTable :=
  { table with db := { table.db with executionRules := rows } }

inductive Label where
  | add (executionRules : List SNTRule) (fileAccessRules : List SNTFileAccessRule)
      (cleanupType : SNTRuleCleanup) (fails : Nat → Option String)
  | removeOutdated (culling : Culling)
  | resetTimestamp (rule : SNTRule) (now : Nat) (fails : Bool)
  | hashOfHashes

section
variable (compile : Bool → String → Option String) (digest : List UInt8 → String)

def step (table : RuleTable) : Label → Option RuleTable
  | .add executionRules fileAccessRules cleanupType fails =>
      some (addExecutionRules compile (fileAccessHash digest) fails table executionRules
        fileAccessRules cleanupType).2
  | .removeOutdated culling =>
      some (RuleTable.withExecutionRules table
        (removeOutdatedTransitiveRules culling table.db.executionRules))
  | .resetTimestamp rule now fails =>
      some (RuleTable.withExecutionRules table
        (resetTimestampForExecutionRule rule now fails table.db.executionRules))
  | .hashOfHashes => some (hashOfHashes digest table).2

structure Fresh (table : RuleTable) : Prop where
  executionRules : table.executionRulesHash ≠ "" →
    table.executionRulesHash = digest (executionRulesBytes table.db.executionRules)
  fileAccessRules : table.fileAccessRulesHash ≠ "" →
    table.fileAccessRulesHash = digest (fileAccessRulesBytes table.db.fileAccessRules)

end

/-! ### What does not change the hashed rows -/

theorem hashedRows_removeOutdated (c : Culling) (rows : ExecutionRules) :
    hashedRows (removeOutdatedTransitiveRules c rows) = hashedRows rows := by
  unfold removeOutdatedTransitiveRules
  split
  · unfold hashedRows
    congr 1
    rw [KeyedRows.select, List.filter_filter]
    congr 1
    funext r
    by_cases transitive : r.state = .allowTransitive
    · simp [transitive]
    · simp [transitive, Culling.outdated]
  · rfl

theorem hashedRows_resetTimestamp (rule : SNTRule) (now : Nat) (fails : Bool)
    (rows : ExecutionRules) :
    hashedRows (resetTimestampForExecutionRule rule now fails rows) = hashedRows rows := by
  unfold resetTimestampForExecutionRule
  split
  · rfl
  · unfold hashedRows
    rw [KeyedRows.modify_rows, List.filter_map, List.map_map]
    have kept : ∀ r : SNTRule, (if ruleKey r = ruleKey rule then { r with timestamp := now }
        else r).state = r.state := by
      intro r
      split <;> rfl
    have hashed : hashedRow ∘ (fun r : SNTRule =>
        if ruleKey r = ruleKey rule then { r with timestamp := now } else r) = hashedRow := by
      funext r
      simp only [Function.comp_apply]
      split <;> rfl
    rw [hashed]
    congr 2
    funext r
    simp only [Function.comp_apply, kept]

section
variable {compile : Bool → String → Option String} {digest : List UInt8 → String}

theorem fresh_start (db : Database) : Fresh digest ⟨db, "", ""⟩ :=
  ⟨fun none => absurd rfl none, fun none => absurd rfl none⟩

theorem Fresh.fileAccess_serialized {table : RuleTable} (fresh : Fresh digest table) :
    fileAccessRulesHashSerialized (fileAccessHash digest) table.fileAccessRulesHash table.db =
      digest (fileAccessRulesBytes table.db.fileAccessRules) := by
  unfold fileAccessRulesHashSerialized
  split
  · rfl
  · exact fresh.fileAccessRules ‹_›

theorem Fresh.withExecutionRules {table : RuleTable} (fresh : Fresh digest table)
    {rows : ExecutionRules} (same : hashedRows rows = hashedRows table.db.executionRules) :
    Fresh digest (RuleTable.withExecutionRules table rows) := by
  constructor
  · intro kept
    rw [executionRulesBytes, RuleTable.withExecutionRules, same]
    exact fresh.executionRules kept
  · exact fresh.fileAccessRules

theorem Fresh.hashOfHashes {table : RuleTable} (fresh : Fresh digest table) :
    Fresh digest (hashOfHashes digest table).2 := by
  have fileAccess := fresh.fileAccess_serialized
  by_cases none : table.executionRulesHash = ""
  · simp only [SantaHashMemo.hashOfHashes, executionRulesHashSerialized, if_pos none, fileAccess]
    exact ⟨fun _ => rfl, fun _ => rfl⟩
  · simp only [SantaHashMemo.hashOfHashes, executionRulesHashSerialized, if_neg none, fileAccess]
    exact ⟨fresh.executionRules, fun _ => rfl⟩

theorem Fresh.add {table : RuleTable} (fresh : Fresh digest table) (executionRules : List SNTRule)
    (fileAccessRules : List SNTFileAccessRule) (cleanupType : SNTRuleCleanup)
    (fails : Nat → Option String) :
    Fresh digest (addExecutionRules compile (fileAccessHash digest) fails table executionRules
      fileAccessRules cleanupType).2 := by
  rcases @addExecutionRules_cases compile fails (fileAccessHash digest) table executionRules
    fileAccessRules cleanupType with ⟨-, refused⟩ | ⟨-, wrote⟩
  · constructor
    · rw [refused.executionRulesHash, refused.db]
      exact fresh.executionRules
    · rw [refused.fileAccessRulesHash, refused.db]
      split
      · exact fresh.fileAccessRules
      · exact fun _ => fresh.fileAccess_serialized
  · constructor
    · rw [wrote.executionRulesHash]
      exact fun none => absurd rfl none
    · exact fun _ => wrote.fileAccessRulesHash

theorem fresh_step {table after : RuleTable} {l : Label} (fresh : Fresh digest table)
    (h : step compile digest table l = some after) : Fresh digest after := by
  cases l with
  | add executionRules fileAccessRules cleanupType fails =>
    rw [← Option.some.inj h]
    exact fresh.add executionRules fileAccessRules cleanupType fails
  | removeOutdated culling =>
    rw [← Option.some.inj h]
    exact fresh.withExecutionRules (hashedRows_removeOutdated culling _)
  | resetTimestamp rule now fails =>
    rw [← Option.some.inj h]
    exact fresh.withExecutionRules (hashedRows_resetTimestamp rule now fails _)
  | hashOfHashes =>
    rw [← Option.some.inj h]
    exact fresh.hashOfHashes

/-- In every run a hash that is kept is the one of the table. -/
theorem memo_fresh (compile : Bool → String → Option String) (digest : List UInt8 → String)
    (db : Database) (ls : List Label) :
    Runs.Always (step compile digest) (Fresh digest) ⟨db, "", ""⟩ ls :=
  Runs.always_of_keep (Fresh digest) (fun _ _ _ => fresh_step) (fresh_start db) ls

end

end SantaHashMemo
