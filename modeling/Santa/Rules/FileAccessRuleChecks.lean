import Santa.Rules.RuleAddition

/-!
File access rules as santad receives them. The decoder of a rule takes whatever number the archive
has for its state, zero if there is none, and leaves out a name or details that are not there. The
table takes no row without details, but one whose details are empty data.
-/
namespace SantaFileAccessRuleChecks
open SantaRule SantaRuleTable SantaRuleAddition

abbrev Data := List UInt8

def SNTFileAccessRuleStateAdd : Int32 := 1
def SNTFileAccessRuleStateRemove : Int32 := 2

structure ReceivedRule where
  state : Int32
  name : Option String
  details : Option Data
  description : String
  deriving DecidableEq, Repr

/-- An entry of the array, which may hold objects of another class. -/
inductive Entry where
  | rule (r : ReceivedRule)
  | other (description : String)
  deriving DecidableEq, Repr

def Entry.description : Entry → String
  | .rule r => r.description
  | .other description => description

def ReceivedRule.invalid (r : ReceivedRule) : Bool :=
  r.name.getD "" = "" ||
    ((r.state = SNTFileAccessRuleStateAdd && r.details.getD [] = []) &&
      r.state ≠ SNTFileAccessRuleStateRemove)

def Entry.invalid : Entry → Bool
  | .rule r => r.invalid
  | .other _ => true

def deleteRule (fails : Nat → Option String) (r : ReceivedRule) (t : Transaction) :
    Option String × Transaction :=
  executeUpdate fails
    (fun db => { db with fileAccessRules := db.fileAccessRules.remove (r.name.getD "") }) t

def notNull : String := "NOT NULL constraint failed: file_access_rules.rule_data"

/-- Missing details are bound as null, which the column does not take. -/
def insertOrReplaceRule (fails : Nat → Option String) (r : ReceivedRule) (t : Transaction) :
    Option String × Transaction :=
  match r.details with
  | some details => executeUpdate fails
      (fun db => { db with
        fileAccessRules := db.fileAccessRules.put ⟨r.name.getD "", details⟩ }) t
  | none => executeUpdate (fun n => some ((fails n).getD notNull)) id t

def addFileAccessRulesToDB (fails : Nat → Option String) :
    List Entry → Transaction → List SNTError → Bool × Transaction × List SNTError
  | [], t, errors => (true, t, errors)
  | .other description :: _, t, errors =>
      (false, t, errors ++
        [⟨.ruleInvalid, "File access rule array contained invalid entry", some description⟩])
  | .rule r :: entries, t, errors =>
      if r.invalid then
        (false, t, errors ++
          [⟨.ruleInvalid, "File access rule array contained invalid entry", some r.description⟩])
      else if r.state = SNTFileAccessRuleStateRemove then
        match deleteRule fails r t with
        | (some message, t) => (false, t, errors ++ [⟨.removeRuleFailed,
            "A database error occurred while deleting a file access rule", some message⟩])
        | (none, t) => addFileAccessRulesToDB fails entries t errors
      else
        match insertOrReplaceRule fails r t with
        | (some message, t) => (false, t, errors ++ [⟨.insertOrReplaceRuleFailed,
            "A database error occurred while inserting/replacing a file access rule",
            some message⟩])
        | (none, t) => addFileAccessRulesToDB fails entries t errors

/-! ### The rules of the table's model -/

def declaredState (state : Int32) : SNTFileAccessRuleState :=
  if state = SNTFileAccessRuleStateAdd then .add
  else if state = SNTFileAccessRuleStateRemove then .remove
  else .undeclared state.toInt

def ReceivedRule.toRule (r : ReceivedRule) : SNTFileAccessRule :=
  ⟨declaredState r.state, r.name.getD "", r.details.getD [], r.description⟩

@[simp] theorem toRule_name (r : ReceivedRule) : r.toRule.name = r.name.getD "" := rfl
@[simp] theorem toRule_details (r : ReceivedRule) : r.toRule.details = r.details.getD [] := rfl

def ReceivedRule.Declared (r : ReceivedRule) : Prop :=
  r.state = SNTFileAccessRuleStateAdd ∨ r.state = SNTFileAccessRuleStateRemove

instance (r : ReceivedRule) : Decidable r.Declared := inferInstanceAs (Decidable (_ ∨ _))

theorem toRule_add {r : ReceivedRule} :
    r.toRule.state = .add ↔ r.state = SNTFileAccessRuleStateAdd := by
  simp only [ReceivedRule.toRule, declaredState]
  split
  · exact iff_of_true rfl ‹_›
  · split
    · exact iff_of_false (fun h => by cases h) ‹_›
    · exact iff_of_false (fun h => by cases h) ‹_›

theorem toRule_remove {r : ReceivedRule} :
    r.toRule.state = .remove ↔ r.state = SNTFileAccessRuleStateRemove := by
  simp only [ReceivedRule.toRule, declaredState]
  split
  · rename_i add
    exact iff_of_false (fun h => by cases h) (by rw [add]; decide)
  · split
    · exact iff_of_true rfl ‹_›
    · exact iff_of_false (fun h => by cases h) ‹_›

theorem invalid_toRule (r : ReceivedRule) : invalidFileAccessEntry r.toRule = r.invalid := by
  rw [Bool.eq_iff_iff]
  simp only [invalidFileAccessEntry, ReceivedRule.invalid, Bool.or_eq_true, Bool.and_eq_true,
    decide_eq_true_eq, ne_eq, toRule_add, toRule_remove]
  rfl

theorem add_rules_eq {fails : Nat → Option String} {rules : List ReceivedRule}
    (there : ∀ r ∈ rules, r.Declared ∨ r.details ≠ none) (t : Transaction)
    (errors : List SNTError) :
    addFileAccessRulesToDB fails (rules.map .rule) t errors =
      SantaRuleTable.addFileAccessRulesToDB fails (rules.map (·.toRule)) t errors := by
  induction rules generalizing t errors with
  | nil => rfl
  | cons r rules ih =>
    obtain ⟨here, rest⟩ := List.forall_mem_cons.mp there
    rw [List.map_cons, List.map_cons, addFileAccessRulesToDB,
      SantaRuleTable.addFileAccessRulesToDB, invalid_toRule]
    by_cases invalid : r.invalid = true
    · rw [if_pos invalid, if_pos invalid]
      rfl
    rw [if_neg invalid, if_neg invalid]
    by_cases remove : r.state = SNTFileAccessRuleStateRemove
    · rw [if_pos remove, if_pos (toRule_remove.mpr remove)]
      simp only [deleteRule, ih rest]
      rfl
    · rw [if_neg remove, if_neg fun h => remove (toRule_remove.mp h)]
      have given : r.details ≠ none := by
        rcases here with (add | removes) | given
        · intro missing
          refine absurd ?_ invalid
          rw [ReceivedRule.invalid, add, missing, Bool.or_eq_true]
          exact Or.inr (by decide)
        · exact absurd removes remove
        · exact given
      obtain ⟨details, some⟩ := Option.ne_none_iff_exists'.mp given
      have stored : insertOrReplaceRule fails r t = executeUpdate fails
          (fun db => { db with
            fileAccessRules := db.fileAccessRules.put ⟨r.toRule.name, r.toRule.details⟩ }) t := by
        rw [insertOrReplaceRule, some, toRule_name, toRule_details, some, Option.getD_some]
      rw [stored]
      generalize executeUpdate fails _ t = outcome
      obtain ⟨_ | message, t⟩ := outcome
      · exact ih rest t errors
      · rfl

/-! ### What a call accepts and what it writes -/

def Entry.Passes : Entry → Prop
  | .rule r => r.invalid = false ∧
      (r.state ≠ SNTFileAccessRuleStateRemove → r.details ≠ none)
  | .other _ => False

def wroteEntry (t : Transaction) : Entry → Transaction
  | .rule r => wroteFileAccessRule t r.toRule
  | .other _ => t

variable {fails : Nat → Option String}

theorem entry_cons (e : Entry) (entries : List Entry) (t : Transaction) (errors : List SNTError) :
    (e.Passes ∧ fails t.executed = none ∧
      addFileAccessRulesToDB fails (e :: entries) t errors =
        addFileAccessRulesToDB fails entries (wroteEntry t e) errors) ∨
    (¬ (e.Passes ∧ fails t.executed = none) ∧
      (addFileAccessRulesToDB fails (e :: entries) t errors).1 = false) := by
  cases e with
  | other description => exact Or.inr ⟨fun h => h.1, rfl⟩
  | rule r =>
    rw [addFileAccessRulesToDB]
    by_cases invalid : r.invalid = true
    · rw [if_pos invalid]
      refine Or.inr ⟨fun h => ?_, rfl⟩
      rw [h.1.1] at invalid
      cases invalid
    rw [if_neg invalid]
    have valid : r.invalid = false := by simpa using invalid
    by_cases remove : r.state = SNTFileAccessRuleStateRemove
    · have passes : Entry.Passes (.rule r) := ⟨valid, fun other => absurd remove other⟩
      rw [if_pos remove]
      cases statement : fails t.executed with
      | some message =>
        simp only [deleteRule, executeUpdate, statement]
        exact Or.inr ⟨fun h => Option.some_ne_none _ h.2, trivial⟩
      | none =>
        have removed : decide (r.toRule.state = .remove) = true :=
          decide_eq_true (toRule_remove.mpr remove)
        simp only [deleteRule, executeUpdate, statement, wroteEntry, wroteFileAccessRule,
          KeyedRows.write, removed, if_true]
        exact Or.inl ⟨passes, trivial, rfl⟩
    · rw [if_neg remove]
      cases details : r.details with
      | none =>
        simp only [insertOrReplaceRule, details, executeUpdate]
        exact Or.inr ⟨fun h => h.1.2 remove details, trivial⟩
      | some data =>
        have passes : Entry.Passes (.rule r) := ⟨valid, fun _ => by simp [details]⟩
        cases statement : fails t.executed with
        | some message =>
          simp only [insertOrReplaceRule, details, executeUpdate, statement]
          exact Or.inr ⟨fun h => Option.some_ne_none _ h.2, trivial⟩
        | none =>
          have kept : decide (r.toRule.state = .remove) = false :=
            decide_eq_false fun h => remove (toRule_remove.mp h)
          have data : r.toRule.details = data := by
            rw [toRule_details, details, Option.getD_some]
          simp only [insertOrReplaceRule, details, executeUpdate, statement, wroteEntry,
            wroteFileAccessRule, KeyedRows.write, kept, data, Bool.false_eq_true, if_false]
          exact Or.inl ⟨passes, trivial, rfl⟩

theorem accepted_iff {entries : List Entry} {t : Transaction} {errors : List SNTError} :
    (addFileAccessRulesToDB fails entries t errors).1 = true ↔
      (∀ e ∈ entries, e.Passes) ∧ ∀ n < entries.length, fails (t.executed + n) = none := by
  induction entries generalizing t errors with
  | nil => simp [addFileAccessRulesToDB]
  | cons e entries ih =>
    have statements : (∀ n < entries.length + 1, fails (t.executed + n) = none) ↔
        fails t.executed = none ∧ ∀ n < entries.length, fails (t.executed + 1 + n) = none := by
      rw [Nat.forall_lt_succ_left]
      simp only [Nat.add_zero, Nat.add_right_comm, Nat.add_assoc]
    rw [List.forall_mem_cons, List.length_cons, statements]
    rcases entry_cons e entries t errors with ⟨passes, statement, same⟩ | ⟨refused, same⟩
    · have executed : (wroteEntry t e).executed = t.executed + 1 := by
        cases e with
        | rule r => rfl
        | other description => exact absurd passes id
      rw [same, ih, executed]
      simp only [passes, statement, true_and]
    · rw [same]
      apply iff_of_false Bool.false_ne_true
      rintro ⟨⟨passes, -⟩, statement, -⟩
      exact refused ⟨passes, statement⟩

def contents (rows : FileAccessRules) (name : String) : Option Data :=
  (rows.get name).map (·.ruleData)

/-- A rule to remove deletes its name, any other puts its details there. -/
def applied (table : String → Option Data) : Entry → String → Option Data
  | .rule r => Function.update table (r.name.getD "")
      (if r.state = SNTFileAccessRuleStateRemove then none else some (r.details.getD []))
  | .other _ => table

theorem contents_wrote (t : Transaction) (e : Entry) :
    contents (wroteEntry t e).db.fileAccessRules = applied (contents t.db.fileAccessRules) e := by
  cases e with
  | other description => rfl
  | rule r =>
    funext name
    simp only [contents, wroteEntry, wroteFileAccessRule, applied, KeyedRows.get_write,
      Function.update_apply, toRule_name, toRule_details, decide_eq_true_eq, toRule_remove]
    by_cases here : name = r.name.getD ""
    · rw [if_pos here, if_pos here]
      split
      · rfl
      · rfl
    · rw [if_neg here, if_neg here]

theorem accepted_contents {entries : List Entry} {t : Transaction} {errors : List SNTError}
    (accepted : (addFileAccessRulesToDB fails entries t errors).1 = true) :
    contents (addFileAccessRulesToDB fails entries t errors).2.1.db.fileAccessRules =
      entries.foldl applied (contents t.db.fileAccessRules) := by
  induction entries generalizing t errors with
  | nil => rfl
  | cons e entries ih =>
    rcases entry_cons e entries t errors with ⟨-, -, same⟩ | ⟨-, same⟩
    · rw [same] at accepted ⊢
      rw [ih accepted, contents_wrote, List.foldl_cons]
    · rw [same] at accepted
      cases accepted

def Complete (rows : FileAccessRules) : Prop := ∀ row ∈ rows.rows, row.ruleData ≠ []

def Entry.Valid : Entry → Prop
  | .rule r => r.name.getD "" ≠ "" ∧ (r.state = SNTFileAccessRuleStateRemove ∨
      r.state = SNTFileAccessRuleStateAdd ∧ r.details.getD [] ≠ [])
  | .other _ => False

theorem complete_iff {rows : FileAccessRules} :
    Complete rows ↔ ∀ name, contents rows name ≠ some [] := by
  constructor
  · intro complete name missing
    obtain ⟨row, found, empty⟩ := Option.map_eq_some_iff.mp missing
    exact complete row (KeyedRows.get_mem found) empty
  · intro present row member empty
    refine present row.name ?_
    rw [contents, KeyedRows.mem_get member]
    simp only [Option.map_some, empty]

theorem complete_applied {table : String → Option Data} {e : Entry} (valid : e.Valid)
    (complete : ∀ name, table name ≠ some []) (name : String) : applied table e name ≠ some [] := by
  cases e with
  | other description => exact absurd valid id
  | rule r =>
    simp only [applied, Function.update_apply]
    split
    · rcases valid.2 with remove | ⟨add, details⟩
      · rw [if_pos remove]
        exact Option.some_ne_none [] ∘ Eq.symm
      · rw [if_neg (by rw [add]; decide)]
        exact fun missing => details (Option.some.inj missing)
    · exact complete name

theorem complete_foldl {entries : List Entry} {table : String → Option Data}
    (valid : ∀ e ∈ entries, e.Valid) (complete : ∀ name, table name ≠ some []) :
    ∀ name, entries.foldl applied table name ≠ some [] := by
  induction entries generalizing table with
  | nil => exact complete
  | cons e entries ih =>
    obtain ⟨here, rest⟩ := List.forall_mem_cons.mp valid
    exact ih rest (complete_applied here complete)

structure Checked (fails : Nat → Option String) (entries : List Entry) (t : Transaction)
    (errors : List SNTError) : Prop where
  valid : ∀ e ∈ entries, e.Valid
  folded : contents (addFileAccessRulesToDB fails entries t errors).2.1.db.fileAccessRules =
    entries.foldl applied (contents t.db.fileAccessRules)
  complete : Complete t.db.fileAccessRules →
    Complete (addFileAccessRulesToDB fails entries t errors).2.1.db.fileAccessRules

theorem valid_of_passes {e : Entry} (passes : e.Passes)
    (declared : ∀ r, e = .rule r → r.Declared) : e.Valid := by
  cases e with
  | other description => exact absurd passes id
  | rule r =>
    obtain ⟨valid, -⟩ := passes
    simp only [ReceivedRule.invalid, Bool.or_eq_false_iff, decide_eq_false_iff_not] at valid
    refine ⟨valid.1, ?_⟩
    rcases declared r rfl with add | remove
    · refine Or.inr ⟨add, fun missing => ?_⟩
      rw [add, missing] at valid
      exact absurd valid.2 (by decide)
    · exact Or.inl remove

/-- An accepted call has checked its entries just where no state was an undeclared one. A call is
    refused for an entry that does not pass and for a statement that fails. -/
theorem checked_iff (fails : Nat → Option String) (entries : List Entry) (t : Transaction)
    (errors : List SNTError) :
    ((addFileAccessRulesToDB fails entries t errors).1 = true → Checked fails entries t errors) ↔
      (∃ e ∈ entries, ¬ e.Passes) ∨ (∃ n < entries.length, fails (t.executed + n) ≠ none) ∨
        ∀ r, .rule r ∈ entries → r.Declared := by
  constructor
  · intro checked
    by_cases accepted : (addFileAccessRulesToDB fails entries t errors).1 = true
    · refine Or.inr (Or.inr fun r member => ?_)
      rcases ((checked accepted).valid _ member).2 with remove | ⟨add, -⟩
      · exact Or.inr remove
      · exact Or.inl add
    · rw [accepted_iff, not_and_or] at accepted
      push Not at accepted
      exact accepted.imp id Or.inl
  · intro condition accepted
    obtain ⟨passes, statements⟩ := accepted_iff.mp accepted
    have declared : ∀ r, .rule r ∈ entries → r.Declared := by
      rcases condition with ⟨e, member, refused⟩ | ⟨n, below, failed⟩ | declared
      · exact absurd (passes e member) refused
      · exact absurd (statements n below) failed
      · exact declared
    have valid : ∀ e ∈ entries, e.Valid := fun e member =>
      valid_of_passes (passes e member) fun r here => declared r (here ▸ member)
    refine ⟨valid, accepted_contents accepted, fun complete => ?_⟩
    rw [complete_iff, accepted_contents accepted]
    exact complete_foldl valid (complete_iff.mp complete)

/-- A rule whose state is neither is added, and one with empty data leaves a row without
    details. -/
theorem undeclared_state_added :
    let t : Transaction := ⟨⟨.empty, .empty⟩, 0⟩
    let third : Entry := .rule ⟨3, some "name", some [1], "third"⟩
    let unknown : Entry := .rule ⟨0, some "name", some [], "unknown"⟩
    ¬ ((addFileAccessRulesToDB (fun _ => none) [third] t []).1 = true →
      Checked (fun _ => none) [third] t []) ∧
    (addFileAccessRulesToDB (fun _ => none) [unknown] t []).1 = true ∧
    ¬ Complete (addFileAccessRulesToDB (fun _ => none) [unknown] t []).2.1.db.fileAccessRules := by
  intro t third unknown
  refine ⟨fun checked => ?_, rfl, fun complete => ?_⟩
  · rcases ((checked rfl).valid third List.mem_cons_self).2 with remove | ⟨add, -⟩
    · exact absurd remove (by decide)
    · exact absurd add (by decide)
  · exact complete ⟨"name", []⟩ (List.mem_singleton.mpr rfl) rfl

end SantaFileAccessRuleChecks
