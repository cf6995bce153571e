import Santa.Library.Runs
import Santa.Rules.HashMemo
import Santa.Rules.NormalForms

/-!
Whether the rows of the rule table can be turned into rules again. A rule that
comes over XPC is what its archive says, with nothing checked; the table refuses
a rule without identifier, state or type, and a rule whose expression does not
compile. A row is read with all the checks of the initializer. The rules that the
daemon adds on its own have been built by the initializer before.
-/
namespace SantaStoredRules
open SantaRule SantaRuleTable SantaRuleAddition SantaRuleDownload SantaHashMemo

/-- What is archived of a rule. Numbers are read as an int. -/
structure RuleArchive where
  identifier : Option String
  state : Option Int
  type : Option Int
  customMsg : Option String
  customURL : Option String
  timestamp : Option Nat
  comment : Option String
  celExpr : Option String
  deriving DecidableEq, Repr

def intValue (number : Option Int) : Int := (number.getD 0 + 2 ^ 31) % 2 ^ 32 - 2 ^ 31

def ruleStateOfRaw (raw : Int) : SNTRuleState :=
  match raw with
  | 0 => .unknown
  | 1 => .allow
  | 2 => .block
  | 3 => .silentBlock
  | 4 => .remove
  | 5 => .allowCompiler
  | 6 => .allowTransitive
  | 7 => .allowLocalBinary
  | 8 => .allowLocalSigningID
  | 9 => .cel
  | 10 => .celv2
  | raw => .undeclared raw

def ruleTypeOfRaw (raw : Int) : SNTRuleType :=
  match raw with
  | 0 => .unknown
  | 500 => .cdHash
  | 1000 => .binary
  | 2000 => .signingID
  | 3000 => .certificate
  | 4000 => .teamID
  | raw => .undeclared raw

def initWithCoder (archive : RuleArchive) : SNTRule :=
  ⟨archive.identifier.getD "", ruleStateOfRaw (intValue archive.state),
    ruleTypeOfRaw (intValue archive.type), archive.customMsg, archive.customURL,
    archive.timestamp.getD 0, archive.comment, archive.celExpr⟩

/-- Every row has to make a rule: adding nil to the array raises an exception. -/
def retrieveAllExecutionRules (rows : ExecutionRules) : Option (List SNTRule) :=
  rows.rows.mapM executionRuleFromResultSet

structure System where
  table : RuleTable
  stored : List SNTRule

inductive Label where
  | receive (archives : List RuleArchive) (fileAccessRules : List SNTFileAccessRule)
      (cleanupType : SNTRuleCleanup) (fails : Nat → Option String)
  | addBuilt (rules : List SNTRule) (fileAccessRules : List SNTFileAccessRule)
      (cleanupType : SNTRuleCleanup) (fails : Nat → Option String)
  | removeOutdated (culling : Culling)
  | resetTimestamp (rule : SNTRule) (now : Nat) (fails : Bool)

section
variable (compile : Bool → String → Option String) (hash : FileAccessRules → String)

def inserted (rules : List SNTRule) : List SNTRule :=
  rules.filter fun r => (celStatus compile r).isNone && decide (r.state ≠ .remove)

def System.add (s : System) (rules : List SNTRule) (fileAccessRules : List SNTFileAccessRule)
    (cleanupType : SNTRuleCleanup) (fails : Nat → Option String) : System :=
  let (result, table) :=
    addExecutionRules compile hash fails s.table rules fileAccessRules cleanupType
  ⟨table, if result.success then s.stored ++ inserted compile rules else s.stored⟩

def step (s : System) : Label → Option System
  | .receive archives fileAccessRules cleanupType fails =>
      some (s.add compile hash (archives.map initWithCoder) fileAccessRules cleanupType fails)
  | .addBuilt rules fileAccessRules cleanupType fails =>
      some (s.add compile hash (rules.filterMap SNTRule.init) fileAccessRules cleanupType fails)
  | .removeOutdated culling =>
      some { s with
        table := RuleTable.withExecutionRules s.table
          (removeOutdatedTransitiveRules culling s.table.db.executionRules) }
  | .resetTimestamp rule now fails =>
      some { s with
        table := RuleTable.withExecutionRules s.table
          (resetTimestampForExecutionRule rule now fails s.table.db.executionRules) }

def ReadsBack (row : SNTRule) : Prop :=
  ∃ r, executionRuleFromResultSet row = some r ∧ r.identifier = row.identifier ∧
    r.state = row.state ∧ r.type = row.type ∧ r.celExpr = row.celExpr

structure Readable (s : System) : Prop where
  stored : ∀ r ∈ s.stored, ReadsBack r
  rows : ∀ row ∈ s.table.db.executionRules.rows, ReadsBack row
  retrieved : (retrieveAllExecutionRules s.table.db.executionRules).isSome = true
  found : ∀ ids row, selectedRow s.table.db.executionRules ids = some row →
    (executionRuleFromResultSet row).isSome = true

def ReceivesNormal (_ : System) : Label → Prop
  | .receive archives fileAccessRules cleanupType fails =>
      Accepted compile fails (archives.map initWithCoder) fileAccessRules cleanupType →
        ∀ r ∈ inserted compile (archives.map initWithCoder), r.Normal
  | _ => True

end

theorem readsBack_iff {row : SNTRule} : ReadsBack row ↔ row.init = some row := by
  constructor
  · rintro ⟨r, built, identifier, _⟩
    obtain ⟨_, _, normal, _, same⟩ := init_some_iff.mp built
    rw [executionRuleFromResultSet, same] at built
    rw [same] at identifier
    rw [show normal = row.identifier from identifier] at built
    exact built
  · exact fun built => ⟨row, built, rfl, rfl, rfl, rfl⟩

theorem retrieve_all {rows : ExecutionRules} (read : ∀ row ∈ rows.rows, ReadsBack row) :
    retrieveAllExecutionRules rows = some rows.rows := by
  unfold retrieveAllExecutionRules
  generalize rows.rows = all at read
  induction all with
  | nil => rfl
  | cons row rest ih =>
    have first := readsBack_iff.mp (read row List.mem_cons_self)
    rw [List.mapM_cons, executionRuleFromResultSet, first,
      ih fun r member => read r (List.mem_cons_of_mem row member)]
    rfl

theorem readable_iff {s : System} : Readable s ↔
    (∀ r ∈ s.stored, ReadsBack r) ∧ ∀ row ∈ s.table.db.executionRules.rows, ReadsBack row := by
  constructor
  · exact fun readable => ⟨readable.stored, readable.rows⟩
  · rintro ⟨stored, rows⟩
    refine ⟨stored, rows, ?_, ?_⟩
    · rw [retrieve_all rows]
      rfl
    · intro ids row selected
      obtain ⟨slot, _, here⟩ := List.exists_of_findSome?_eq_some selected
      obtain ⟨_, _, got⟩ := Option.bind_eq_some_iff.mp here
      have built := readsBack_iff.mp (rows row (KeyedRows.get_mem got))
      rw [executionRuleFromResultSet, built]
      rfl

theorem mem_select {p : SNTRule → Bool} {rows : ExecutionRules} {row : SNTRule}
    (member : row ∈ (rows.select p).rows) : row ∈ rows.rows := (List.mem_filter.mp member).1

theorem mem_writeAll {ws : List (Bool × SNTRule)} {rows : ExecutionRules} {row : SNTRule}
    (member : row ∈ (rows.writeAll ws).rows) : row ∈ rows.rows ∨ (false, row) ∈ ws := by
  induction ws generalizing rows with
  | nil => exact Or.inl member
  | cons w ws ih =>
    rcases ih member with before | later
    · unfold KeyedRows.write at before
      split at before
      · exact Or.inl (KeyedRows.mem_remove before)
      · rename_i inserts
        have keeps : w.1 = false := by simpa using inserts
        rcases KeyedRows.mem_put before with new | old
        · rw [new, ← keeps]
          exact Or.inr List.mem_cons_self
        · exact Or.inl old
    · exact Or.inr (List.mem_cons_of_mem w later)

section
variable {compile : Bool → String → Option String} {hash : FileAccessRules → String}

theorem mem_inserted {rules : List SNTRule} {row : SNTRule}
    (member : (false, row) ∈ executionWrites compile rules) : row ∈ inserted compile rules := by
  obtain ⟨r, given, same⟩ := List.mem_map.mp member
  rw [Prod.mk.injEq] at same
  obtain ⟨batch, compiles⟩ := List.mem_filter.mp given
  rw [← same.2]
  exact List.mem_filter.mpr ⟨batch, by simpa [compiles] using same.1⟩

theorem add_cases (s : System) (rules : List SNTRule) (fileAccessRules : List SNTFileAccessRule)
    (cleanupType : SNTRuleCleanup) (fails : Nat → Option String) :
    let t := s.add compile hash rules fileAccessRules cleanupType fails
    (¬ Accepted compile fails rules fileAccessRules cleanupType ∧ t.stored = s.stored ∧
      t.table.db = s.table.db) ∨
    (Accepted compile fails rules fileAccessRules cleanupType ∧
      t.stored = s.stored ++ inserted compile rules ∧
      ∀ row ∈ t.table.db.executionRules.rows,
        row ∈ s.table.db.executionRules.rows ∨ row ∈ inserted compile rules) := by
  intro t
  rcases @addExecutionRules_cases compile fails hash s.table rules fileAccessRules cleanupType with
    ⟨refused, outcome⟩ | ⟨accepted, outcome⟩
  · refine Or.inl ⟨refused, ?_, outcome.db⟩
    simp only [t, System.add, outcome.success]
    rfl
  · refine Or.inr ⟨accepted, ?_, ?_⟩
    · simp only [t, System.add, outcome.success]
      rfl
    · intro row member
      have there := KeyedRows.Same.mem outcome.db.1 member
      rcases mem_writeAll there with old | new
      · exact Or.inl (mem_select old)
      · exact Or.inr (mem_inserted new)

theorem inserted_present {rules : List SNTRule} {fileAccessRules : List SNTFileAccessRule}
    {cleanupType : SNTRuleCleanup} {fails : Nat → Option String}
    (accepted : Accepted compile fails rules fileAccessRules cleanupType) {r : SNTRule}
    (member : r ∈ inserted compile rules) : r.identifier ≠ "" := by
  have valid := accepted.execution r (List.mem_filter.mp member).1
  intro empty
  simp [invalidEntry, empty] at valid

theorem readable_add {s : System} {rules : List SNTRule} {fileAccessRules : List SNTFileAccessRule}
    {cleanupType : SNTRuleCleanup} {fails : Nat → Option String} (readable : Readable s)
    (normal : Accepted compile fails rules fileAccessRules cleanupType →
      ∀ r ∈ inserted compile rules, r.Normal) :
    Readable (s.add compile hash rules fileAccessRules cleanupType fails) := by
  rw [readable_iff] at readable ⊢
  rcases @add_cases compile hash s rules fileAccessRules cleanupType fails with
    ⟨_, stored, db⟩ | ⟨accepted, stored, rows⟩
  · rw [stored, db]
    exact readable
  · have reads : ∀ r ∈ inserted compile rules, ReadsBack r := by
      intro r member
      rw [readsBack_iff, init_self_iff]
      exact ⟨inserted_present accepted member, normal accepted r member⟩
    refine ⟨?_, ?_⟩
    · intro r member
      rw [stored] at member
      rcases List.mem_append.mp member with old | new
      · exact readable.1 r old
      · exact reads r new
    · intro row member
      rcases rows row member with old | new
      · exact readable.2 row old
      · exact reads row new

theorem readsBack_timestamp {row : SNTRule} (reads : ReadsBack row) (now : Nat) :
    ReadsBack { row with timestamp := now } := by
  rw [readsBack_iff, init_self_iff] at reads ⊢
  exact ⟨reads.1, reads.2.identifier, reads.2.celExpr⟩

theorem step_keeps (s : System) (l : Label) (t : System) (readable : Readable s)
    (normal : ReceivesNormal compile s l) (h : step compile hash s l = some t) : Readable t := by
  cases l with
  | receive archives fileAccessRules cleanupType fails =>
    rw [← Option.some.inj h]
    exact readable_add readable normal
  | addBuilt rules fileAccessRules cleanupType fails =>
    rw [← Option.some.inj h]
    refine readable_add readable ?_
    intro _ r member
    obtain ⟨given, _, built⟩ := List.mem_filterMap.mp (List.mem_filter.mp member).1
    exact (init_self_iff.mp (init_built built)).2
  | removeOutdated culling =>
    rw [← Option.some.inj h]
    rw [readable_iff] at readable ⊢
    refine ⟨readable.1, ?_⟩
    intro row member
    simp only [RuleTable.withExecutionRules, removeOutdatedTransitiveRules] at member
    split at member
    · exact readable.2 row (mem_select member)
    · exact readable.2 row member
  | resetTimestamp rule now fails =>
    rw [← Option.some.inj h]
    rw [readable_iff] at readable ⊢
    refine ⟨readable.1, ?_⟩
    intro row member
    simp only [RuleTable.withExecutionRules, resetTimestampForExecutionRule] at member
    split at member
    · exact readable.2 row member
    · obtain ⟨old, there, same⟩ := List.mem_map.mp member
      rw [← same]
      split
      · exact readsBack_timestamp (readable.2 old there) now
      · exact readable.2 old there

theorem step_breaks (s : System) (l : Label) (t : System)
    (broken : ¬ ReceivesNormal compile s l) (h : step compile hash s l = some t) :
    ¬ Readable t := by
  intro readable
  cases l with
  | receive archives fileAccessRules cleanupType fails =>
    refine broken ?_
    intro accepted r member
    rw [← Option.some.inj h] at readable
    rcases @add_cases compile hash s (archives.map initWithCoder) fileAccessRules cleanupType fails
      with ⟨refused, _⟩ | ⟨_, stored, _⟩
    · exact absurd accepted refused
    · have reads := readable.stored r (by
        rw [stored]
        exact List.mem_append_right _ member)
      exact (init_self_iff.mp (readsBack_iff.mp reads)).2
  | _ => exact broken trivial

end

def emptyTable : RuleTable := ⟨⟨.empty, .empty⟩, "", ""⟩

end SantaStoredRules
