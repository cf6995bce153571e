import Mathlib.Data.Nat.Init
import Santa.Library.UniqueKey
import Santa.Rules.Rule
import Santa.Common.Configurator

/-!
Upgrades of the rule database. Each version brings its statements, and what a
statement returns is not looked at. A statement that fails changes nothing; here
it fails when its table or column is missing or already there, or when it would
break the unique index of its table.
-/
namespace SantaMigration
open SantaRule SantaConfigurator UniqueKey

/-- The columns that a version does not have are empty. -/
structure Row where
  identifier : String
  state : Int
  type : Int
  customMsg : Option String
  timestamp : Option Int
  customURL : Option String
  comment : Option String
  celExpr : Option String
  deriving DecidableEq, Repr

def Row.key (r : Row) : String × Int := (r.identifier, r.type)

structure Table where
  columns : List String
  uniqueIndex : Option String
  rows : List Row
  deriving DecidableEq, Repr

structure Database where
  views : List String
  rules : Option Table
  executionRules : Option Table
  fileAccessRules : Option (List (String × String))
  deriving DecidableEq, Repr

abbrev Statement := Database → Option Database

def createRules (columns : List String) : Statement := fun db =>
  if db.rules.isSome then none else some { db with rules := some ⟨columns, none, []⟩ }

def dropView (view : String) : Statement := fun db =>
  some { db with views := db.views.filter (· ≠ view) }

def onRules (change : Table → Option Table) : Statement := fun db =>
  (db.rules.bind change).map fun table => { db with rules := some table }

def onExecutionRules (change : Table → Option Table) : Statement := fun db =>
  (db.executionRules.bind change).map fun table => { db with executionRules := some table }

def createUniqueIndex (index : String) (columns : List String) (table : Table) : Option Table :=
  if table.uniqueIndex = none ∧ columns ⊆ table.columns ∧ Unique Row.key table.rows then
    some { table with uniqueIndex := some index }
  else none

def dropIndex (index : String) (table : Table) : Option Table :=
  if table.uniqueIndex = some index then some { table with uniqueIndex := none } else none

def addColumn (column : String) (setNull : Row → Row) (table : Table) : Option Table :=
  if column ∈ table.columns then none
  else some { table with columns := table.columns ++ [column], rows := table.rows.map setNull }

def renameColumn (column name : String) (table : Table) : Option Table :=
  if column ∈ table.columns ∧ name ∉ table.columns then
    some { table with columns := table.columns.map fun c => if c = column then name else c }
  else none

def update (columns : List String) (set : Row → Row) (table : Table) : Option Table :=
  if columns ⊆ table.columns ∧
      (table.uniqueIndex.isSome → Unique Row.key (table.rows.map set)) then
    some { table with rows := table.rows.map set }
  else none

def renameRules : Statement := fun db =>
  if db.executionRules.isSome then none
  else db.rules.map fun table => { db with rules := none, executionRules := some table }

def createFileAccessRules : Statement := fun db =>
  if db.fileAccessRules.isSome then none else some { db with fileAccessRules := some [] }

/-! ### The statements of a version -/

def setType (old new : Int) (r : Row) : Row := if r.type = old then { r with type := new } else r

def lowerHashes (r : Row) : Row :=
  if r.type = SNTRuleType.binary.raw ∨ r.type = SNTRuleType.certificate.raw then
    { r with identifier := lowercase r.identifier.toList }
  else r

def upperTeamIDs (r : Row) : Row :=
  if r.type = SNTRuleType.teamID.raw then
    { r with identifier := uppercase r.identifier.toList }
  else r

def statements : Nat → List Statement
  | 1 => [createRules ["shasum", "state", "type", "custommsg"],
      onRules (createUniqueIndex "rulesunique" ["shasum", "type"])]
  | 2 => [dropView "binrules", dropView "certrules"]
  | 3 => [onRules (addColumn "timestamp" fun r => { r with timestamp := none })]
  | 4 => [onRules (renameColumn "shasum" "identifier")]
  | 5 => [onRules (update ["type"] (setType 1 1000)), onRules (update ["type"] (setType 2 3000)),
      onRules (update ["type"] (setType 3 4000)), onRules (update ["type"] (setType 4 2000))]
  | 6 => [onRules (update ["identifier", "type"] lowerHashes),
      onRules (update ["identifier", "type"] upperTeamIDs)]
  | 7 => [onRules (addColumn "customurl" fun r => { r with customURL := none })]
  | 8 => [onRules (addColumn "comment" fun r => { r with comment := none })]
  | 9 => [onRules (addColumn "cel_expr" fun r => { r with celExpr := none })]
  | 10 => [onRules (dropIndex "rulesunique"), renameRules,
      onExecutionRules (createUniqueIndex "execution_rules_unique" ["identifier", "type"]),
      createFileAccessRules]
  | _ => []

def executeUpdate (db : Database) (statement : Statement) : Database := (statement db).getD db

def execute (version : Nat) (db : Database) : Database :=
  (statements version).foldl executeUpdate db

structure Upgrade where
  db : Database
  newVersion : Nat
  syncTypeRequired : Option SNTSyncType

def upgrade (u : Upgrade) (version : Nat) : Upgrade :=
  ⟨execute version u.db, version, if version = 1 then some .cleanAll else u.syncTypeRequired⟩

def initializeDatabase (db : Database) (version : Nat) : Upgrade :=
  (List.range' 1 10).foldl (fun u new => if version < new then upgrade u new else u) ⟨db, 0, none⟩

/-! ### What an upgrade is to keep -/

def columnsOf (version : Nat) : List String :=
  [if version < 4 then "shasum" else "identifier", "state", "type", "custommsg"] ++
    (if version < 3 then [] else ["timestamp"]) ++ (if version < 7 then [] else ["customurl"]) ++
    (if version < 8 then [] else ["comment"]) ++ if version < 9 then [] else ["cel_expr"]

def newTypes : List Int := [1000, 2000, 3000, 4000]

structure HasRules (version : Nat) (rows : List Row) (db : Database) : Prop where
  rules : db.rules = some ⟨columnsOf version, some "rulesunique", rows⟩
  executionRules : db.executionRules = none

structure Old (version : Nat) (rows : List Row) : Prop where
  unique : Unique Row.key rows
  types : version < 5 → ∀ r ∈ rows, r.type ∉ newTypes

/-- A database of a version below 10 with the rows of its rules. Before version 1 there is no
    table. -/
def Holds (version : Nat) (rows : List Row) (db : Database) : Prop :=
  if version = 0 then rows = [] ∧ db.rules = none ∧ db.executionRules = none
  else version < 10 ∧ HasRules version rows db ∧ Old version rows

def mappedType (version : Nat) (type : Int) : Int :=
  if version < 5 then
    if type = 1 then 1000 else if type = 2 then 3000 else if type = 3 then 4000
    else if type = 4 then 2000 else type
  else type

def normalCase (type : Int) (identifier : String) : String :=
  if type = SNTRuleType.binary.raw ∨ type = SNTRuleType.certificate.raw then
    lowercase identifier.toList
  else if type = SNTRuleType.teamID.raw then uppercase identifier.toList
  else identifier

structure Kept (version : Nat) (r r' : Row) : Prop where
  type : r'.type = mappedType version r.type
  state : r'.state = r.state
  customMsg : r'.customMsg = r.customMsg
  identifier : r'.identifier = normalCase r'.type r.identifier

/-- Every old rule is there in its new form, and all identifiers are of the right case. -/
structure Migrated (version : Nat) (old new : List Row) : Prop where
  kept : ∀ r ∈ old, ∃ r' ∈ new, Kept version r r'
  normal : ∀ r' ∈ new, normalCase r'.type r'.identifier = r'.identifier
  unique : Unique Row.key new

/-- Before version 6, no two rules of a type differ in the case of their identifiers only. From
    version 6 on, all identifiers are of the right case already. -/
def Normalizable (version : Nat) (rows : List Row) : Prop :=
  if version < 6 then
    ∀ r ∈ rows, ∀ r' ∈ rows, r.type = r'.type →
      normalCase (mappedType version r.type) r.identifier =
        normalCase (mappedType version r.type) r'.identifier → r.identifier = r'.identifier
  else ∀ r ∈ rows, normalCase r.type r.identifier = r.identifier

/-! ### Case -/

theorem lower_lower (s : String) :
    lowercase (lowercase s.toList).toList = lowercase s.toList := by
  have once (c : Char) : c.toLower.toLower = c.toLower := by
    unfold Char.toLower
    split
    · rename_i upper
      split
      · rename_i again
        exfalso
        simp only [UInt32.le_iff_toNat_le, ge_iff_le] at upper again
        simp at upper again
        omega
      · rfl
    · rfl
  simp only [lowercase, String.toList_ofList, List.map_map]
  congr 1
  exact List.map_congr_left fun c _ => once c

theorem upper_upper (s : String) :
    uppercase (uppercase s.toList).toList = uppercase s.toList := by
  have once (c : Char) : c.toUpper.toUpper = c.toUpper := by
    unfold Char.toUpper
    split
    · rename_i lower
      split
      · rename_i again
        exfalso
        simp only [UInt32.le_iff_toNat_le] at lower again
        simp at lower again
        omega
      · rfl
    · rfl
  simp only [uppercase, String.toList_ofList, List.map_map]
  congr 1
  exact List.map_congr_left fun c _ => once c

@[simp] theorem normalCase_normalCase (type : Int) (identifier : String) :
    normalCase type (normalCase type identifier) = normalCase type identifier := by
  unfold normalCase
  split
  · exact lower_lower identifier
  · split
    · exact upper_upper identifier
    · rfl

/-! ### The rows that each version leaves -/

def retype (rows : List Row) : List Row :=
  rewrite Row.key (setType 4 2000) (rewrite Row.key (setType 3 4000)
    (rewrite Row.key (setType 2 3000) (rewrite Row.key (setType 1 1000) rows)))

def foldCase (rows : List Row) : List Row :=
  rewrite Row.key upperTeamIDs (rewrite Row.key lowerHashes rows)

def rowsAt : Nat → List Row → List Row
  | 3, rows => rows.map fun r => { r with timestamp := none }
  | 5, rows => retype rows
  | 6, rows => foldCase rows
  | 7, rows => rows.map fun r => { r with customURL := none }
  | 8, rows => rows.map fun r => { r with comment := none }
  | 9, rows => rows.map fun r => { r with celExpr := none }
  | _, rows => rows

theorem update_hasRules {version : Nat} {rows : List Row} {db : Database}
    (h : HasRules version rows db) {columns : List String} (there : columns ⊆ columnsOf version)
    (set : Row → Row) : HasRules version (rewrite Row.key set rows)
      (executeUpdate db (onRules (update columns set))) := by
  by_cases unique : Unique Row.key (rows.map set)
  · have written : update columns set ⟨columnsOf version, some "rulesunique", rows⟩ =
        some ⟨columnsOf version, some "rulesunique", rows.map set⟩ :=
      if_pos ⟨there, fun _ => unique⟩
    rw [rewrite, if_pos unique, executeUpdate, onRules, h.rules, Option.bind_some, written]
    exact ⟨rfl, h.executionRules⟩
  · have failed : update columns set ⟨columnsOf version, some "rulesunique", rows⟩ = none :=
      if_neg fun both => unique (both.2 rfl)
    rw [rewrite, if_neg unique, executeUpdate, onRules, h.rules, Option.bind_some, failed]
    exact h

theorem addColumn_hasRules {version : Nat} {rows : List Row} {db : Database}
    (h : HasRules version rows db) {column : String} (fresh : column ∉ columnsOf version)
    (grown : columnsOf (version + 1) = columnsOf version ++ [column]) (setNull : Row → Row) :
    HasRules (version + 1) (rows.map setNull)
      (executeUpdate db (onRules (addColumn column setNull))) := by
  unfold executeUpdate onRules addColumn
  rw [h.rules, Option.bind_some, if_neg fresh]
  exact ⟨by rw [grown]; rfl, h.executionRules⟩

theorem renameColumn_hasRules {rows : List Row} {db : Database} (h : HasRules 3 rows db) :
    HasRules 4 rows (executeUpdate db (onRules (renameColumn "shasum" "identifier"))) := by
  have there : "shasum" ∈ columnsOf 3 ∧ "identifier" ∉ columnsOf 3 := by decide
  unfold executeUpdate onRules renameColumn
  rw [h.rules, Option.bind_some, if_pos there]
  exact ⟨rfl, h.executionRules⟩

theorem dropViews_hasRules {rows : List Row} {db : Database} (h : HasRules 1 rows db) :
    HasRules 2 rows (execute 2 db) := ⟨h.rules, h.executionRules⟩

theorem createRules_hasRules {db : Database} (absent : db.rules = none)
    (absent' : db.executionRules = none) : HasRules 1 [] (execute 1 db) := by
  simp only [execute, statements, List.foldl_cons, List.foldl_nil, executeUpdate, createRules,
    absent, Option.isSome_none, Bool.false_eq_true, if_false, Option.getD_some, onRules,
    Option.bind_some]
  exact ⟨rfl, absent'⟩

theorem execute_hasRules {version : Nat} (first : 1 ≤ version) (before : version < 9)
    {rows : List Row} {db : Database} (h : HasRules version rows db) :
    HasRules (version + 1) (rowsAt (version + 1) rows) (execute (version + 1) db) := by
  match version, first, before with
  | 1, _, _ => exact dropViews_hasRules h
  | 2, _, _ => exact addColumn_hasRules h (by decide) rfl _
  | 3, _, _ => exact renameColumn_hasRules h
  | 4, _, _ =>
    have h : HasRules 5 rows db := ⟨h.rules, h.executionRules⟩
    have there : ["type"] ⊆ columnsOf 5 := by decide
    have binaries := update_hasRules h there (setType 1 1000)
    have certificates := update_hasRules binaries there (setType 2 3000)
    have signingIDs := update_hasRules certificates there (setType 3 4000)
    exact update_hasRules signingIDs there (setType 4 2000)
  | 5, _, _ =>
    have h : HasRules 6 rows db := ⟨h.rules, h.executionRules⟩
    have there : ["identifier", "type"] ⊆ columnsOf 6 := by decide
    have hashes := update_hasRules h there lowerHashes
    exact update_hasRules hashes there upperTeamIDs
  | 6, _, _ => exact addColumn_hasRules h (by decide) rfl _
  | 7, _, _ => exact addColumn_hasRules h (by decide) rfl _
  | 8, _, _ => exact addColumn_hasRules h (by decide) rfl _

theorem execute_last {rows : List Row} {db : Database} (h : HasRules 9 rows db)
    (unique : Unique Row.key rows) : (execute 10 db).executionRules =
      some ⟨columnsOf 9, some "execution_rules_unique", rows⟩ := by
  have there : ["identifier", "type"] ⊆ columnsOf 9 := by decide
  simp only [execute, statements, List.foldl_cons, List.foldl_nil, executeUpdate, onRules,
    h.rules, Option.bind_some, dropIndex, if_true, Option.map_some, Option.getD_some, renameRules,
    h.executionRules, Option.isSome_none, Bool.false_eq_true, if_false, onExecutionRules,
    createUniqueIndex, there, unique, and_self, createFileAccessRules]
  split <;> rfl

theorem unique_map {rows : List Row} {f : Row → Row} (same : ∀ r, (f r).key = r.key)
    (unique : Unique Row.key rows) : Unique Row.key (rows.map f) := by
  rw [unique_map_iff unique]
  rintro ⟨v, -, w, -, equal, differ⟩
  rw [same, same] at equal
  exact differ equal

theorem rowsAt_unique (version : Nat) {rows : List Row} (unique : Unique Row.key rows) :
    Unique Row.key (rowsAt version rows) := by
  unfold rowsAt
  split
  · exact unique_map (fun _ => rfl) unique
  · exact rewrite_unique (rewrite_unique (rewrite_unique (rewrite_unique unique)))
  · exact rewrite_unique (rewrite_unique unique)
  · exact unique_map (fun _ => rfl) unique
  · exact unique_map (fun _ => rfl) unique
  · exact unique_map (fun _ => rfl) unique
  · exact unique

/-! ### All versions in turn -/

def upgradesTo (db : Database) (version last : Nat) : Upgrade :=
  (List.range' 1 last).foldl (fun u new => if version < new then upgrade u new else u) ⟨db, 0, none⟩

def rowsTo (rows : List Row) (version last : Nat) : List Row :=
  (List.range' 1 last).foldl (fun rows new => if version < new then rowsAt new rows else rows) rows

theorem upgradesTo_succ (db : Database) (version last : Nat) :
    upgradesTo db version (last + 1) =
      if version < last + 1 then upgrade (upgradesTo db version last) (last + 1)
      else upgradesTo db version last := by
  rw [upgradesTo, List.range'_1_concat, List.foldl_append, Nat.add_comm 1 last]
  rfl

theorem rowsTo_succ (rows : List Row) (version last : Nat) :
    rowsTo rows version (last + 1) =
      if version < last + 1 then rowsAt (last + 1) (rowsTo rows version last)
      else rowsTo rows version last := by
  rw [rowsTo, List.range'_1_concat, List.foldl_append, Nat.add_comm 1 last]
  rfl

theorem rowsTo_unique {rows : List Row} (unique : Unique Row.key rows) (version last : Nat) :
    Unique Row.key (rowsTo rows version last) := by
  induction last with
  | zero => exact unique
  | succ last ih =>
    rw [rowsTo_succ]
    split
    · exact rowsAt_unique (last + 1) ih
    · exact ih

theorem rowsTo_of_le {rows : List Row} {version last : Nat} (le : last ≤ version) :
    rowsTo rows version last = rows := by
  induction last with
  | zero => rfl
  | succ last ih => rw [rowsTo_succ, if_neg (by omega), ih (by omega)]

theorem upgradesTo_hasRules {version : Nat} {rows : List Row} {db : Database}
    (holds : Holds version rows db) {last : Nat} (first : 1 ≤ last) (before : last ≤ 9) :
    HasRules (max version last) (rowsTo rows version last) (upgradesTo db version last).db := by
  induction last, first using Nat.le_induction with
  | base =>
    unfold Holds at holds
    split at holds
    · rename_i none
      obtain ⟨empty, absent, absent'⟩ := holds
      subst none empty
      exact createRules_hasRules absent absent'
    · rename_i some
      rw [upgradesTo_succ, if_neg (by omega), rowsTo_succ, if_neg (by omega),
        Nat.max_eq_left (by omega)]
      exact holds.2.1
  | succ last first ih =>
    have h := ih (by omega)
    rw [upgradesTo_succ, rowsTo_succ]
    by_cases later : version < last + 1
    · rw [if_pos later, if_pos later, Nat.max_eq_right (by omega)]
      rw [Nat.max_eq_right (by omega)] at h
      exact execute_hasRules first (by omega) h
    · rw [if_neg later, if_neg later, Nat.max_eq_left (by omega)]
      rwa [Nat.max_eq_left (by omega)] at h

theorem holds_unique {version : Nat} {rows : List Row} {db : Database}
    (holds : Holds version rows db) : version < 10 ∧ Old version rows := by
  unfold Holds at holds
  split at holds
  · rename_i none
    rw [holds.1, none]
    exact ⟨by decide, List.nodup_nil, fun _ r member => absurd member List.not_mem_nil⟩
  · exact ⟨holds.1, holds.2.2⟩

theorem initializeDatabase_rows {version : Nat} {rows : List Row} {db : Database}
    (holds : Holds version rows db) :
    (initializeDatabase db version).db.executionRules =
      some ⟨columnsOf 9, some "execution_rules_unique", rowsTo rows version 9⟩ := by
  obtain ⟨below, old⟩ := holds_unique holds
  have h := upgradesTo_hasRules holds (by decide : 1 ≤ 9) (by decide)
  rw [Nat.max_eq_right (by omega)] at h
  change (upgradesTo db version (9 + 1)).db.executionRules = _
  rw [upgradesTo_succ, if_pos below]
  exact execute_last h (rowsTo_unique old.unique version 9)

/-! ### New types -/

theorem setType_apart (old : Int) {rows : List Row} {new : Int}
    (unused : ∀ r ∈ rows, r.type ≠ new) : ¬ Clash Row.key (setType old new) rows := by
  rintro ⟨v, hv, w, hw, same, differ⟩
  have v_unused := unused v hv
  have w_unused := unused w hw
  unfold setType at same
  split at same <;> split at same
  · rename_i hv' hw'
    have identifiers : v.identifier = w.identifier := congrArg Prod.fst same
    exact differ (congrArg₂ Prod.mk identifiers (hv'.trans hw'.symm))
  · exact w_unused (congrArg Prod.snd same).symm
  · exact v_unused (congrArg Prod.snd same)
  · exact differ same

def mapType (r : Row) : Row := { r with type := mappedType 0 r.type }

theorem setTypes (r : Row) :
    setType 4 2000 (setType 3 4000 (setType 2 3000 (setType 1 1000 r))) = mapType r := by
  unfold mapType mappedType
  by_cases one : r.type = 1
  · simp [setType, one]
  by_cases two : r.type = 2
  · simp [setType, two]
  by_cases three : r.type = 3
  · simp [setType, three]
  by_cases four : r.type = 4
  · simp [setType, four]
  simp [setType, one, two, three, four]

theorem unused_setType (old new' : Int) {rows : List Row} {new : Int}
    (unused : ∀ r ∈ rows, r.type ≠ new) (other : new' ≠ new) :
    ∀ r ∈ rows.map (setType old new'), r.type ≠ new := by
  intro r member
  obtain ⟨r', member', same⟩ := List.mem_map.mp member
  rw [← same, setType]
  split
  · exact other
  · exact unused r' member'

theorem retype_eq_map {rows : List Row} (unique : Unique Row.key rows)
    (unused : ∀ r ∈ rows, r.type ∉ newTypes) : retype rows = rows.map mapType := by
  have free (new : Int) (isNew : new ∈ newTypes) : ∀ r ∈ rows, r.type ≠ new := by
    rintro r member rfl
    exact unused r member isNew
  have one := setType_apart 1 (free 1000 (by decide))
  have two := setType_apart 2 (unused_setType 1 1000 (free 3000 (by decide)) (by decide))
  have three := setType_apart 3 (unused_setType 2 3000
    (unused_setType 1 1000 (free 4000 (by decide)) (by decide)) (by decide))
  have four := setType_apart 4 (unused_setType 3 4000 (unused_setType 2 3000
    (unused_setType 1 1000 (free 2000 (by decide)) (by decide)) (by decide)) (by decide))
  have unique₁ := (unique_map_iff unique).mpr one
  have unique₂ := (unique_map_iff unique₁).mpr two
  have unique₃ := (unique_map_iff unique₂).mpr three
  rw [retype, rewrite_eq_map unique one, rewrite_eq_map unique₁ two, rewrite_eq_map unique₂ three,
    rewrite_eq_map unique₃ four, List.map_map, List.map_map, List.map_map]
  exact List.map_congr_left fun r _ => setTypes r

def formerType (type : Int) : Int :=
  if type = 1000 then 1 else if type = 3000 then 2 else if type = 4000 then 3
  else if type = 2000 then 4 else type

theorem formerType_mappedType {version : Nat} (old : version < 5) {type : Int}
    (unused : type ∉ newTypes) : formerType (mappedType version type) = type := by
  simp only [newTypes, List.mem_cons, List.not_mem_nil, or_false, not_or] at unused
  obtain ⟨binary, certificate, signingID, teamID⟩ := unused
  rw [mappedType, if_pos old]
  by_cases one : type = 1
  · rw [if_pos one, one]
    rfl
  by_cases two : type = 2
  · rw [if_neg one, if_pos two, two]
    rfl
  by_cases three : type = 3
  · rw [if_neg one, if_neg two, if_pos three, three]
    rfl
  by_cases four : type = 4
  · rw [if_neg one, if_neg two, if_neg three, if_pos four, four]
    rfl
  · rw [if_neg one, if_neg two, if_neg three, if_neg four, formerType, if_neg binary,
      if_neg signingID, if_neg teamID, if_neg certificate]

theorem mappedType_inj {version : Nat} {type type' : Int}
    (unused : version < 5 → type ∉ newTypes) (unused' : version < 5 → type' ∉ newTypes)
    (same : mappedType version type = mappedType version type') : type = type' := by
  by_cases old : version < 5
  · rw [← formerType_mappedType old (unused old), same, formerType_mappedType old (unused' old)]
  · rwa [mappedType, mappedType, if_neg old, if_neg old] at same

/-! ### The case of identifiers -/

def normalRow (r : Row) : Row := { r with identifier := normalCase r.type r.identifier }

def isHash (type : Int) : Bool :=
  type = SNTRuleType.binary.raw ∨ type = SNTRuleType.certificate.raw

def isTeamID (type : Int) : Bool := type = SNTRuleType.teamID.raw

def normalizeOnly (types : Int → Bool) (r : Row) : Row := if types r.type then normalRow r else r

theorem lowerHashes_eq : lowerHashes = normalizeOnly isHash := by
  funext r
  simp only [lowerHashes, normalizeOnly, isHash, decide_eq_true_eq]
  split
  · rename_i hash
    rw [normalRow, normalCase, if_pos hash]
  · rfl

theorem upperTeamIDs_eq : upperTeamIDs = normalizeOnly isTeamID := by
  funext r
  simp only [upperTeamIDs, normalizeOnly, isTeamID, decide_eq_true_eq]
  split
  · rename_i team
    rw [normalRow, normalCase, if_neg (by rw [team]; decide), if_pos team]
  · rfl

theorem normalCase_other {type : Int} (hash : isHash type = false) (team : isTeamID type = false)
    (identifier : String) : normalCase type identifier = identifier := by
  rw [normalCase, if_neg (of_decide_eq_false hash), if_neg (of_decide_eq_false team)]

@[simp] theorem normalizeOnly_type (types : Int → Bool) (r : Row) :
    (normalizeOnly types r).type = r.type := by
  unfold normalizeOnly
  split <;> rfl

@[simp] theorem normalRow_normalizeOnly (types : Int → Bool) (r : Row) :
    normalRow (normalizeOnly types r) = normalRow r := by
  unfold normalizeOnly
  split
  · simp [normalRow]
  · rfl

structure CaseTwins (r r' : Row) : Prop where
  type : r.type = r'.type
  normal : (normalRow r).identifier = (normalRow r').identifier
  differ : r.identifier ≠ r'.identifier

theorem normalizeOnly_clash_iff {types : Int → Bool} {rows : List Row} :
    Clash Row.key (normalizeOnly types) rows ↔
      ∃ r ∈ rows, ∃ r' ∈ rows, CaseTwins r r' ∧ types r.type = true := by
  constructor
  · rintro ⟨v, hv, w, hw, same, differ⟩
    have type : v.type = w.type := by
      rw [← normalizeOnly_type types v, ← normalizeOnly_type types w]
      exact congrArg Prod.snd same
    have identifiers := congrArg Prod.fst same
    simp only [Row.key, normalizeOnly, ← type] at identifiers
    split at identifiers
    · rename_i touched
      refine ⟨v, hv, w, hw, ⟨type, identifiers, ?_⟩, touched⟩
      intro equal
      exact differ (congrArg₂ Prod.mk equal type)
    · exact absurd (congrArg₂ Prod.mk identifiers type) differ
  · rintro ⟨r, member, r', member', twins, touched⟩
    refine ⟨r, member, r', member', ?_, fun same => twins.differ (congrArg Prod.fst same)⟩
    rw [normalizeOnly, if_pos touched, normalizeOnly, if_pos (by rw [← twins.type]; exact touched)]
    exact congrArg₂ Prod.mk twins.normal twins.type

theorem foldCase_eq_map {rows : List Row} (unique : Unique Row.key rows)
    (none : ∀ r ∈ rows, ∀ r' ∈ rows, ¬ CaseTwins r r') :
    foldCase rows = rows.map normalRow := by
  have apart : ¬ Clash Row.key lowerHashes rows := by
    rw [lowerHashes_eq, normalizeOnly_clash_iff]
    rintro ⟨r, member, r', member', twins, -⟩
    exact none r member r' member' twins
  have apart' : ¬ Clash Row.key upperTeamIDs (rows.map lowerHashes) := by
    rw [lowerHashes_eq, upperTeamIDs_eq, normalizeOnly_clash_iff]
    rintro ⟨s, member, s', member', twins, -⟩
    obtain ⟨r, here, rfl⟩ := List.mem_map.mp member
    obtain ⟨r', here', rfl⟩ := List.mem_map.mp member'
    have type := twins.type
    have normal := twins.normal
    rw [normalizeOnly_type, normalizeOnly_type] at type
    rw [normalRow_normalizeOnly, normalRow_normalizeOnly] at normal
    refine none r here r' here' ⟨type, normal, ?_⟩
    intro equal
    have same : (normalizeOnly isHash r).identifier = (normalizeOnly isHash r').identifier := by
      unfold normalizeOnly
      rw [← type]
      split
      · exact normal
      · exact equal
    exact twins.differ same
  have unique' := (unique_map_iff unique).mpr apart
  rw [foldCase, rewrite_eq_map unique apart, rewrite_eq_map unique' apart', List.map_map,
    lowerHashes_eq, upperTeamIDs_eq]
  apply List.map_congr_left
  intro r _
  rw [Function.comp_apply]
  cases team : isTeamID r.type with
  | true =>
    rw [normalizeOnly, normalizeOnly_type, if_pos team, normalRow_normalizeOnly]
  | false =>
    rw [normalizeOnly, normalizeOnly_type, if_neg (by rw [team]; decide), normalizeOnly]
    cases hash : isHash r.type with
    | true => rfl
    | false =>
      rw [normalRow, normalCase_other hash team]
      rfl

theorem abnormal_of_twins {r r' : Row} (twins : CaseTwins r r') :
    (normalRow r).identifier ≠ r.identifier ∨ (normalRow r').identifier ≠ r'.identifier := by
  by_contra both
  obtain ⟨here, there⟩ := not_or.mp both
  exact twins.differ ((not_not.mp here).symm.trans (twins.normal.trans (not_not.mp there)))

/-- One of two twins stays as it is, and is of the wrong case. -/
theorem foldCase_abnormal {rows : List Row} (unique : Unique Row.key rows) {r r' : Row}
    (member : r ∈ rows) (member' : r' ∈ rows) (twins : CaseTwins r r') :
    ∃ x ∈ foldCase rows, (normalRow x).identifier ≠ x.identifier := by
  have both : ∀ x, x = r ∨ x = r' → x ∈ rows ∧ x.type = r.type := by
    rintro x (rfl | rfl)
    · exact ⟨member, rfl⟩
    · exact ⟨member', twins.type.symm⟩
  have one : ∃ x, (x = r ∨ x = r') ∧ (normalRow x).identifier ≠ x.identifier := by
    rcases abnormal_of_twins twins with abnormal | abnormal
    · exact ⟨r, .inl rfl, abnormal⟩
    · exact ⟨r', .inr rfl, abnormal⟩
  obtain ⟨x, which, abnormal⟩ := one
  obtain ⟨here, type⟩ := both x which
  refine ⟨x, ?_, abnormal⟩
  rw [foldCase, lowerHashes_eq, upperTeamIDs_eq]
  cases hash : isHash r.type with
  | true =>
    -- The lower-casing fails, and the upper-casing is for other types.
    rw [rewrite_clash unique (normalizeOnly_clash_iff.mpr ⟨r, member, r', member', twins, hash⟩)]
    apply mem_rewrite_of_fixed here
    rw [normalizeOnly, type, if_neg]
    intro team
    rw [of_decide_eq_true team] at hash
    exact absurd hash (by decide)
  | false =>
    cases team : isTeamID r.type with
    | true =>
      have stays : ∀ y, y = r ∨ y = r' → y ∈ rewrite Row.key (normalizeOnly isHash) rows := by
        intro y which
        apply mem_rewrite_of_fixed (both y which).1
        rw [normalizeOnly, (both y which).2, hash]
        rfl
      rw [rewrite_clash (rewrite_unique unique) (normalizeOnly_clash_iff.mpr
        ⟨r, stays r (.inl rfl), r', stays r' (.inr rfl), twins, team⟩)]
      exact stays x which
    | false =>
      rw [normalRow, type, normalCase_other hash team] at abnormal
      exact absurd rfl abnormal

/-! ### The upgrade as a whole -/

def Row.rule (r : Row) : String × Int × Int × Option String :=
  (r.identifier, r.type, r.state, r.customMsg)

theorem rowsTo_add {rows : List Row} {version last : Nat} {f : Row → Row}
    (at_last : ∀ rows, rowsAt (last + 1) rows = rows.map f) (same : ∀ r, (f r).rule = r.rule) :
    ∃ g : Row → Row, rowsTo rows version (last + 1) = (rowsTo rows version last).map g ∧
      ∀ r, (g r).rule = r.rule := by
  rw [rowsTo_succ]
  split
  · exact ⟨f, at_last _, same⟩
  · exact ⟨id, (List.map_id _).symm, fun _ => rfl⟩

theorem rowsTo_nine (rows : List Row) (version : Nat) :
    ∃ g : Row → Row, rowsTo rows version 9 = (rowsTo rows version 6).map g ∧
      ∀ r, (g r).rule = r.rule := by
  obtain ⟨seven, to_seven, same_seven⟩ := @rowsTo_add rows version 6 _ (fun _ => rfl) fun _ => rfl
  obtain ⟨eight, to_eight, same_eight⟩ := @rowsTo_add rows version 7 _ (fun _ => rfl) fun _ => rfl
  obtain ⟨nine, to_nine, same_nine⟩ := @rowsTo_add rows version 8 _ (fun _ => rfl) fun _ => rfl
  refine ⟨nine ∘ eight ∘ seven, ?_, ?_⟩
  · rw [to_nine, to_eight, to_seven, List.map_map, List.map_map]
    rfl
  · intro r
    rw [Function.comp_apply, same_nine, Function.comp_apply, same_eight, same_seven]

theorem rowsTo_five {rows : List Row} {version : Nat} (old : Old version rows) :
    ∃ g : Row → Row, rowsTo rows version 5 = rows.map g ∧
      ∀ r, (g r).rule = (r.identifier, mappedType version r.type, r.state, r.customMsg) := by
  by_cases before : version < 5
  · have to_four : ∃ g : Row → Row, rowsTo rows version 4 = rows.map g ∧
        ∀ r, (g r).rule = r.rule := by
      have to_two : rowsTo rows version 2 = rows := by
        rw [rowsTo_succ, rowsTo_succ]
        simp only [rowsAt, ite_self]
        rfl
      obtain ⟨g, to_three, same⟩ := @rowsTo_add rows version 2 _ (fun _ => rfl) fun _ => rfl
      refine ⟨g, ?_, same⟩
      rw [rowsTo_succ, to_three, to_two]
      simp only [rowsAt, ite_self]
    obtain ⟨g, mapped, same⟩ := to_four
    have unused : ∀ r ∈ rows.map g, r.type ∉ newTypes := by
      intro r member
      obtain ⟨r', member', equal⟩ := List.mem_map.mp member
      have type : (g r').type = r'.type := congrArg (fun p => p.2.1) (same r')
      rw [← equal, type]
      exact old.types before r' member'
    have unique := rowsTo_unique old.unique version 4
    rw [mapped] at unique
    refine ⟨mapType ∘ g, ?_, ?_⟩
    · rw [rowsTo_succ, if_pos before, mapped, ← List.map_map]
      exact retype_eq_map unique unused
    · intro r
      have rule := same r
      simp only [Row.rule, Prod.mk.injEq] at rule
      simp only [Row.rule, Function.comp_apply, mapType, rule, mappedType, before, if_true,
        Nat.zero_lt_succ]
  · refine ⟨id, ?_, fun r => ?_⟩
    · rw [rowsTo_of_le (by omega), List.map_id]
    · rw [mappedType, if_neg before]
      rfl

theorem migrated_of_map {version : Nat} {rows : List Row} {f : Row → Row}
    (unique : Unique Row.key (rows.map f)) (kept : ∀ r ∈ rows, Kept version r (f r)) :
    Migrated version rows (rows.map f) := by
  refine ⟨fun r member => ⟨f r, List.mem_map_of_mem member, kept r member⟩, ?_, unique⟩
  intro r' member
  obtain ⟨r, here, same⟩ := List.mem_map.mp member
  rw [← same, (kept r here).identifier, normalCase_normalCase]

theorem rule_fields {r : Row} {identifier : String} {type state : Int} {customMsg : Option String}
    (same : r.rule = (identifier, type, state, customMsg)) :
    r.identifier = identifier ∧ r.type = type ∧ r.state = state ∧ r.customMsg = customMsg := by
  simpa only [Row.rule, Prod.mk.injEq] using same

theorem migrated_folded_iff {version : Nat} {rows : List Row} (old : Old version rows)
    (before : version < 6) :
    Migrated version rows (rowsTo rows version 9) ↔
      ∀ r ∈ rows, ∀ r' ∈ rows, r.type = r'.type →
        normalCase (mappedType version r.type) r.identifier =
          normalCase (mappedType version r.type) r'.identifier → r.identifier = r'.identifier := by
  obtain ⟨g, columns, same⟩ := rowsTo_nine rows version
  obtain ⟨f, types, carried⟩ := rowsTo_five old
  have unique := rowsTo_unique old.unique version 5
  have folds : rowsTo rows version 6 = foldCase (rows.map f) := by
    rw [rowsTo_succ, if_pos before, types]
    rfl
  rw [types] at unique
  constructor
  · -- One of two twins keeps its identifier of the wrong case.
    intro migrated r member r' member' type normal
    by_contra differ
    obtain ⟨identifier, type_f, -, -⟩ := rule_fields (carried r)
    obtain ⟨identifier', type_f', -, -⟩ := rule_fields (carried r')
    have twins : CaseTwins (f r) (f r') := by
      constructor
      · rw [type_f, type_f', type]
      · rw [normalRow, normalRow, type_f, type_f', identifier, identifier', ← type]
        exact normal
      · rw [identifier, identifier']
        exact differ
    obtain ⟨x, here, abnormal⟩ := foldCase_abnormal unique (List.mem_map_of_mem member)
      (List.mem_map_of_mem member') twins
    obtain ⟨identifier_g, type_g, -, -⟩ := rule_fields (same x)
    have there : g x ∈ rowsTo rows version 9 := by
      rw [columns, folds]
      exact List.mem_map_of_mem here
    have normal_g := migrated.normal (g x) there
    rw [type_g, identifier_g] at normal_g
    exact abnormal normal_g
  · intro normalizable
    have none : ∀ s ∈ rows.map f, ∀ s' ∈ rows.map f, ¬ CaseTwins s s' := by
      intro s member s' member' twins
      obtain ⟨r, here, rfl⟩ := List.mem_map.mp member
      obtain ⟨r', here', rfl⟩ := List.mem_map.mp member'
      obtain ⟨identifier, type_f, -, -⟩ := rule_fields (carried r)
      obtain ⟨identifier', type_f', -, -⟩ := rule_fields (carried r')
      have mapped := twins.type
      have normal := twins.normal
      rw [type_f, type_f'] at mapped
      rw [normalRow, normalRow, type_f, type_f', identifier, identifier', ← mapped] at normal
      have type := mappedType_inj (fun b => old.types b r here) (fun b => old.types b r' here')
        mapped
      apply twins.differ
      rw [identifier, identifier']
      exact normalizable r here r' here' type normal
    have all : rowsTo rows version 9 = rows.map (g ∘ normalRow ∘ f) := by
      rw [columns, folds, foldCase_eq_map unique none, List.map_map, List.map_map]
      rfl
    have unique' := rowsTo_unique old.unique version 9
    rw [all] at unique' ⊢
    apply migrated_of_map unique'
    intro r _
    obtain ⟨identifier, type_f, state, customMsg⟩ := rule_fields (carried r)
    obtain ⟨identifier_g, type_g, state_g, customMsg_g⟩ := rule_fields (same (normalRow (f r)))
    exact ⟨type_g.trans type_f, state_g.trans state, customMsg_g.trans customMsg, by
      rw [Function.comp_apply, Function.comp_apply, identifier_g, type_g, ← identifier]
      rfl⟩

theorem migrated_unfolded_iff {version : Nat} {rows : List Row} (old : Old version rows)
    (after : 6 ≤ version) :
    Migrated version rows (rowsTo rows version 9) ↔
      ∀ r ∈ rows, normalCase r.type r.identifier = r.identifier := by
  obtain ⟨g, columns, same⟩ := rowsTo_nine rows version
  have unique := rowsTo_unique old.unique version 9
  rw [rowsTo_of_le after] at columns
  rw [columns] at unique ⊢
  constructor
  · intro migrated r member
    obtain ⟨identifier, type, -, -⟩ := rule_fields (same r)
    have normal := migrated.normal (g r) (List.mem_map_of_mem member)
    rwa [type, identifier] at normal
  · intro normal
    apply migrated_of_map unique
    intro r member
    obtain ⟨identifier, type, state, customMsg⟩ := rule_fields (same r)
    have unmapped : mappedType version r.type = r.type := if_neg (by omega)
    exact ⟨type.trans unmapped.symm, state, customMsg, by
      rw [type, identifier, normal r member]⟩

/-- All rules are kept, and their identifiers normalized, exactly if no two rules stand in each
    other's way; from version 6 on, exactly if there is nothing left to normalize. -/
theorem migrated_iff (version : Nat) (rows : List Row) (db : Database)
    (holds : Holds version rows db) :
    (∃ table, (initializeDatabase db version).db.executionRules = some table ∧
      Migrated version rows table.rows) ↔ Normalizable version rows := by
  obtain ⟨-, old⟩ := holds_unique holds
  have through : (∃ table, (initializeDatabase db version).db.executionRules = some table ∧
      Migrated version rows table.rows) ↔ Migrated version rows (rowsTo rows version 9) := by
    rw [initializeDatabase_rows holds]
    constructor
    · rintro ⟨table, here, migrated⟩
      rw [← Option.some.inj here] at migrated
      exact migrated
    · exact fun migrated => ⟨_, rfl, migrated⟩
  rw [through, Normalizable]
  split
  · exact migrated_folded_iff old (by assumption)
  · exact migrated_unfolded_iff old (by omega)

def oldRow (digit : Char) : Row :=
  ⟨String.ofList (List.replicate kSHA256Length digit), 2, 1, none, none, none, none, none⟩

def databaseOf (version : Nat) (rows : List Row) : Database :=
  ⟨[], some ⟨columnsOf version, some "rulesunique", rows⟩, none, none⟩

theorem databaseOf_holds {version : Nat} {rows : List Row} (below : 0 < version ∧ version < 10)
    (old : Old version rows) : Holds version rows (databaseOf version rows) := by
  rw [Holds, if_neg (by omega)]
  exact ⟨below.2, ⟨rfl, rfl⟩, old⟩

theorem two_rules_migrated :
    ∃ table, (initializeDatabase (databaseOf 3 [oldRow 'A', oldRow 'C']) 3).db.executionRules =
      some table ∧ Migrated 3 [oldRow 'A', oldRow 'C'] table.rows :=
  (migrated_iff 3 [oldRow 'A', oldRow 'C'] (databaseOf 3 [oldRow 'A', oldRow 'C'])
    (databaseOf_holds (by decide) ⟨by decide +kernel, by decide +kernel⟩)).mpr (by
      rw [Normalizable, if_pos (by decide)]
      decide +kernel)

/-- Two Binary rules whose identifiers differ in case only keep a third from being normalized. -/
theorem twins_not_migrated :
    Holds 3 [oldRow 'a', oldRow 'A', oldRow 'C']
      (databaseOf 3 [oldRow 'a', oldRow 'A', oldRow 'C']) ∧
    ¬ ∃ table, (initializeDatabase (databaseOf 3 [oldRow 'a', oldRow 'A', oldRow 'C'])
        3).db.executionRules = some table ∧
      Migrated 3 [oldRow 'a', oldRow 'A', oldRow 'C'] table.rows := by
  refine ⟨databaseOf_holds (by decide) ⟨by decide +kernel, by decide +kernel⟩, ?_⟩
  rintro ⟨table, here, migrated⟩
  have run : (initializeDatabase (databaseOf 3 [oldRow 'a', oldRow 'A', oldRow 'C'])
      3).db.executionRules = some ⟨columnsOf 9, some "execution_rules_unique",
        [mapType (oldRow 'a'), mapType (oldRow 'A'), mapType (oldRow 'C')]⟩ := by
    decide +kernel
  rw [run, Option.some.injEq] at here
  rw [← here] at migrated
  exact absurd (migrated.normal (mapType (oldRow 'C')) (by decide +kernel)) (by decide +kernel)

end SantaMigration
