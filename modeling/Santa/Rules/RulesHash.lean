import Mathlib.Data.Int.ModEq
import Santa.Library.Words
import Santa.Rules.RuleAddition

/-!
The bytes that are hashed as the rules of a table: the fields of row after row,
with nothing between them. Numbers are hashed as they lie in memory, the least
byte first. A column that is NULL is hashed as an empty text. The rows come in
the order in which the table holds them.
-/
namespace SantaRulesHash
open SantaRule SantaRuleTable SantaRuleAddition

def utf8 (text : String) : List UInt8 := text.toByteArray.data.toList

def intBytes (n : Int) : List UInt8 :=
  let u := (n % 2 ^ 32).toNat
  [.ofNat u, .ofNat (u / 2 ^ 8), .ofNat (u / 2 ^ 16), .ofNat (u / 2 ^ 24)]

structure HashedRow where
  identifier : String
  state : Int
  type : Int
  celExpr : Option String
  deriving DecidableEq, Repr

def hashedRow (r : SNTRule) : HashedRow := ⟨r.identifier, r.state.raw, r.type.raw, r.celExpr⟩

def HashedRow.bytes (row : HashedRow) : List UInt8 :=
  utf8 row.identifier ++ utf8 (row.celExpr.getD "") ++ intBytes row.state ++ intBytes row.type

def hashedRows (rules : ExecutionRules) : List HashedRow :=
  (rules.rows.filter fun r => r.state ≠ .allowTransitive).map hashedRow

def executionRulesBytes (rules : ExecutionRules) : List UInt8 :=
  ((hashedRows rules).map HashedRow.bytes).flatten

def rowBytes (row : FileAccessRow) : List UInt8 := utf8 row.name ++ row.ruleData

def fileAccessRulesBytes (rules : FileAccessRules) : List UInt8 :=
  (rules.rows.map rowBytes).flatten

/-! ### Bytes -/

theorem utf8_append (s t : String) : utf8 (s ++ t) = utf8 s ++ utf8 t := by
  simp [utf8]

theorem utf8_inj {s t : String} : utf8 s = utf8 t ↔ s = t := by
  rw [← String.toByteArray_inj, ByteArray.ext_iff]
  exact Array.toList_inj

theorem intBytes_length (n : Int) : (intBytes n).length = 4 := rfl

theorem intBytes_inj {m n : Int} (low_m : -2 ^ 31 ≤ m) (high_m : m < 2 ^ 31) (low_n : -2 ^ 31 ≤ n)
    (high_n : n < 2 ^ 31) : intBytes m = intBytes n ↔ m = n := by
  constructor
  · intro same
    simp only [intBytes, List.cons.injEq, and_true, ← UInt8.toNat_inj, UInt8.toNat_ofNat'] at same
    omega
  · intro same
    rw [same]

theorem intBytes_small {n : Int} (positive : 0 < n) (small : n < 256) :
    ∃ byte, byte ≠ 0 ∧ intBytes n = [byte, 0, 0, 0] := by
  refine ⟨.ofNat n.toNat, ?_, ?_⟩
  · intro zero
    simp only [← UInt8.toNat_inj, UInt8.toNat_ofNat', UInt8.toNat_zero] at zero
    omega
  · have mod : n % 2 ^ 32 = n := by omega
    have zero : ∀ k, 2 ^ 8 ≤ k → n.toNat / k = 0 := fun k big => Nat.div_eq_of_lt (by omega)
    rw [intBytes, mod, zero _ (by decide), zero _ (by decide), zero _ (by decide)]
    rfl

/-! ### What can be read off the execution rules' bytes -/

/-- The texts end where the column ends, and the numbers are those of a state and of an `int`. -/
structure HashedRow.Readable (row : HashedRow) : Prop where
  identifier : 0 ∉ utf8 row.identifier
  celExpr : 0 ∉ utf8 (row.celExpr.getD "")
  state_pos : 0 < row.state
  state_small : row.state < 256
  type_low : -2 ^ 31 ≤ row.type
  type_high : row.type < 2 ^ 31

def Readable (rules : ExecutionRules) : Prop := ∀ row ∈ hashedRows rules, row.Readable

def HashedRow.runTogether (row : HashedRow) : String × Int × Int :=
  (row.identifier ++ row.celExpr.getD "", row.state, row.type)

theorem HashedRow.bytes_eq {row : HashedRow} (readable : row.Readable) :
    ∃ byte, byte ≠ 0 ∧ intBytes row.state = [byte, 0, 0, 0] ∧
      row.bytes = (utf8 row.runTogether.1 ++ [byte]) ++ 0 :: (0 :: 0 :: intBytes row.type) := by
  obtain ⟨byte, nonzero, state⟩ := intBytes_small readable.state_pos readable.state_small
  refine ⟨byte, nonzero, state, ?_⟩
  rw [bytes, state, runTogether, utf8_append]
  simp

theorem HashedRow.text_free {row : HashedRow} (readable : row.Readable) {byte : UInt8}
    (nonzero : byte ≠ 0) : 0 ∉ utf8 row.runTogether.1 ++ [byte] := by
  rw [runTogether, utf8_append, List.mem_append, List.mem_append, List.mem_singleton]
  rintro ((first | second) | last)
  · exact readable.identifier first
  · exact readable.celExpr second
  · exact nonzero last.symm

theorem HashedRow.bytes_stopped {row : HashedRow} (readable : row.Readable) :
    Words.Stopped 0 6 row.bytes := by
  obtain ⟨byte, nonzero, -, same⟩ := bytes_eq readable
  exact ⟨_, _, same, text_free readable nonzero, by simp [intBytes_length]⟩

theorem HashedRow.bytes_inj {row row' : HashedRow} (readable : row.Readable)
    (readable' : row'.Readable) : row.bytes = row'.bytes ↔ row.runTogether = row'.runTogether := by
  obtain ⟨byte, nonzero, state, same⟩ := bytes_eq readable
  obtain ⟨byte', nonzero', state', same'⟩ := bytes_eq readable'
  constructor
  · intro equal
    rw [same, same'] at equal
    obtain ⟨texts, tails⟩ :=
      Words.stop_inj (text_free readable nonzero) (text_free readable' nonzero') equal
    obtain ⟨text, last⟩ := List.append_inj' texts rfl
    have types : intBytes row.type = intBytes row'.type := by simpa using tails
    have states : intBytes row.state = intBytes row'.state := by
      rw [state, state', List.singleton_inj.mp last]
    have type := (intBytes_inj readable.type_low readable.type_high readable'.type_low
      readable'.type_high).mp types
    have low := readable.state_pos
    have high := readable.state_small
    have low' := readable'.state_pos
    have high' := readable'.state_small
    have number := (intBytes_inj (by omega) (by omega) (by omega) (by omega)).mp states
    exact Prod.ext (utf8_inj.mp text) (Prod.ext number type)
  · intro equal
    have parts := equal
    simp only [runTogether, Prod.mk.injEq] at parts
    rw [bytes, bytes, parts.2.1, parts.2.2, ← utf8_append, ← utf8_append, parts.1]

theorem map_eq_map_iff_of {α β γ : Type} {f : α → β} {g : α → γ} {l l' : List α}
    (alike : ∀ a ∈ l, ∀ b ∈ l', f a = f b ↔ g a = g b) :
    l.map f = l'.map f ↔ l.map g = l'.map g := by
  induction l generalizing l' with
  | nil => cases l' <;> simp
  | cons a l ih =>
    cases l' with
    | nil => simp
    | cons b l' =>
      rw [List.map_cons, List.map_cons, List.map_cons, List.map_cons, List.cons.injEq,
        List.cons.injEq, alike a List.mem_cons_self b List.mem_cons_self,
        ih fun a' here b' there => alike a' (List.mem_cons_of_mem _ here) b'
          (List.mem_cons_of_mem _ there)]

/-- Two tables give the same bytes just if their rows, in order, are the same when identifier
    and expression are run together. -/
theorem executionRulesBytes_eq_iff {rules rules' : ExecutionRules} (readable : Readable rules)
    (readable' : Readable rules') :
    executionRulesBytes rules = executionRulesBytes rules' ↔
      (hashedRows rules).map HashedRow.runTogether =
        (hashedRows rules').map HashedRow.runTogether := by
  have stopped : ∀ {rules : ExecutionRules}, Readable rules →
      ∀ word ∈ (hashedRows rules).map HashedRow.bytes, Words.Stopped 0 6 word := by
    intro rules readable word member
    obtain ⟨row, there, same⟩ := List.mem_map.mp member
    rw [← same]
    exact row.bytes_stopped (readable row there)
  rw [executionRulesBytes, executionRulesBytes,
    (Words.stopped_prefixFree 0 6).flatten_inj Words.stopped_ne_nil (stopped readable)
      (stopped readable')]
  exact map_eq_map_iff_of fun row here row' there =>
    row.bytes_inj (readable row here) (readable' row' there)

/-! ### What can be read off the file access rules' bytes -/

def Named (rules : FileAccessRules) : Prop := ∀ row ∈ rules.rows, row.name ≠ ""

theorem rowBytes_ne_nil {rules : FileAccessRules} (named : Named rules) :
    ∀ word ∈ rules.rows.map rowBytes, word ≠ [] := by
  intro word member none
  obtain ⟨row, there, same⟩ := List.mem_map.mp member
  rw [← same, rowBytes, List.append_eq_nil_iff] at none
  exact named row there (utf8_inj.mp none.1)

/-! ### Telling tables apart -/

def SameRules (rules rules' : ExecutionRules) : Prop :=
  ∀ row, row ∈ hashedRows rules ↔ row ∈ hashedRows rules'

def SameFileAccessRules (rules rules' : FileAccessRules) : Prop :=
  ∀ row, row ∈ rules.rows ↔ row ∈ rules'.rows

structure ToldApart (rules rules' : ExecutionRules) (files files' : FileAccessRules) : Prop where
  execution : ¬ SameRules rules rules' → executionRulesBytes rules ≠ executionRulesBytes rules'
  fileAccess : ¬ SameFileAccessRules files files' →
    fileAccessRulesBytes files ≠ fileAccessRulesBytes files'

/-- No boundary between the fields of a row is lost, nor one between file access rules. -/
structure BoundariesKept (rules rules' : ExecutionRules) (files files' : FileAccessRules) :
    Prop where
  execution : (hashedRows rules).map HashedRow.runTogether =
    (hashedRows rules').map HashedRow.runTogether → SameRules rules rules'
  fileAccess : SameFileAccessRules files files' ∨
    (files.rows.map rowBytes ≠ files'.rows.map rowBytes ∧
      ¬ Words.RunsOn (files.rows.map rowBytes) (files'.rows.map rowBytes) ∧
      ¬ Words.RunsOn (files'.rows.map rowBytes) (files.rows.map rowBytes))

/-- The hashed bytes tell tables apart just if they keep the boundaries. -/
theorem toldApart_iff {rules rules' : ExecutionRules} {files files' : FileAccessRules}
    (readable : Readable rules) (readable' : Readable rules') (named : Named files)
    (named' : Named files') :
    ToldApart rules rules' files files' ↔ BoundariesKept rules rules' files files' := by
  have execution := executionRulesBytes_eq_iff readable readable'
  have fileAccess : fileAccessRulesBytes files = fileAccessRulesBytes files' ↔ _ :=
    Words.flatten_eq_iff (rowBytes_ne_nil named) (rowBytes_ne_nil named')
  constructor
  · intro told
    constructor
    · intro same
      by_contra differ
      exact told.execution differ (execution.mpr same)
    · by_cases same : SameFileAccessRules files files'
      · exact .inl same
      · have differ := told.fileAccess same
        rw [ne_eq, fileAccess, not_or, not_or] at differ
        exact .inr differ
  · intro kept
    constructor
    · intro differ same
      exact differ (kept.execution (execution.mp same))
    · intro differ
      rw [ne_eq, fileAccess, not_or, not_or]
      exact kept.fileAccess.resolve_left differ

def appRule (app expression : String) : SNTRule :=
  ⟨"EQHXZ8M8AV:com.example." ++ app, .cel, .signingID, none, none, 0, none, some expression⟩

def tableOf (rule : SNTRule) : Database :=
  (addExecutionRules (fun _ _ => none) (fun _ => "0") (fun _ => none)
    ⟨⟨.empty, .empty⟩, "", ""⟩ [rule] [] .none).2.db

theorem one_rule_told_apart :
    ToldApart (tableOf (appRule "app" "10 < 20")).executionRules
        (tableOf (appRule "app" "20 < 10")).executionRules .empty .empty ↔
      BoundariesKept (tableOf (appRule "app" "10 < 20")).executionRules
        (tableOf (appRule "app" "20 < 10")).executionRules .empty .empty := by
  have readable : ∀ expression, expression = "10 < 20" ∨ expression = "20 < 10" →
      Readable (tableOf (appRule "app" expression)).executionRules := by
    intro expression which row member
    have only : row = hashedRow (appRule "app" expression) := List.mem_singleton.mp member
    subst only
    rcases which with same | same <;> subst same <;>
      exact ⟨by decide, by decide, by decide, by decide, by decide, by decide⟩
  exact toldApart_iff (readable _ (.inl rfl)) (readable _ (.inr rfl)) (fun _ => nofun)
    (fun _ => nofun)

/-- The end of one rule's identifier is the beginning of the other's expression. -/
theorem rules_not_told_apart :
    let rule := appRule "app" "10 < 20"
    let rule' := appRule "app1" "0 < 20"
    rule.init = some rule ∧ rule'.init = some rule' ∧
      hashedRows (tableOf rule).executionRules = [hashedRow rule] ∧
      hashedRows (tableOf rule').executionRules = [hashedRow rule'] ∧
      ¬ ToldApart (tableOf rule).executionRules (tableOf rule').executionRules .empty .empty := by
  intro rule rule'
  refine ⟨by decide, by decide, rfl, rfl, ?_⟩
  intro told
  refine told.execution ?_ (by decide)
  intro same
  have member := (same (hashedRow rule)).mp (by decide)
  exact absurd member (by decide)

end SantaRulesHash
