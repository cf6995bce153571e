import Santa.Library.Records
import Santa.Logs.LogMessages
import Mathlib.Data.List.TakeWhile

/-!
The lines of the event log. A line ends with a newline, its fields are joined by pipes and the
name of each stands before an equals sign. Nothing tells what was sanitized from what was
written as it is, so a log can be read again just where the latter holds no separator. The
strings of Endpoint Security end with a null.
-/
namespace SantaBasicString
open SantaSanitizableString Records

/-! ### Lines -/

structure Entry where
  /-- Only where lines begin with the time and the name of the daemon. -/
  date : Option Name
  machineID : Option Bytes
  message : Message

def hexChar (d : Fin 16) : UInt8 :=
  if d.val < 10 then UInt8.ofNat (48 + d.val) else UInt8.ofNat (87 + d.val)

/-- The last component of a path, but for slashes at its end. -/
def basename (path : Bytes) : Bytes :=
  if path = [] then utf8 "."
  else
    let stripped := path.reverse.dropWhile (· = slash)
    if stripped = [] then [slash]
    else
      let base := (stripped.takeWhile (· ≠ slash)).reverse
      -- a longer name is an error, and nothing is written for it
      if base.length ≥ 1024 then [] else base

/-- `none` where the sanitizer runs on after what can be read. -/
def Piece.text : Piece → Option Bytes
  | .word text _ => some text
  | .number n => some (decimal n)
  | .hex digits => some (digits.map hexChar)
  | .sanitized t => t.sanitized
  | .baseName t => (sanitizeString (some t.data) t.length).map fun sanitized =>
      basename (cString (sanitized.getD t.data))
  | .raw text => some text

def valueText (v : Value) : Option Bytes := (v.mapM Piece.text).map List.flatten

def createDefaultString (date : Option Name) : Name :=
  match date with
  | none => noName
  | some date => name "[" ++ date ++ name "] I santad: "

def present (fs : List Field) : List (Name × Value) :=
  fs.filterMap fun f => f.value.map (f.name, ·)

section
variable (urlPath : Bytes → Option Bytes)

def Entry.fields (e : Entry) : List Field :=
  field (createDefaultString e.date ++ name "action") e.message.action ::
    e.message.fields urlPath ++ [⟨name "machineid", e.machineID.map fun id => [.raw id]⟩]

def Entry.record (e : Entry) : Option (Record UInt8) :=
  (present (e.fields urlPath)).mapM fun f => (valueText f.2).map (f.1.text, ·)

def serializeMessage (e : Entry) : Option Bytes :=
  (e.record urlPath).map fun fs => Records.record pipe equals fs ++ [newline]

def serializeAll (es : List Entry) : Option Bytes :=
  (es.mapM (serializeMessage urlPath)).map List.flatten
end

def Entry.columns (e : Entry) : List Name :=
  (createDefaultString e.date ++ name "action") :: e.message.columns ++ [name "machineid"]

/-! ### What is shown of a value -/

/-- The string ends at a null, with none before. -/
def Exact (t : Token) : Prop := 0 ∉ t.bytes ∧ t.data[t.length]? = some 0

/-- The tokens are what their kind promises. -/
def Piece.Given : Piece → Prop
  | .sanitized t => EndsAlike t
  | .baseName t => Exact t
  | _ => True

instance (t : Token) : Decidable (Exact t) := inferInstanceAs (Decidable (_ ∧ _))

instance (p : Piece) : Decidable p.Given :=
  match p with
  | .sanitized t => inferInstanceAs (Decidable (EndsAlike t))
  | .baseName t => inferInstanceAs (Decidable (Exact t))
  | .word .. | .number _ | .hex _ | .raw _ => inferInstanceAs (Decidable True)

def Piece.shown : Piece → Bytes
  | .word text _ => text
  | .number n => decimal n
  | .hex digits => digits.map hexChar
  | .sanitized t => escaped t.bytes
  | .baseName t => basename (escaped t.bytes)
  | .raw text => text

def Piece.raws : Piece → List Bytes
  | .raw text => [text]
  | _ => []

theorem cString_append {text rest : Bytes} (nonnull : 0 ∉ text) :
    cString (text ++ 0 :: rest) = text := by
  have stays : ∀ c ∈ text, (decide (c ≠ 0)) = true := by
    intro c member
    rw [decide_eq_true_eq]
    rintro rfl
    exact nonnull member
  unfold cString
  rw [List.takeWhile_append_of_pos stays]
  simp

theorem cString_nonnull {text : Bytes} (nonnull : 0 ∉ text) : cString text = text := by
  apply List.takeWhile_eq_self_iff.mpr
  intro c member
  rw [decide_eq_true_eq]
  rintro rfl
  exact nonnull member

theorem nonnull_escaped {bytes : Bytes} (nonnull : 0 ∉ bytes) : 0 ∉ escaped bytes := by
  intro member
  obtain ⟨c, of_bytes, here⟩ := List.mem_flatMap.mp member
  cases special : replacement c with
  | none =>
    rw [special, Option.getD_none, List.mem_singleton] at here
    rw [← here] at of_bytes
    exact nonnull of_bytes
  | some replaced =>
    rw [special, Option.getD_some] at here
    unfold replacement at special
    split_ifs at special <;> cases special <;> exact absurd here (by decide)

theorem Exact.data {t : Token} (ends : Exact t) : ∃ rest, t.data = t.bytes ++ 0 :: rest := by
  obtain ⟨within, zero⟩ := List.getElem?_eq_some_iff.mp ends.2
  refine ⟨t.data.drop (t.length + 1), ?_⟩
  rw [Token.bytes, ← zero, ← List.drop_eq_getElem_cons within, List.take_append_drop]

theorem Exact.endsAlike {t : Token} (ends : Exact t) : EndsAlike t := by
  obtain ⟨rest, shape⟩ := ends.data
  have length : t.bytes.length = t.length := by
    rw [Token.bytes, List.length_take, Nat.min_eq_left t.readable]
  have index : t.data.findIdx (· = 0) = t.length := by
    rw [shape, findIdx_null rest ends.1, length]
  refine .inr ⟨by rw [shape]; simp, ?_⟩
  simp only [index, Nat.max_self, Nat.min_self]
  rw [List.drop_take, Nat.sub_self, List.take_zero]
  exact fun c member => absurd member List.not_mem_nil

theorem Piece.text_given {p : Piece} (given : p.Given) : p.text = some p.shown := by
  cases p with
  | word text plain => rfl
  | number n => rfl
  | hex digits => rfl
  | raw text => rfl
  | sanitized t => exact (sanitized_iff t).mpr given
  | baseName t =>
    have output := (sanitized_iff t).mpr (Exact.endsAlike given)
    obtain ⟨rest, shape⟩ := Exact.data given
    rw [Token.sanitized] at output
    obtain ⟨sanitized, scanned, same⟩ := Option.map_eq_some_iff.mp output
    rw [Piece.text, scanned, Option.map_some, Piece.shown, ← same]
    cases sanitized with
    | none =>
      rw [Option.getD_none, Option.getD_none, shape, cString_append given.1]
    | some buf =>
      rw [Option.getD_some, Option.getD_some] at *
      rw [same, cString_nonnull (nonnull_escaped given.1)]

theorem plain_digit {c : Char} (digit : c.isDigit) : replacement c.toUInt8 = none := by
  simp only [Char.isDigit, Bool.and_eq_true, decide_eq_true_eq, UInt32.le_iff_toNat_le] at digit
  have value : c.toUInt8.toNat = c.val.toNat % 256 := rfl
  obtain ⟨least, most⟩ := digit
  change 48 ≤ c.val.toNat at least
  change c.val.toNat ≤ 57 at most
  have other : ∀ d : UInt8, d.toNat < 48 ∨ 57 < d.toNat → c.toUInt8 ≠ d := by
    rintro d outside rfl
    omega
  unfold replacement
  rw [if_neg (other _ (by decide)), if_neg (other _ (by decide)), if_neg (other _ (by decide))]

theorem plain_number (n : ℤ) : Plain (decimal n) := by
  intro b member
  obtain ⟨c, of_text, rfl⟩ := List.mem_map.mp member
  rcases List.mem_append.mp of_text with sign | digit
  · split at sign
    · rw [List.mem_singleton.mp sign]
      decide
    · exact absurd sign List.not_mem_nil
  · exact plain_digit (Nat.isDigit_of_mem_toDigits (by decide) (by decide) digit)

theorem plain_hex (digits : List (Fin 16)) : Plain (digits.map hexChar) := by
  intro c member
  obtain ⟨d, -, rfl⟩ := List.mem_map.mp member
  have all : ∀ d : Fin 16, replacement (hexChar d) = none := by decide
  exact all d

theorem plain_basename {path : Bytes} (plain : Plain path) : Plain (basename path) := by
  unfold basename
  dsimp only
  split
  · decide
  · split
    · decide
    · split
      · exact fun c member => absurd member List.not_mem_nil
      · intro c member
        rw [List.mem_reverse] at member
        have stripped := List.dropWhile_subset _ (List.takeWhile_subset _ member)
        exact plain c (List.mem_reverse.mp stripped)

theorem Piece.shown_cases (p : Piece) : Plain p.shown ∧ p.raws = [] ∨ p.raws = [p.shown] := by
  cases p with
  | word text plain => exact .inl ⟨plain, rfl⟩
  | number n => exact .inl ⟨plain_number n, rfl⟩
  | hex digits => exact .inl ⟨plain_hex digits, rfl⟩
  | sanitized t => exact .inl ⟨plain_escaped t.bytes, rfl⟩
  | baseName t => exact .inl ⟨plain_basename (plain_escaped t.bytes), rfl⟩
  | raw text => exact .inr rfl

theorem mapM_some {A B : Type} {f : A → Option B} {g : A → B} {l : List A}
    (each : ∀ a ∈ l, f a = some (g a)) : l.mapM f = some (l.map g) := by
  induction l with
  | nil => rfl
  | cons a l ih =>
    rw [List.mapM_cons, each a List.mem_cons_self,
      ih fun b member => each b (List.mem_cons_of_mem a member)]
    rfl

theorem valueText_given {v : Value} (given : ∀ p ∈ v, p.Given) :
    valueText v = some ((v.map Piece.shown).flatten) := by
  unfold valueText
  rw [mapM_some fun p member => Piece.text_given (given p member)]
  rfl

theorem mem_shown {v : Value} {c : UInt8} (special : replacement c ≠ none) :
    c ∈ (v.map Piece.shown).flatten ↔ ∃ raw ∈ v.flatMap Piece.raws, c ∈ raw := by
  rw [List.mem_flatten]
  constructor
  · rintro ⟨text, member, here⟩
    obtain ⟨p, of_value, rfl⟩ := List.mem_map.mp member
    rcases p.shown_cases with ⟨plain, -⟩ | raw
    · exact absurd (plain c here) special
    · refine ⟨p.shown, List.mem_flatMap.mpr ⟨p, of_value, ?_⟩, here⟩
      rw [raw]
      exact List.mem_singleton_self _
  · rintro ⟨raw, member, here⟩
    obtain ⟨p, of_value, of_raws⟩ := List.mem_flatMap.mp member
    rcases p.shown_cases with ⟨-, none⟩ | same
    · rw [none] at of_raws
      cases of_raws
    · rw [same, List.mem_singleton] at of_raws
      rw [of_raws] at here
      exact ⟨p.shown, List.mem_map_of_mem of_value, here⟩

/-! ### What is shown of a line -/

section
variable (urlPath : Bytes → Option Bytes)

def Entry.values (e : Entry) : List Value := (present (e.fields urlPath)).map Prod.snd

def Entry.Given (e : Entry) : Prop := ∀ v ∈ e.values urlPath, ∀ p ∈ v, p.Given

def Entry.raws (e : Entry) : List Bytes := (e.values urlPath).flatMap fun v => v.flatMap Piece.raws

def Entry.shown (e : Entry) : Record UInt8 :=
  (present (e.fields urlPath)).map fun f => (f.1.text, (f.2.map Piece.shown).flatten)

theorem record_given {e : Entry} (given : e.Given urlPath) :
    e.record urlPath = some (e.shown urlPath) := by
  unfold Entry.record Entry.shown
  refine mapM_some fun f member => ?_
  rw [valueText_given fun p of_value => given f.2 (List.mem_map_of_mem member) p of_value]
  rfl

theorem present_names (fs : List Field) :
    ((present fs).map Prod.fst).Sublist (fs.map Field.name) := by
  induction fs with
  | nil => exact List.Sublist.refl _
  | cons f fs ih =>
    obtain ⟨n, v⟩ := f
    cases v with
    | none => exact ih.cons _
    | some v => exact ih.cons_cons _

theorem Entry.names (e : Entry) :
    ((e.shown urlPath).map Prod.fst).Sublist (e.columns.map Name.text) := by
  have names : ((e.fields urlPath).map Field.name).Sublist e.columns := by
    simp only [Entry.fields, List.map_append, List.map_cons]
    exact (List.Sublist.cons_cons _ (fields_names urlPath e.message)).append (List.Sublist.refl _)
  have here := ((present_names (e.fields urlPath)).trans names).map Name.text
  simp only [Entry.shown, List.map_map] at here ⊢
  exact here

theorem Entry.columns_nodup (e : Entry) : (e.columns.map Name.text).Nodup := by
  have unique := SantaBasicString.columns_nodup e.message
  cases dated : e.date with
  | none =>
    unfold Entry.columns
    rw [dated]
    exact unique
  | some date =>
    have first : (createDefaultString e.date ++ name "action").text.head? = some '['.toUInt8 := by
      rw [dated]
      rfl
    have rest : ∀ n ∈ e.message.columns ++ [name "machineid"],
        n.text.head? ≠ some '['.toUInt8 := by
      intro n member
      rcases List.mem_append.mp member with column | last
      · exact columns_head e.message n column
      · rw [List.mem_singleton.mp last]
        decide
    simp only [Entry.columns, List.cons_append, List.map_cons, List.nodup_cons] at unique ⊢
    refine ⟨?_, unique.2⟩
    intro member
    obtain ⟨n, column, same⟩ := List.mem_map.mp member
    exact rest n column (by rw [same, first])

theorem Entry.named (e : Entry) : Named newline pipe equals (e.shown urlPath) := by
  constructor
  · simp [Entry.shown, Entry.fields, present, field]
  · intro f member
    obtain ⟨g, -, rfl⟩ := List.mem_map.mp member
    have clean := plain_clean g.1.plain
    exact ⟨clean.2.1, clean.1, g.1.unequal⟩

theorem Entry.values_free (e : Entry) :
    (∀ f ∈ e.shown urlPath, newline ∉ f.2 ∧ pipe ∉ f.2) ↔
      ∀ raw ∈ e.raws urlPath, newline ∉ raw ∧ pipe ∉ raw := by
  have each : ∀ v : Value, ∀ c : UInt8, replacement c ≠ none →
      (c ∉ (v.map Piece.shown).flatten ↔ ∀ raw ∈ v.flatMap Piece.raws, c ∉ raw) := by
    intro v c special
    rw [mem_shown special]
    push Not
    rfl
  constructor
  · intro free raw member
    obtain ⟨v, of_entry, of_value⟩ := List.mem_flatMap.mp member
    obtain ⟨f, of_fields, rfl⟩ := List.mem_map.mp of_entry
    have here := free _ (List.mem_map_of_mem of_fields)
    exact ⟨(each f.2 newline (by decide)).mp here.1 raw of_value,
      (each f.2 pipe (by decide)).mp here.2 raw of_value⟩
  · intro free f member
    obtain ⟨g, of_fields, rfl⟩ := List.mem_map.mp member
    have of_entry : g.2 ∈ e.values urlPath := List.mem_map_of_mem of_fields
    have here : ∀ raw ∈ g.2.flatMap Piece.raws, newline ∉ raw ∧ pipe ∉ raw :=
      fun raw of_value => free raw (List.mem_flatMap.mpr ⟨g.2, of_entry, of_value⟩)
    exact ⟨(each g.2 newline (by decide)).mpr fun raw of_value => (here raw of_value).1,
      (each g.2 pipe (by decide)).mpr fun raw of_value => (here raw of_value).2⟩

structure Logged (es : List Entry) (log : Bytes) : Prop where
  /-- They are parsed again just where nothing that is written as it is holds a separator. -/
  parses : parseText newline pipe equals log = es.map (Entry.shown urlPath) ↔
    ∀ e ∈ es, ∀ raw ∈ e.raws urlPath, newline ∉ raw ∧ pipe ∉ raw
  /-- The names of a line are columns of its kind, each at most once and in order. -/
  names : ∀ e ∈ es, ((e.shown urlPath).map Prod.fst).Sublist (e.columns.map Name.text) ∧
    (e.columns.map Name.text).Nodup

theorem log_parses (es : List Entry) (given : ∀ e ∈ es, e.Given urlPath) :
    ∃ log, serializeAll urlPath es = some log ∧ Logged urlPath es log := by
  have lines : es.mapM (serializeMessage urlPath) =
      some (es.map fun e => Records.record pipe equals (e.shown urlPath) ++ [newline]) := by
    refine mapM_some fun e member => ?_
    unfold serializeMessage
    rw [record_given urlPath (given e member)]
    rfl
  refine ⟨Records.text newline pipe equals (es.map (Entry.shown urlPath)), ?_, ?_, ?_⟩
  · unfold serializeAll
    rw [lines]
    simp only [Option.map_some, Records.text, Delimited.terminated, List.map_map,
      List.flatMap_map, ← List.flatMap_def, Function.comp_def]
  · rw [parseText_iff (by decide) (by decide) (by decide)]
    · constructor
      · intro free e member
        exact (e.values_free urlPath).mp (free _ (List.mem_map_of_mem member))
      · intro free fs member
        obtain ⟨e, of_log, rfl⟩ := List.mem_map.mp member
        exact (e.values_free urlPath).mpr (free e of_log)
    · intro fs member
      obtain ⟨e, -, rfl⟩ := List.mem_map.mp member
      exact e.named urlPath
  · exact fun e _ => ⟨e.names urlPath, e.columns_nodup⟩
end

def oddPath : Token := nsString "/t|x"

def oddProcess : Instigator :=
  ⟨⟨⟨7, 1, 501, 20⟩, 1, 0, oddPath⟩, ⟨some (utf8 "u"), none⟩⟩

def oddEvents : List Entry :=
  [⟨some (name "now"), some (utf8 "id"), .unlink oddProcess oddPath⟩,
    ⟨none, none, .fileAccess oddProcess
      ⟨utf8 "1", utf8 "p", some (utf8 "/t|x"), .openFile, .denied, utf8 "0"⟩⟩]

theorem oddEvents_logged :
    ∃ log, serializeAll (fun _ => none) oddEvents = some log ∧
      Logged (fun _ => none) oddEvents log :=
  log_parses (fun _ => none) oddEvents (by
    unfold Entry.Given
    decide +kernel)

/-- The path is sanitized in the first line only. -/
example :
    (serializeAll (fun _ => none) (oddEvents.take 1)).map (parseText newline pipe equals) =
        some ((oddEvents.take 1).map (Entry.shown fun _ => none)) ∧
      (serializeAll (fun _ => none) oddEvents).map (parseText newline pipe equals) ≠
        some (oddEvents.map (Entry.shown fun _ => none)) := by
  decide +kernel

end SantaBasicString
