import Mathlib.Data.List.Basic

/-!
The strings of a log line. A string is given by a pointer and a length; the characters that would
break the line are replaced. The loop over the characters stops at the first null, wherever that
is, while the copy of what follows the last replacement goes by the length; so what comes out is
right just where nothing is to be replaced between the two.
-/
namespace SantaSanitizableString

abbrev Bytes := List UInt8

/-- The memory from the pointer on, as far as it can be read. -/
structure Token where
  data : Bytes
  length : Nat
  readable : length ≤ data.length

def Token.bytes (t : Token) : Bytes := t.data.take t.length

def chars (text : List Char) : Bytes := text.map Char.toUInt8

def replacement (c : UInt8) : Option Bytes :=
  if c = '|'.toUInt8 then some (chars ['<', 'p', 'i', 'p', 'e', '>'])
  else if c = '\n'.toUInt8 then some (chars ['\\', 'n'])
  else if c = '\r'.toUInt8 then some (chars ['\\', 'r'])
  else none

def escaped (bytes : Bytes) : Bytes := bytes.flatMap fun c => (replacement c).getD [c]

def Plain (bytes : Bytes) : Prop := ∀ c ∈ bytes, replacement c = none

instance (bytes : Bytes) : Decidable (Plain bytes) :=
  List.decidableBAll (fun c => replacement c = none) bytes

structure Scan where
  strOffset : Nat
  buf : Bytes
  reservedStringSpace : Bool

/-- The loop, from a character at a distance from the start; `none` where it runs on after the
    last byte that can be read. -/
def scan (str : Bytes) : Bytes → Nat → Scan → Option Scan
  | [], _, _ => none
  | c :: rest, diff, s =>
      if c = 0 then some s
      else match replacement c with
        | some replaced =>
            scan str rest (diff + 1)
              { strOffset := diff + 1
                buf := s.buf ++ (str.drop s.strOffset).take (diff - s.strOffset) ++ replaced
                reservedStringSpace := true }
        | none => scan str rest (diff + 1) s

/-- The inner `none` says that nothing was replaced. -/
def sanitizeString (str : Option Bytes) (length : Nat) : Option (Option Bytes) :=
  match str with
  | none => some none
  | some str =>
      if length < 1 then some none
      else (scan str str 0 ⟨0, [], false⟩).map fun s =>
        let buf :=
          if 0 < s.strOffset ∧ s.strOffset < length then
            s.buf ++ (str.drop s.strOffset).take (length - s.strOffset)
          else s.buf
        if s.reservedStringSpace then some buf else none

def Token.sanitized (t : Token) : Option Bytes :=
  (sanitizeString (some t.data) t.length).map fun sanitized => sanitized.getD t.bytes

/-- The string ends in a null, or there is none in memory between its end and the first null of
    a character that is replaced. -/
def EndsAlike (t : Token) : Prop :=
  t.length = 0 ∨ (0 ∈ t.data ∧
    let terminator := t.data.findIdx (· = 0)
    Plain ((t.data.take (max terminator t.length)).drop (min terminator t.length)))

instance (t : Token) : Decidable (EndsAlike t) :=
  inferInstanceAs (Decidable (_ ∨ (_ ∧ Plain _)))

/-! ### Replacing -/

theorem escaped_append (first second : Bytes) :
    escaped (first ++ second) = escaped first ++ escaped second :=
  List.flatMap_append

theorem escaped_plain {bytes : Bytes} (plain : Plain bytes) : escaped bytes = bytes := by
  induction bytes with
  | nil => rfl
  | cons c rest ih =>
    have later := ih fun d member => plain d (List.mem_cons_of_mem c member)
    rw [escaped, List.flatMap_cons, plain c List.mem_cons_self]
    exact congrArg (c :: ·) later

theorem replacement_longer {c : UInt8} {replaced : Bytes} (special : replacement c = some replaced) :
    1 < replaced.length := by
  unfold replacement at special
  split_ifs at special <;> cases special <;> decide

theorem length_le_escaped (bytes : Bytes) : bytes.length ≤ (escaped bytes).length := by
  induction bytes with
  | nil => exact Nat.le_refl 0
  | cons c rest ih =>
    rw [escaped, List.flatMap_cons, List.length_append, List.length_cons]
    have some : 1 ≤ ((replacement c).getD [c]).length := by
      cases special : replacement c with
      | none => exact Nat.le_refl 1
      | some replaced => exact Nat.le_of_lt (replacement_longer special)
    have later : rest.length ≤ (rest.flatMap fun c => (replacement c).getD [c]).length := ih
    omega

theorem escaped_longer {bytes : Bytes} (special : ¬ Plain bytes) :
    bytes.length < (escaped bytes).length := by
  simp only [Plain, not_forall] at special
  obtain ⟨c, member, replaced⟩ := special
  obtain ⟨before, after, rfl⟩ := List.append_of_mem member
  obtain ⟨text, same⟩ := Option.ne_none_iff_exists'.mp replaced
  have longer := replacement_longer same
  have first := length_le_escaped before
  have last := length_le_escaped after
  have here : escaped (c :: after) = text ++ escaped after := by
    rw [escaped, List.flatMap_cons, same]
    rfl
  rw [escaped_append, here]
  simp only [List.length_append, List.length_cons]
  omega

theorem plain_of_escaped {bytes : Bytes} (same : escaped bytes = bytes) : Plain bytes := by
  by_contra special
  have longer := escaped_longer special
  rw [same] at longer
  exact Nat.lt_irrefl _ longer

theorem plain_replacement {c : UInt8} {replaced : Bytes} (special : replacement c = some replaced) :
    Plain replaced := by
  unfold replacement at special
  split_ifs at special <;> cases special <;> decide +kernel

theorem plain_escaped (bytes : Bytes) : Plain (escaped bytes) := by
  intro d member
  obtain ⟨c, _, here⟩ := List.mem_flatMap.mp member
  cases special : replacement c with
  | none =>
    rw [special, Option.getD_none, List.mem_singleton] at here
    rw [here, special]
  | some replaced =>
    rw [special, Option.getD_some] at here
    exact plain_replacement special d here

theorem plain_append {first second : Bytes} :
    Plain (first ++ second) ↔ Plain first ∧ Plain second :=
  List.forall_mem_append

theorem plain_drop {bytes : Bytes} (plain : Plain bytes) (n : Nat) : Plain (bytes.drop n) :=
  fun c member => plain c (List.mem_of_mem_drop member)

theorem plain_take {bytes : Bytes} (plain : Plain bytes) (n : Nat) : Plain (bytes.take n) :=
  fun c member => plain c (List.mem_of_mem_take member)

/-! ### The loop -/

/-- What the loop knows of the characters it has seen: those before the offset are in the buffer,
    the last of them was replaced, and those after it stay. -/
structure Scanned (seen : Bytes) (s : Scan) : Prop where
  offset : s.strOffset ≤ seen.length
  buf : s.buf = escaped (seen.take s.strOffset)
  plain : Plain (seen.drop s.strOffset)
  special : 0 < s.strOffset → ¬ Plain (seen.drop (s.strOffset - 1))
  reserved : s.reservedStringSpace = true ↔ 0 < s.strOffset

theorem scanned_start : Scanned [] ⟨0, [], false⟩ where
  offset := Nat.le_refl 0
  buf := rfl
  plain := fun _ member => absurd member List.not_mem_nil
  special := fun some => absurd some (Nat.lt_irrefl 0)
  reserved := by decide

theorem scanned_plain {seen : Bytes} {s : Scan} (scanned : Scanned seen s) {c : UInt8}
    (stays : replacement c = none) : Scanned (seen ++ [c]) s where
  offset := by
    have before := scanned.offset
    rw [List.length_append]
    omega
  buf := by
    rw [scanned.buf, List.take_append_of_le_length scanned.offset]
  plain := by
    rw [List.drop_append_of_le_length scanned.offset]
    exact plain_append.mpr ⟨scanned.plain, fun d member => by
      rw [List.mem_singleton.mp member, stays]⟩
  special := by
    intro some
    rw [List.drop_append_of_le_length (Nat.le_trans (Nat.sub_le _ _) scanned.offset)]
    exact fun plain => scanned.special some (plain_append.mp plain).1
  reserved := scanned.reserved

theorem scanned_special {seen : Bytes} {s : Scan} (scanned : Scanned seen s) {c : UInt8}
    {replaced : Bytes} (special : replacement c = some replaced) :
    Scanned (seen ++ [c])
      ⟨seen.length + 1, s.buf ++ seen.drop s.strOffset ++ replaced, true⟩ where
  offset := by
    rw [List.length_append]
    exact Nat.le_refl _
  buf := by
    have all : (seen ++ [c]).take (seen.length + 1) = seen ++ [c] :=
      List.take_of_length_le (by rw [List.length_append]; exact Nat.le_refl _)
    have last : escaped [c] = replaced := by
      rw [escaped, List.flatMap_singleton, special]
      rfl
    have before : escaped seen = s.buf ++ seen.drop s.strOffset := by
      rw [← List.take_append_drop s.strOffset seen, escaped_append, escaped_plain scanned.plain,
        List.take_append_drop, scanned.buf]
    simp only [all, escaped_append, last, before]
  plain := by
    have none : (seen ++ [c]).drop (seen.length + 1) = [] :=
      List.drop_of_length_le (by rw [List.length_append]; exact Nat.le_refl _)
    simp only [none]
    exact fun _ member => absurd member List.not_mem_nil
  special := by
    intro _ plain
    simp only [Nat.add_sub_cancel, List.drop_left] at plain
    rw [plain c List.mem_cons_self] at special
    cases special
  reserved := by simp

theorem scan_terminated {seen text after : Bytes} {s : Scan} (scanned : Scanned seen s)
    (nonnull : 0 ∉ text) :
    ∃ s', scan (seen ++ (text ++ 0 :: after)) (text ++ 0 :: after) seen.length s = some s' ∧
      Scanned (seen ++ text) s' := by
  induction text generalizing seen s with
  | nil =>
    refine ⟨s, ?_, ?_⟩
    · rw [List.nil_append, scan, if_pos rfl]
    · rw [List.append_nil]
      exact scanned
  | cons c text ih =>
    rw [List.mem_cons, not_or] at nonnull
    obtain ⟨other, later⟩ := nonnull
    have copied : ((seen ++ (c :: text ++ 0 :: after)).drop s.strOffset).take
        (seen.length - s.strOffset) = seen.drop s.strOffset := by
      rw [List.drop_append_of_le_length scanned.offset]
      exact List.take_left' List.length_drop
    have whole : seen ++ (c :: text ++ 0 :: after) = seen ++ [c] ++ (text ++ 0 :: after) := by
      rw [List.append_assoc]
      rfl
    have length : seen.length + 1 = (seen ++ [c]).length := by
      rw [List.length_append]
      rfl
    rw [List.cons_append, scan, if_neg (Ne.symm other), ← List.cons_append]
    cases special : replacement c with
    | none =>
      obtain ⟨s', ends, scanned'⟩ := ih (scanned_plain scanned special) later
      refine ⟨s', ?_, ?_⟩
      · rw [whole, length]
        exact ends
      · rw [List.append_assoc] at scanned'
        exact scanned'
    | some replaced =>
      obtain ⟨s', ends, scanned'⟩ := ih (scanned_special scanned special) later
      rw [← length] at ends
      refine ⟨s', ?_, ?_⟩
      · simp only [copied]
        rw [whole]
        exact ends
      · rw [List.append_assoc] at scanned'
        exact scanned'

theorem scan_unterminated (str : Bytes) {rest : Bytes} (nonnull : 0 ∉ rest) (diff : Nat)
    (s : Scan) : scan str rest diff s = none := by
  induction rest generalizing diff s with
  | nil => rfl
  | cons c rest ih =>
    rw [List.mem_cons, not_or] at nonnull
    rw [scan, if_neg (Ne.symm nonnull.1)]
    cases replacement c with
    | none => exact ih nonnull.2 _ _
    | some replaced => exact ih nonnull.2 _ _

/-! ### What comes out -/

theorem sanitized_terminated (t : Token) {text after : Bytes} (here : t.data = text ++ 0 :: after)
    (nonnull : 0 ∉ text) (nonempty : 0 < t.length) :
    ∃ offset, offset ≤ text.length ∧ Plain (text.drop offset) ∧
      (0 < offset → ¬ Plain (text.drop (offset - 1))) ∧
      t.sanitized = some (escaped (text.take offset) ++ t.bytes.drop offset) := by
  obtain ⟨s, ends, scanned⟩ := @scan_terminated _ text after _ scanned_start nonnull
  rw [List.nil_append, ← here] at ends
  simp only [List.nil_append] at scanned
  refine ⟨s.strOffset, scanned.offset, scanned.plain, scanned.special, ?_⟩
  have copied : (t.data.drop s.strOffset).take (t.length - s.strOffset) =
      t.bytes.drop s.strOffset := List.drop_take.symm
  have whole : scan t.data t.data 0 ⟨0, [], false⟩ = some s := ends
  rw [Token.sanitized, sanitizeString]
  simp only [if_neg (Nat.not_lt.mpr (Nat.succ_le_of_lt nonempty)), whole, Option.map_some, copied,
    Option.some.injEq]
  by_cases some : 0 < s.strOffset
  · rw [if_pos (scanned.reserved.mpr some), Option.getD_some, ← scanned.buf]
    split
    · rfl
    · rename_i done
      have beyond : t.bytes.drop s.strOffset = [] := List.drop_of_length_le (by
        have cut : t.bytes.length ≤ t.length := List.length_take_le _ _
        by_contra short
        exact done ⟨some, by omega⟩)
      rw [beyond, List.append_nil]
  · rw [if_neg fun reserved => some (scanned.reserved.mp reserved), Option.getD_none,
      Nat.eq_zero_of_not_pos some]
    rfl

theorem findIdx_null {text : Bytes} (after : Bytes) (nonnull : 0 ∉ text) :
    (text ++ 0 :: after).findIdx (· = 0) = text.length := by
  induction text with
  | nil => rfl
  | cons c text ih =>
    rw [List.mem_cons, not_or] at nonnull
    rw [List.cons_append, List.findIdx_cons, decide_eq_false (Ne.symm nonnull.1), cond_false,
      ih nonnull.2, List.length_cons]

theorem output_iff {bytes text : Bytes} {offset : Nat} (within : offset ≤ text.length)
    (stays : Plain (text.drop offset)) (special : 0 < offset → ¬ Plain (text.drop (offset - 1)))
    (agree : bytes.take text.length = text.take bytes.length) :
    escaped (text.take offset) ++ bytes.drop offset = escaped bytes ↔
      Plain (bytes.drop text.length) ∧ Plain (text.drop bytes.length) := by
  by_cases short : offset ≤ bytes.length
  · have first : text.take offset = bytes.take offset := by
      have cut := congrArg (List.take offset) agree
      rwa [List.take_take, List.take_take, Nat.min_eq_left within, Nat.min_eq_left short,
        eq_comm] at cut
    have rest : Plain (text.drop bytes.length) := by
      have later := plain_drop stays (bytes.length - offset)
      rwa [List.drop_drop, Nat.add_sub_cancel' short] at later
    have between : Plain (bytes.drop offset) ↔ Plain (bytes.drop text.length) := by
      constructor
      · intro plain
        have later := plain_drop plain (text.length - offset)
        rwa [List.drop_drop, Nat.add_sub_cancel' within] at later
      · intro plain
        have middle : (bytes.drop offset).take (text.length - offset) =
            (text.drop offset).take (bytes.length - offset) := by
          rw [← List.drop_take, ← List.drop_take, agree]
        rw [← List.take_append_drop (text.length - offset) (bytes.drop offset), List.drop_drop,
          Nat.add_sub_cancel' within, middle]
        exact plain_append.mpr ⟨plain_take stays _, plain⟩
    have split : escaped bytes = escaped (bytes.take offset) ++ escaped (bytes.drop offset) := by
      rw [← escaped_append, List.take_append_drop]
    rw [first, split, List.append_cancel_left_eq, and_iff_left rest, ← between]
    exact ⟨fun same => plain_of_escaped same.symm, fun plain => (escaped_plain plain).symm⟩
  · have longer : bytes.length < offset := Nat.lt_of_not_le short
    have beyond : bytes.drop offset = [] := List.drop_of_length_le (Nat.le_of_lt longer)
    have covered : text.take bytes.length = bytes := by
      rw [← agree, List.take_of_length_le (by omega)]
    -- the last replaced character is past the length
    have past : ¬ Plain (text.drop bytes.length) := by
      intro plain
      have last := plain_drop plain (offset - 1 - bytes.length)
      rw [List.drop_drop, Nat.add_sub_cancel' (by omega)] at last
      exact special (by omega) last
    apply iff_of_false
    · intro same
      have first : (text.take offset).take bytes.length = bytes := by
        rw [List.take_take, Nat.min_eq_left (Nat.le_of_lt longer), covered]
      have split := congrArg escaped (List.take_append_drop bytes.length (text.take offset))
      rw [escaped_append, first] at split
      have size : ((text.take offset).drop bytes.length).length = offset - bytes.length := by
        rw [List.length_drop, List.length_take, Nat.min_eq_left within]
      have more := length_le_escaped ((text.take offset).drop bytes.length)
      rw [beyond, List.append_nil] at same
      have lengths := congrArg List.length (split.trans same)
      rw [List.length_append] at lengths
      omega
    · exact fun plain => past plain.2

theorem sanitized_iff (t : Token) : t.sanitized = some (escaped t.bytes) ↔ EndsAlike t := by
  by_cases empty : t.length = 0
  · have nothing : t.bytes = [] := by rw [Token.bytes, empty, List.take_zero]
    have unscanned : t.sanitized = some [] := by
      rw [Token.sanitized, sanitizeString]
      simp only [empty, Nat.lt_one_iff, if_true, Option.map_some, Option.getD_none, nothing]
    exact iff_of_true (by rw [unscanned, nothing]; rfl) (Or.inl empty)
  rw [EndsAlike, or_iff_right empty]
  by_cases terminated : 0 ∈ t.data
  · obtain ⟨text, after, here, nonnull⟩ := List.eq_append_cons_of_mem terminated
    obtain ⟨offset, within, stays, special, output⟩ :=
      sanitized_terminated t here nonnull (Nat.pos_of_ne_zero empty)
    have length : t.bytes.length = t.length := by
      rw [Token.bytes, List.length_take, Nat.min_eq_left t.readable]
    have index : t.data.findIdx (· = 0) = text.length := by rw [here, findIdx_null after nonnull]
    have text_eq : t.data.take text.length = text := by rw [here, List.take_left]
    have agree : t.bytes.take text.length = text.take t.bytes.length := by
      rw [length, ← text_eq, Token.bytes, List.take_take, List.take_take, text_eq, Nat.min_comm]
    rw [output, Option.some.injEq, output_iff within stays special agree, and_iff_right terminated,
      index, length]
    dsimp only
    rcases Nat.le_total text.length t.length with before | behind
    · have nothing : text.drop t.length = [] := List.drop_of_length_le before
      rw [Nat.max_eq_right before, Nat.min_eq_left before, nothing]
      exact and_iff_left fun _ member => absurd member List.not_mem_nil
    · have nothing : t.bytes.drop text.length = [] :=
        List.drop_of_length_le (by rw [length]; exact behind)
      rw [Nat.max_eq_left behind, Nat.min_eq_right behind, nothing, text_eq]
      exact and_iff_right fun _ member => absurd member List.not_mem_nil
  · have runs : t.sanitized = none := by
      rw [Token.sanitized, sanitizeString]
      simp only [if_neg (show ¬ t.length < 1 by omega), scan_unterminated t.data terminated,
        Option.map_none]
    rw [runs]
    exact iff_of_false (fun same => by cases same) fun ends => terminated ends.1

/-! ### A line -/

/-- The fields of a line come out with their special characters replaced and nothing else, hold
    none of these, and can be told apart again. -/
structure Sanitizes (fields : List Token) : Prop where
  output : ∀ t ∈ fields, t.sanitized = some (escaped t.bytes)
  clean : ∀ t ∈ fields, ∀ out, t.sanitized = some out →
    '|'.toUInt8 ∉ out ∧ '\n'.toUInt8 ∉ out ∧ '\r'.toUInt8 ∉ out
  independent : ∀ t ∈ fields, ∀ other : Token, other.bytes = t.bytes → EndsAlike other →
    other.sanitized = t.sanitized
  splits : fields ≠ [] → ∃ outs : List Bytes, fields.map Token.sanitized = outs.map some ∧
    (['|'.toUInt8].intercalate outs).splitOn '|'.toUInt8 = outs

theorem plain_clean {out : Bytes} (plain : Plain out) :
    '|'.toUInt8 ∉ out ∧ '\n'.toUInt8 ∉ out ∧ '\r'.toUInt8 ∉ out := by
  refine ⟨fun member => ?_, fun member => ?_, fun member => ?_⟩
  · exact absurd (plain _ member) (by decide)
  · exact absurd (plain _ member) (by decide)
  · exact absurd (plain _ member) (by decide)

theorem sanitizes_iff (fields : List Token) :
    Sanitizes fields ↔ ∀ t ∈ fields, EndsAlike t := by
  constructor
  · exact fun sanitizes t member => (sanitized_iff t).mp (sanitizes.output t member)
  · intro alike
    have output : ∀ t ∈ fields, t.sanitized = some (escaped t.bytes) :=
      fun t member => (sanitized_iff t).mpr (alike t member)
    refine ⟨output, ?_, ?_, ?_⟩
    · intro t member out same
      rw [output t member, Option.some.injEq] at same
      rw [← same]
      exact plain_clean (plain_escaped t.bytes)
    · intro t member other same alike'
      rw [output t member, (sanitized_iff other).mpr alike', same]
    · intro nonempty
      refine ⟨fields.map fun t => escaped t.bytes, ?_, ?_⟩
      · rw [List.map_map]
        exact List.map_congr_left output
      · refine List.splitOn_intercalate _ ?_ (by simpa using nonempty)
        intro out member
        obtain ⟨t, _, same⟩ := List.mem_map.mp member
        rw [← same]
        exact (plain_clean (plain_escaped t.bytes)).1

/-- A null before a newline that the length covers, and a pipe after the length. -/
theorem null_inside_unsanitized :
    ¬ Sanitizes [⟨[97, 0, 10, 0], 3, by decide⟩] ∧ ¬ Sanitizes [⟨[97, 124, 0], 1, by decide⟩] := by
  refine ⟨fun sanitizes => ?_, fun sanitizes => ?_⟩
  · exact absurd (sanitizes.output _ List.mem_cons_self) (by decide)
  · exact absurd (sanitizes.output _ List.mem_cons_self) (by decide)

end SantaSanitizableString
