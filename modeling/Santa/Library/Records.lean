import Santa.Library.Delimited

/-!
Lines of named values: a name and its value stand on the two sides of a mark, the pairs of a
record are joined by a separator, and each record ends with a stop. What is parsed again are the
records themselves just where no value holds the separator or the stop.
-/
namespace Records
open Delimited
variable {α : Type}

abbrev Record (α : Type) := List (List α × List α)

def pair (mark : α) (f : List α × List α) : List α := f.1 ++ mark :: f.2

def record (sep mark : α) (fs : Record α) : List α := [sep].intercalate (fs.map (pair mark))

def text (stop sep mark : α) (rs : List (Record α)) : List α :=
  terminated stop (rs.map (record sep mark))

theorem mem_pair {mark a : α} {f : List α × List α} :
    a ∈ pair mark f ↔ a ∈ f.1 ∨ a = mark ∨ a ∈ f.2 := by
  simp [pair]

theorem mem_record {sep mark a : α} {fs : Record α} (member : a ∈ record sep mark fs) :
    a = sep ∨ ∃ f ∈ fs, a ∈ pair mark f := by
  induction fs with
  | nil => exact absurd member (by simp [record])
  | cons f fs ih =>
    cases fs with
    | nil =>
      refine .inr ⟨f, List.mem_cons_self, ?_⟩
      simpa [record] using member
    | cons g fs =>
      have shape : record sep mark (f :: g :: fs) =
          pair mark f ++ sep :: record sep mark (g :: fs) := by
        simp [record, List.intercalate]
      rw [shape, List.mem_append, List.mem_cons] at member
      rcases member with first | same | later
      · exact .inr ⟨f, List.mem_cons_self, first⟩
      · exact .inl same
      · refine (ih later).imp_right ?_
        rintro ⟨h, field, here⟩
        exact ⟨h, List.mem_cons_of_mem f field, here⟩

variable [BEq α]

def unpair (mark : α) (w : List α) : List α × List α :=
  (w.takeWhile (· != mark), (w.dropWhile (· != mark)).tail)

def parse (sep mark : α) (line : List α) : Record α := (line.splitOn sep).map (unpair mark)

def parseText (stop sep mark : α) (t : List α) : List (Record α) :=
  (t.splitOn stop).dropLast.map (parse sep mark)

theorem mem_unpair {mark a : α} {w : List α} (member : a ∈ (unpair mark w).2) : a ∈ w :=
  List.dropWhile_subset _ (List.mem_of_mem_tail member)

variable [LawfulBEq α] {stop sep mark : α}

theorem unpair_pair {f : List α × List α} (unmarked : mark ∉ f.1) :
    unpair mark (pair mark f) = f := by
  have name : ∀ a ∈ f.1, (a != mark) = true := by
    intro a member
    rw [bne_iff_ne]
    rintro rfl
    exact unmarked member
  unfold unpair pair
  rw [List.takeWhile_append_of_pos name, List.dropWhile_append_of_pos name]
  simp

theorem mem_splitOn {l w : List α} (piece : w ∈ l.splitOn sep) : sep ∉ w ∧ ∀ a ∈ w, a ∈ l := by
  induction l generalizing w with
  | nil =>
    rw [List.splitOn_nil, List.mem_singleton] at piece
    subst piece
    simp
  | cons b l ih =>
    rw [List.splitOn_cons_eq_if_modifyHead] at piece
    split at piece
    · rcases List.mem_cons.mp piece with rfl | later
      · simp
      · exact ⟨(ih later).1, fun a member => List.mem_cons_of_mem b ((ih later).2 a member)⟩
    · rename_i other
      rw [beq_iff_eq] at other
      obtain ⟨first, rest, shape⟩ := List.exists_cons_of_ne_nil (List.splitOn_ne_nil sep l)
      rw [shape, List.modifyHead_cons] at piece
      rcases List.mem_cons.mp piece with rfl | later
      · have here := ih (w := first) (by rw [shape]; exact List.mem_cons_self)
        refine ⟨?_, ?_⟩
        · rw [List.mem_cons, not_or]
          exact ⟨Ne.symm other, here.1⟩
        · intro a member
          rcases List.mem_cons.mp member with rfl | member
          · exact List.mem_cons_self
          · exact List.mem_cons_of_mem b (here.2 a member)
      · have here := ih (w := w) (by rw [shape]; exact List.mem_cons_of_mem _ later)
        exact ⟨here.1, fun a member => List.mem_cons_of_mem b (here.2 a member)⟩

theorem parse_record {fs : Record α} (some_field : fs ≠ []) (apart : sep ≠ mark)
    (names : ∀ f ∈ fs, sep ∉ f.1 ∧ mark ∉ f.1) (values : ∀ f ∈ fs, sep ∉ f.2) :
    parse sep mark (record sep mark fs) = fs := by
  have pieces : ∀ w ∈ fs.map (pair mark), sep ∉ w := by
    intro w member
    obtain ⟨f, field, rfl⟩ := List.mem_map.mp member
    rw [mem_pair, not_or, not_or]
    exact ⟨(names f field).1, apart, values f field⟩
  unfold parse record
  rw [List.splitOn_intercalate sep pieces (by simpa using some_field), List.map_map]
  exact (List.map_congr_left fun f field => unpair_pair (names f field).2).trans (List.map_id fs)

structure Named (stop sep mark : α) (fs : Record α) : Prop where
  some_field : fs ≠ []
  names : ∀ f ∈ fs, stop ∉ f.1 ∧ sep ∉ f.1 ∧ mark ∉ f.1

theorem parseText_iff {rs : List (Record α)} (sep_mark : sep ≠ mark) (stop_sep : stop ≠ sep)
    (stop_mark : stop ≠ mark) (named : ∀ fs ∈ rs, Named stop sep mark fs) :
    parseText stop sep mark (text stop sep mark rs) = rs ↔
      ∀ fs ∈ rs, ∀ f ∈ fs, stop ∉ f.2 ∧ sep ∉ f.2 := by
  constructor
  · intro same fs member f field
    rw [← same] at member
    obtain ⟨line, of_text, rfl⟩ := List.mem_map.mp member
    obtain ⟨w, of_line, rfl⟩ := List.mem_map.mp field
    have stopless := (mem_splitOn ((List.dropLast_subset _) of_text)).1
    have piece := mem_splitOn of_line
    exact ⟨fun here => stopless (piece.2 _ (mem_unpair here)),
      fun here => piece.1 (mem_unpair here)⟩
  · intro values
    have lines : ∀ w ∈ rs.map (record sep mark), stop ∉ w := by
      intro w member here
      obtain ⟨fs, of_rs, rfl⟩ := List.mem_map.mp member
      rcases mem_record here with same | ⟨f, field, in_pair⟩
      · exact stop_sep same
      · rcases mem_pair.mp in_pair with in_name | same | in_value
        · exact ((named fs of_rs).names f field).1 in_name
        · exact stop_mark same
        · exact (values fs of_rs f field).1 in_value
    unfold parseText text
    rw [splitOn_terminated lines, List.dropLast_concat, List.map_map]
    refine (List.map_congr_left fun fs of_rs => ?_).trans (List.map_id rs)
    exact parse_record (named fs of_rs).some_field sep_mark
      (fun f field => ((named fs of_rs).names f field).2)
      fun f field => (values fs of_rs f field).2

end Records
