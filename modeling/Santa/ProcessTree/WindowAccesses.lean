import Santa.Library.Runs
import Santa.ProcessTree.Frames
import Santa.ProcessTree.Timestamps

/-!
The array behind the window, access by access. The search from the back returns
the base of a reverse iterator, the entries in front of it are moved down one by
one, and the timestamp is written just below the base. A read or write outside
the 32 entries is none. All this is the insertion of the model of the tree, and
fails only for a window whose entries all equal the timestamp.
-/
namespace SantaProcessTree
namespace WindowAccesses
open RecentWindow

def read (w : List Nat) (i : Int) : Option Nat := if i < 0 then none else w[i.toNat]?

def write (w : List Nat) (i : Int) (a : Nat) : Option (List Nat) :=
  if 0 ≤ i ∧ i < w.length then some (w.set i.toNat a) else none

/-- The base of the iterator that find_if returns; the entry it looks at is one below. -/
def findBelow (w : List Nat) (timestamp : Nat) : Nat → Option Nat
  | 0 => some 0
  | base + 1 =>
      (read w base).bind fun x =>
        if x < timestamp then some (base + 1) else findBelow w timestamp base

/-- The entries from first up to last, each to the place before it. A loop that misses its end
    reads behind the array before its fuel is used up. -/
def moveDown : Nat → Int → Int → List Nat → Option (List Nat)
  | 0, _, _, _ => none
  | fuel + 1, first, last, w =>
      if first = last then some w
      else (read w first).bind fun x =>
        (write w (first - 1) x).bind fun w => moveDown fuel (first + 1) last w

def insertInPlace (w : List Nat) (timestamp : Nat) : Option (List Nat) :=
  (findBelow w timestamp w.length).bind fun base =>
    (moveDown (w.length + 1) 1 base w).bind fun w => write w (base - 1) timestamp

def stepInPlace (w : List Nat) (timestamp : Nat) : Option (Bool × List Nat) :=
  if timestamp < w.headD 0 then some (false, w)
  else if timestamp < w.getLastD 0 ∧ timestamp ∈ w then some (false, w)
  else (insertInPlace w timestamp).map fun w => (true, w)

/-! ### The accesses, and the list they leave -/

theorem read_inside {w : List Nat} {i : Nat} (inside : i < w.length) :
    read w (i : Int) = some w[i] := by
  simp [read, inside]

theorem write_inside {w : List Nat} {i : Nat} (inside : i < w.length) (a : Nat) :
    write w (i : Int) a = some (w.set i a) := by
  simp [write, inside]

theorem lastBelow_concat (w : List Nat) (x a : Nat) :
    lastBelow (w ++ [x]) a = if x < a then some w.length else lastBelow w a := by
  induction w with
  | nil => simp [lastBelow]
  | cons y ys ih =>
    rw [List.cons_append, lastBelow, ih, lastBelow]
    by_cases below : x < a
    · simp [below]
    · simp [below]

theorem findBelow_eq (w : List Nat) (timestamp : Nat) {base : Nat} (inside : base ≤ w.length) :
    findBelow w timestamp base =
      some (match lastBelow (w.take base) timestamp with
        | some i => i + 1
        | none => 0) := by
  induction base with
  | zero => rfl
  | succ base ih =>
    have entry : base < w.length := inside
    rw [findBelow, read_inside entry, Option.bind_some, List.take_succ_eq_append_getElem entry,
      lastBelow_concat, List.length_take, Nat.min_eq_left (Nat.le_of_lt entry)]
    split
    · rfl
    · exact ih (Nat.le_of_lt entry)

def movedTo (w : List Nat) (first : Nat) : List Nat := (w.drop 1).take first ++ w.drop first

theorem movedTo_length {w : List Nat} {first : Nat} (inside : first < w.length) :
    (movedTo w first).length = w.length := by
  simp only [movedTo, List.length_append, List.length_take, List.length_drop]
  omega

theorem movedTo_step {w : List Nat} {first : Nat} (inside : first + 1 < w.length) :
    (movedTo w first).set first w[first + 1] = movedTo w (first + 1) := by
  have taken : ((w.drop 1).take first).length = first := by
    rw [List.length_take, List.length_drop]
    omega
  have here : first < (w.drop 1).length := by
    rw [List.length_drop]
    omega
  rw [movedTo, List.set_append_right _ _ (Nat.le_of_eq taken), taken, Nat.sub_self, movedTo,
    List.take_succ_eq_append_getElem here, List.drop_eq_getElem_cons (by omega : first < w.length),
    List.set_cons_zero, List.append_assoc, List.singleton_append, List.getElem_drop]
  congr 2
  simp [Nat.add_comm]

theorem movedTo_read {w : List Nat} {first : Nat} (inside : first + 1 < w.length) :
    read (movedTo w first) ((first + 1 : Nat) : Int) = some w[first + 1] := by
  have taken : ((w.drop 1).take first).length = first := by
    rw [List.length_take, List.length_drop]
    omega
  have long : first + 1 < (movedTo w first).length := by
    rw [movedTo_length (by omega)]
    exact inside
  rw [read_inside long]
  simp only [movedTo]
  rw [List.getElem_append_right (by omega)]
  simp only [List.getElem_drop, taken, Nat.add_sub_cancel_left]

theorem moveDown_eq {w : List Nat} {fuel first last : Nat} (before : first ≤ last)
    (inside : last < w.length) (enough : last - first < fuel) :
    moveDown fuel ((first + 1 : Nat) : Int) ((last + 1 : Nat) : Int) (movedTo w first) =
      some (movedTo w last) := by
  induction fuel generalizing first with
  | zero => omega
  | succ fuel ih =>
    rw [moveDown]
    by_cases done : first = last
    · rw [if_pos (by rw [done]), done]
    · have more : first + 1 < w.length := by omega
      have place : ((first + 1 : Nat) : Int) - 1 = (first : Int) := by omega
      have next : ((first + 1 : Nat) : Int) + 1 = ((first + 1 + 1 : Nat) : Int) := by omega
      rw [if_neg (by omega), movedTo_read more, Option.bind_some, place,
        write_inside (by rw [movedTo_length (by omega)]; omega), Option.bind_some,
        movedTo_step more, next]
      exact ih (by omega) (by omega)

theorem moveDown_lost {fuel : Nat} {first last : Int} (lost : last < first) (w : List Nat) :
    moveDown fuel first last w = none := by
  induction fuel generalizing first w with
  | zero => rfl
  | succ fuel ih =>
    rw [moveDown, if_neg (by omega)]
    cases read w first with
    | none => rfl
    | some x =>
      rw [Option.bind_some]
      cases write w (first - 1) x with
      | none => rfl
      | some w' => exact ih (by omega) w'

theorem insertInPlace_eq (w : List Nat) (timestamp : Nat) :
    insertInPlace w timestamp = (lastBelow w timestamp).map fun i => slide w i timestamp := by
  rw [insertInPlace, findBelow_eq w timestamp (Nat.le_refl _), List.take_length,
    Option.bind_some]
  cases found : lastBelow w timestamp with
  | none =>
    have lost : ((0 : Nat) : Int) < 1 := by decide
    simp only [moveDown_lost lost, Option.bind_none, Option.map_none]
  | some i =>
    have inside := (lastBelow_some found).1
    have moved : moveDown (w.length + 1) 1 ((i + 1 : Nat) : Int) w = some (movedTo w i) :=
      moveDown_eq (Nat.zero_le i) inside (by omega)
    have place : ((i + 1 : Nat) : Int) - 1 = (i : Int) := by omega
    have taken : ((w.drop 1).take i).length = i := by
      rw [List.length_take, List.length_drop]
      omega
    simp only [moved, Option.bind_some, place, Option.map_some]
    rw [write_inside (by rw [movedTo_length inside]; exact inside), movedTo,
      List.set_append_right _ _ (Nat.le_of_eq taken), taken, Nat.sub_self,
      List.drop_eq_getElem_cons inside, List.set_cons_zero]
    rfl

theorem insertInPlace_none_iff (w : List Nat) (timestamp : Nat) :
    insertInPlace w timestamp = none ↔ ∀ e ∈ w, timestamp ≤ e := by
  rw [insertInPlace_eq, Option.map_eq_none_iff, lastBelow_none_iff]

theorem step_entries {t t' : ProcessTree} {timestamp : Nat} {novel : Bool}
    (h : t.step timestamp = some (novel, t')) :
    stepInPlace t.seenTimestamps.entries timestamp = some (novel, t'.seenTimestamps.entries) := by
  unfold stepInPlace
  by_cases old : timestamp < t.seenTimestamps.front
  · rw [Timestamps.step_old old, Option.some.injEq, Prod.mk.injEq] at h
    rw [if_pos (show timestamp < t.seenTimestamps.entries.headD 0 from old), ← h.1, ← h.2]
  rw [if_neg (show ¬ timestamp < t.seenTimestamps.entries.headD 0 from old)]
  by_cases seen : timestamp < t.seenTimestamps.back ∧ timestamp ∈ t.seenTimestamps.entries
  · rw [Timestamps.step_seen seen.1 seen.2, Option.some.injEq, Prod.mk.injEq] at h
    rw [if_pos (show timestamp < t.seenTimestamps.entries.getLastD 0 ∧ _ from seen), ← h.1, ← h.2]
  rw [if_neg (show ¬ (timestamp < t.seenTimestamps.entries.getLastD 0 ∧ _) from seen)]
  simp only [ProcessTree.step, old, seen, if_false] at h
  obtain ⟨window, inserted, rest⟩ := Option.bind_eq_some_iff.mp h
  obtain ⟨swept, done, same⟩ := Option.map_eq_some_iff.mp rest
  obtain ⟨i, found, entries⟩ := Timestamps.insert_some inserted
  rw [Prod.mk.injEq] at same
  rw [insertInPlace_eq, found, ← same.1, ← same.2, (ProcessTree.sweep_swept done).seen, entries]
  rfl

/-! ### Runs -/

structure Visited where
  window : List Nat
  last : Option (List Nat × Nat × Bool)
  outOfBounds : Bool
  deriving DecidableEq, Repr

def Visited.new : Visited := ⟨SeenTimestamps.zero.entries, none, false⟩

/- After an access out of bounds nothing more can be said, so the run ends there. -/
def call (s : Visited) (timestamp : Nat) : Option Visited :=
  if s.outOfBounds then none
  else match stepInPlace s.window timestamp with
    | none => some { s with outOfBounds := true }
    | some (novel, w) => some ⟨w, some (s.window, timestamp, novel), false⟩

def DiscardsOldest (before after : List Nat) (timestamp : Nat) : Prop :=
  ∃ oldest rest, before = oldest :: rest ∧ (∀ e ∈ rest, oldest ≤ e) ∧
    after.Perm (timestamp :: rest)

structure InBounds (s : Visited) : Prop where
  inside : s.outOfBounds = false
  discards : ∀ before timestamp novel, s.last = some (before, timestamp, novel) →
    if novel then DiscardsOldest before s.window timestamp else s.window = before

structure Inv (s : Visited) : Prop extends InBounds s where
  size : s.window.length = 32
  sorted : s.window.Pairwise (· ≤ ·)

theorem slide_perm (x : Nat) (xs : List Nat) (i timestamp : Nat) :
    (slide (x :: xs) i timestamp).Perm (timestamp :: xs) := by
  rw [slide_cons]
  have middle : (xs.take i ++ timestamp :: xs.drop i).Perm
      (timestamp :: (xs.take i ++ xs.drop i)) := List.perm_middle
  rwa [List.take_append_drop] at middle

theorem inserted_discards {w w' : List Nat} {timestamp : Nat} (sorted : w.Pairwise (· ≤ ·))
    (h : insertInPlace w timestamp = some w') :
    DiscardsOldest w w' timestamp ∧ w'.length = w.length ∧ w'.Pairwise (· ≤ ·) := by
  rw [insertInPlace_eq, Option.map_eq_some_iff] at h
  obtain ⟨i, found, rfl⟩ := h
  have inside := (lastBelow_some found).1
  refine ⟨?_, slide_length inside timestamp, slide_sorted sorted found⟩
  cases w with
  | nil => cases inside
  | cons x xs => exact ⟨x, xs, rfl, (List.pairwise_cons.mp sorted).1, slide_perm x xs i timestamp⟩

theorem stepInPlace_cases {w : List Nat} {timestamp : Nat} {answer : Option (Bool × List Nat)}
    (h : stepInPlace w timestamp = answer) :
    answer = some (false, w) ∨
      (w.headD 0 ≤ timestamp ∧ answer = (insertInPlace w timestamp).map fun w => (true, w)) := by
  unfold stepInPlace at h
  split at h
  · exact Or.inl h.symm
  · rename_i recent
    split at h
    · exact Or.inl h.symm
    · exact Or.inr ⟨Nat.le_of_not_lt recent, h.symm⟩

theorem head_le {w : List Nat} (sorted : w.Pairwise (· ≤ ·)) {e : Nat} (member : e ∈ w) :
    w.headD 0 ≤ e := by
  cases w with
  | nil => cases member
  | cons x xs =>
    rcases List.mem_cons.mp member with same | later
    · exact Nat.le_of_eq same.symm
    · exact (List.pairwise_cons.mp sorted).1 e later

/-- An access leaves the array only for a window of nothing but the timestamp. -/
theorem stepInPlace_none {s : Visited} (inv : Inv s) {timestamp : Nat}
    (lost : stepInPlace s.window timestamp = none) : ∀ e ∈ s.window, e = timestamp := by
  rcases stepInPlace_cases lost with refused | ⟨recent, inserted⟩
  · cases refused
  · have above := (insertInPlace_none_iff _ _).mp (Option.map_eq_none_iff.mp inserted.symm)
    have first : s.window.headD 0 ∈ s.window := by
      cases window : s.window with
      | nil =>
        have size := inv.size
        rw [window] at size
        cases size
      | cons x xs => exact List.mem_cons_self
    -- the front is no newer than the timestamp, and no entry is older
    have front := above _ first
    intro e member
    have low := head_le inv.sorted member
    by_contra other
    have wanted : timestamp < s.window.getLastD 0 ∧ timestamp ∈ s.window := by
      refine ⟨?_, by rw [Nat.le_antisymm front recent]; exact first⟩
      have ne : s.window ≠ [] := List.ne_nil_of_mem member
      have newest : e ≤ s.window.getLast ne := by
        have sorted := inv.sorted
        rw [← List.dropLast_concat_getLast ne] at member sorted
        rcases List.mem_append.mp member with early | last
        · exact (List.pairwise_append.mp sorted).2.2 e early _ (by simp)
        · exact Nat.le_of_eq (by simpa using last)
      rw [List.getLastD_eq_getLast?, List.getLast?_eq_some_getLast ne, Option.getD_some]
      omega
    rw [stepInPlace, if_neg (Nat.not_lt.mpr recent), if_pos wanted] at lost
    cases lost

theorem call_keeps (s : Visited) (timestamp : Nat) (t : Visited) (inv : Inv s)
    (other : ¬ ∀ e ∈ s.window, e = timestamp) (h : call s timestamp = some t) : Inv t := by
  unfold call at h
  rw [inv.inside] at h
  cases stepped : stepInPlace s.window timestamp with
  | none => exact absurd (stepInPlace_none inv stepped) other
  | some result =>
    obtain ⟨novel, w⟩ := result
    simp only [stepped, Bool.false_eq_true, if_false, Option.some.injEq] at h
    subst h
    rcases stepInPlace_cases stepped with refused | ⟨-, inserted⟩
    · simp only [Option.some.injEq, Prod.mk.injEq] at refused
      obtain ⟨rfl, rfl⟩ := refused
      refine ⟨⟨rfl, ?_⟩, inv.size, inv.sorted⟩
      rintro before timestamp' novel' same
      simp only [Option.some.injEq, Prod.mk.injEq] at same
      rw [← same.1, ← same.2.2]
      simp
    · obtain ⟨w', done, same⟩ := Option.map_eq_some_iff.mp inserted.symm
      rw [Prod.mk.injEq] at same
      obtain ⟨rfl, rfl⟩ := same
      obtain ⟨discards, size, sorted⟩ := inserted_discards inv.sorted done
      refine ⟨⟨rfl, ?_⟩, size.trans inv.size, sorted⟩
      rintro before timestamp' novel' same
      simp only [Option.some.injEq, Prod.mk.injEq] at same
      rw [← same.1, ← same.2.1, ← same.2.2, if_pos rfl]
      exact discards

theorem call_breaks (s : Visited) (timestamp : Nat) (t : Visited) (inv : Inv s)
    (full : ¬ ¬ ∀ e ∈ s.window, e = timestamp) (h : call s timestamp = some t) :
    ¬ InBounds t := by
  rw [not_not] at full
  have lost : stepInPlace s.window timestamp = none := by
    have none := (insertInPlace_none_iff s.window timestamp).mpr
      fun e member => Nat.le_of_eq (full e member).symm
    have ne : s.window ≠ [] := by
      intro empty
      have size := inv.size
      rw [empty] at size
      cases size
    have front : s.window.headD 0 = timestamp := by
      cases window : s.window with
      | nil => exact absurd window ne
      | cons x xs => exact full x (window ▸ List.mem_cons_self)
    have back : s.window.getLastD 0 = timestamp := by
      rw [List.getLastD_eq_getLast?, List.getLast?_eq_some_getLast ne, Option.getD_some]
      exact full _ (List.getLast_mem ne)
    rw [stepInPlace, if_neg (Nat.not_lt.mpr (Nat.le_of_eq front)),
      if_neg fun wanted => Nat.lt_irrefl _ (back ▸ wanted.1), none]
    rfl
  unfold call at h
  rw [inv.inside, lost] at h
  simp only [Bool.false_eq_true, if_false, Option.some.injEq] at h
  subst h
  exact fun safe => absurd safe.inside (by simp)

theorem inv_new : Inv Visited.new := by
  refine ⟨⟨rfl, ?_⟩, SeenTimestamps.zero.size, ?_⟩
  · intro before timestamp novel same
    cases same
  · exact List.pairwise_replicate.mpr (Or.inr (Nat.le_refl 0))

/-- Over any sequence of calls the accesses stay inside the array, and only the oldest entry is
    lost, exactly as long as no call comes with the timestamp that fills the whole window. -/
theorem accesses_in_bounds_iff (timestamps : List Nat) :
    Runs.Always call InBounds Visited.new timestamps ↔
      Runs.Meets call (fun s timestamp => ¬ ∀ e ∈ s.window, e = timestamp) Visited.new
        timestamps :=
  Runs.always_iff_meets Inv (fun _ inv => inv.toInBounds) call_keeps call_breaks inv_new
    timestamps

/-- One timestamp, 33 times over: the last call finds a window filled with it. -/
theorem repeated_timestamp_leaves_array :
    ¬ ∀ timestamps, Runs.Always call InBounds Visited.new timestamps := by
  intro always
  have ends : (Runs.run call Visited.new (List.replicate 33 7)).map Visited.outOfBounds =
      some true := by
    decide +kernel
  obtain ⟨last, ran, lost⟩ := Option.map_eq_some_iff.mp ends
  have inside := (Runs.always_last (always (List.replicate 33 7)) ran).inside
  rw [lost] at inside
  cases inside

end WindowAccesses
end SantaProcessTree
