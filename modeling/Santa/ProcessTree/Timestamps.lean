import Santa.Library.Runs
import Santa.ProcessTree.Tree

/-!
Novelty of events. The window of 32 timestamps is searched for a timestamp only
when that timestamp is below the newest entry, so the newest event itself is not
recognized when it arrives again. Every other repeat is.
-/
namespace SantaProcessTree
namespace Timestamps

structure StepCall where
  timestamp : Nat
  oldest : Nat
  novel : Bool
  deriving DecidableEq, Repr

/-- A tree with the calls to Step made so far and the answers given. -/
structure History where
  tree : ProcessTree
  calls : List StepCall
  outOfBounds : Bool

def History.new (annotators : List OriginatorAnnotator) : History :=
  ⟨.new annotators, [], false⟩

def History.accepted (s : History) (timestamp : Nat) : Nat :=
  s.calls.countP fun c => c.timestamp = timestamp && c.novel

/- After a write out of bounds nothing more can be said, so the run ends there. -/
def call (s : History) (timestamp : Nat) : Option History :=
  if s.outOfBounds then none
  else match s.tree.step timestamp with
    | none => some { s with outOfBounds := true }
    | some (novel, tree) =>
        some ⟨tree, ⟨timestamp, s.tree.seenTimestamps.front, novel⟩ :: s.calls, false⟩

structure AppliedOnce (s : History) : Prop where
  inBounds : s.outOfBounds = false
  once : ∀ timestamp, s.accepted timestamp ≤ 1
  oldRefused : ∀ c ∈ s.calls, c.timestamp < c.oldest → c.novel = false
  sorted : s.tree.seenTimestamps.entries.Pairwise (· ≤ ·)

structure Inv (s : History) : Prop extends AppliedOnce s where
  /-- What was accepted is still in the window or older than all of it. -/
  remembered : ∀ timestamp, 0 < s.accepted timestamp →
    timestamp ∈ s.tree.seenTimestamps.entries ∨ timestamp < s.tree.seenTimestamps.front
  /-- The window holds accepted timestamps and the zeros it started with. -/
  genuine : ∀ e ∈ s.tree.seenTimestamps.entries, e = 0 ∨ 0 < s.accepted e
  nothingToRemove : s.tree.removeAt = []

theorem entries_ne_nil (seen : SeenTimestamps) : seen.entries ≠ [] := by
  intro empty
  have size := seen.size
  simp [empty] at size

theorem front_mem (seen : SeenTimestamps) : seen.front ∈ seen.entries := by
  have ne := entries_ne_nil seen
  unfold SeenTimestamps.front
  cases h : seen.entries with
  | nil => exact absurd h ne
  | cons x xs => simp

theorem back_mem (seen : SeenTimestamps) : seen.back ∈ seen.entries := by
  have ne := entries_ne_nil seen
  simp only [SeenTimestamps.back, List.getLastD_eq_getLast?, List.getLast?_eq_some_getLast ne,
    Option.getD_some]
  exact List.getLast_mem ne

theorem front_le {seen : SeenTimestamps} (sorted : seen.entries.Pairwise (· ≤ ·)) {e : Nat}
    (member : e ∈ seen.entries) : seen.front ≤ e := by
  unfold SeenTimestamps.front
  cases h : seen.entries with
  | nil => simp [h] at member
  | cons x xs =>
    rw [h] at member sorted
    rcases List.mem_cons.mp member with same | later
    · exact le_of_eq same.symm
    · exact (List.pairwise_cons.mp sorted).1 e later

theorem le_back {seen : SeenTimestamps} (sorted : seen.entries.Pairwise (· ≤ ·)) {e : Nat}
    (member : e ∈ seen.entries) : e ≤ seen.back := by
  have ne := entries_ne_nil seen
  simp only [SeenTimestamps.back, List.getLastD_eq_getLast?, List.getLast?_eq_some_getLast ne,
    Option.getD_some]
  rw [← List.dropLast_concat_getLast ne] at member sorted
  rcases List.mem_append.mp member with early | last
  · exact (List.pairwise_append.mp sorted).2.2 e early _ (by simp)
  · exact le_of_eq (by simpa using last)

theorem insert_none_iff (seen : SeenTimestamps) (timestamp : Nat) :
    seen.insert timestamp = none ↔ ∀ e ∈ seen.entries, timestamp ≤ e := by
  rw [← RecentWindow.lastBelow_none_iff]
  unfold SeenTimestamps.insert
  split
  · simp_all
  · simp_all

theorem insert_some {seen seen' : SeenTimestamps} {timestamp : Nat}
    (h : seen.insert timestamp = some seen') :
    ∃ i, RecentWindow.lastBelow seen.entries timestamp = some i ∧
      seen'.entries = RecentWindow.slide seen.entries i timestamp := by
  unfold SeenTimestamps.insert at h
  split at h
  · simp at h
  · rename_i i found
    simp only [Option.some.injEq] at h
    subst h
    exact ⟨i, found, rfl⟩

theorem step_old {t : ProcessTree} {timestamp : Nat}
    (old : timestamp < t.seenTimestamps.front) : t.step timestamp = some (false, t) := by
  simp [ProcessTree.step, old]

theorem step_seen {t : ProcessTree} {timestamp : Nat}
    (below : timestamp < t.seenTimestamps.back) (seen : timestamp ∈ t.seenTimestamps.entries) :
    t.step timestamp = some (false, t) := by
  simp [ProcessTree.step, below, seen]

theorem step_fresh {t : ProcessTree} {timestamp : Nat}
    (recent : ¬ timestamp < t.seenTimestamps.front)
    (unseen : ¬ (timestamp < t.seenTimestamps.back ∧ timestamp ∈ t.seenTimestamps.entries))
    (empty : t.removeAt = []) :
    t.step timestamp =
      (t.seenTimestamps.insert timestamp).map fun seen =>
        (true, { t with seenTimestamps := seen }) := by
  simp only [ProcessTree.step, recent, unseen, if_false, empty, ProcessTree.sweep, Option.map_some]
  cases t.seenTimestamps.insert timestamp <;> rfl

theorem accepted_cons (tree : ProcessTree) (c : StepCall) (calls : List StepCall) (oob : Bool)
    (timestamp : Nat) :
    (History.mk tree (c :: calls) oob).accepted timestamp =
      (History.mk tree calls oob).accepted timestamp +
        if c.timestamp = timestamp ∧ c.novel then 1 else 0 := by
  simp [History.accepted, List.countP_cons]

theorem inv_refused {s : History} (inv : Inv s) (timestamp : Nat) :
    Inv ⟨s.tree, ⟨timestamp, s.tree.seenTimestamps.front, false⟩ :: s.calls, false⟩ := by
  have same : ∀ ts, (History.mk s.tree
      (⟨timestamp, s.tree.seenTimestamps.front, false⟩ :: s.calls) false).accepted ts =
        s.accepted ts := by
    intro ts
    rw [accepted_cons]
    simp [History.accepted]
  refine ⟨⟨rfl, ?_, ?_, inv.sorted⟩, ?_, ?_, inv.nothingToRemove⟩
  · intro ts
    rw [same]
    exact inv.once ts
  · intro c member older
    rcases List.mem_cons.mp member with new | before
    · subst new
      rfl
    · exact inv.oldRefused c before older
  · intro ts positive
    rw [same] at positive
    exact inv.remembered ts positive
  · intro e member
    rw [same]
    exact inv.genuine e member

theorem insert_window {seen seen' : SeenTimestamps} {timestamp : Nat}
    (sorted : seen.entries.Pairwise (· ≤ ·)) (h : seen.insert timestamp = some seen') :
    seen'.entries.Pairwise (· ≤ ·) ∧ timestamp ∈ seen'.entries ∧
      (∀ e ∈ seen'.entries, e = timestamp ∨ e ∈ seen.entries) ∧
      ∀ e, e ∈ seen.entries ∨ e < seen.front → e ∈ seen'.entries ∨ e < seen'.front := by
  obtain ⟨i, found, entries⟩ := insert_some h
  have moved := RecentWindow.slide_sorted sorted found
  rw [← entries] at moved
  refine ⟨moved, ?_, ?_, ?_⟩
  · rw [entries]
    exact RecentWindow.mem_slide_iff.mpr (Or.inl rfl)
  · intro e member
    rw [entries] at member
    rcases RecentWindow.mem_slide_iff.mp member with new | old
    · exact Or.inl new
    · exact Or.inr (List.mem_of_mem_tail old)
  · rintro e (member | older)
    · rcases RecentWindow.slide_keeps_or_outdates sorted found member with stays | outdated
      · exact Or.inl (by rw [entries]; exact stays)
      · refine Or.inr (outdated _ ?_)
        rw [← entries]
        exact front_mem seen'
    · -- the new oldest entry is the inserted one or was in the window before
      obtain ⟨x, at_i, below⟩ := (RecentWindow.lastBelow_some found).2.1
      have least := front_le sorted (List.mem_of_getElem? at_i)
      have origin := front_mem seen'
      rw [entries] at origin
      rcases RecentWindow.mem_slide_iff.mp origin with new | old
      · exact Or.inr (by rw [new]; omega)
      · have := front_le sorted (List.mem_of_mem_tail old)
        exact Or.inr (by omega)

theorem inv_novel {s : History} (inv : Inv s) {timestamp : Nat} {seen : SeenTimestamps}
    (recent : ¬ timestamp < s.tree.seenTimestamps.front)
    (unseen : timestamp ∉ s.tree.seenTimestamps.entries)
    (inserted : s.tree.seenTimestamps.insert timestamp = some seen) :
    Inv ⟨{ s.tree with seenTimestamps := seen },
      ⟨timestamp, s.tree.seenTimestamps.front, true⟩ :: s.calls, false⟩ := by
  obtain ⟨sorted, has, only, keeps⟩ := insert_window inv.sorted inserted
  have fresh : s.accepted timestamp = 0 := by
    by_contra accepted
    rcases inv.remembered timestamp (by omega) with member | older
    · exact unseen member
    · exact recent older
  have count : ∀ ts, (History.mk { s.tree with seenTimestamps := seen }
      (⟨timestamp, s.tree.seenTimestamps.front, true⟩ :: s.calls) false).accepted ts =
        s.accepted ts + if timestamp = ts then 1 else 0 := by
    intro ts
    rw [accepted_cons]
    simp [History.accepted]
  refine ⟨⟨rfl, ?_, ?_, sorted⟩, ?_, ?_, inv.nothingToRemove⟩
  · intro ts
    rw [count]
    have before := inv.once ts
    by_cases same : timestamp = ts
    · subst same
      simp [fresh]
    · simpa [same] using before
  · intro c member older
    rcases List.mem_cons.mp member with new | before
    · subst new
      exact absurd older recent
    · exact inv.oldRefused c before older
  · intro ts positive
    rw [count] at positive
    by_cases same : timestamp = ts
    · subst same
      exact Or.inl has
    · simp only [same, if_false, Nat.add_zero] at positive
      exact keeps ts (inv.remembered ts positive)
  · intro e member
    rw [count]
    rcases only e member with new | old
    · subst new
      simp
    · rcases inv.genuine e old with zero | accepted
      · exact Or.inl zero
      · exact Or.inr (by omega)

theorem call_running {s : History} (running : s.outOfBounds = false) (timestamp : Nat) :
    call s timestamp = match s.tree.step timestamp with
      | none => some { s with outOfBounds := true }
      | some (novel, tree) =>
          some ⟨tree, ⟨timestamp, s.tree.seenTimestamps.front, novel⟩ :: s.calls, false⟩ := by
  simp [call, running]

theorem call_keeps (s : History) (timestamp : Nat) (t : History) (inv : Inv s)
    (other : timestamp ≠ s.tree.seenTimestamps.back) (h : call s timestamp = some t) : Inv t := by
  rw [call_running inv.inBounds] at h
  by_cases old : timestamp < s.tree.seenTimestamps.front
  · simp only [step_old old, Option.some.injEq] at h
    subst h
    exact inv_refused inv timestamp
  by_cases seen : timestamp ∈ s.tree.seenTimestamps.entries
  · have below : timestamp < s.tree.seenTimestamps.back := by
      have := le_back inv.sorted seen
      omega
    simp only [step_seen below seen, Option.some.injEq] at h
    subst h
    exact inv_refused inv timestamp
  · rw [step_fresh old (fun both => seen both.2) inv.nothingToRemove] at h
    cases inserted : s.tree.seenTimestamps.insert timestamp with
    | none =>
      have above := (insert_none_iff _ _).mp inserted _ (front_mem s.tree.seenTimestamps)
      have same : timestamp = s.tree.seenTimestamps.front := by omega
      exact absurd (same ▸ front_mem s.tree.seenTimestamps) seen
    | some window =>
      simp only [inserted, Option.map_some, Option.some.injEq] at h
      subst h
      exact inv_novel inv old seen inserted

theorem call_breaks (s : History) (timestamp : Nat) (t : History) (inv : Inv s)
    (newest : ¬ timestamp ≠ s.tree.seenTimestamps.back) (h : call s timestamp = some t) :
    ¬ AppliedOnce t := by
  rw [not_not] at newest
  intro safe
  have top := back_mem s.tree.seenTimestamps
  rw [← newest] at top
  have recent : ¬ timestamp < s.tree.seenTimestamps.front := by
    have := front_le inv.sorted top
    omega
  rw [call_running inv.inBounds, step_fresh recent (by omega) inv.nothingToRemove] at h
  cases inserted : s.tree.seenTimestamps.insert timestamp with
  | none =>
    simp only [inserted, Option.map_none, Option.some.injEq] at h
    subst h
    exact absurd safe.inBounds (by simp)
  | some window =>
    simp only [inserted, Option.map_some, Option.some.injEq] at h
    subst h
    rcases inv.genuine timestamp top with zero | before
    · -- an accepted zero would have an entry below it
      obtain ⟨i, found, -⟩ := insert_some inserted
      obtain ⟨x, -, below⟩ := (RecentWindow.lastBelow_some found).2.1
      omega
    · have once := safe.once timestamp
      rw [accepted_cons] at once
      simp only [and_self, if_true, History.accepted] at once before
      omega

theorem inv_new (annotators : List OriginatorAnnotator) : Inv (History.new annotators) := by
  refine ⟨⟨rfl, ?_, ?_, ?_⟩, ?_, ?_, rfl⟩
  · simp [History.new, History.accepted]
  · simp [History.new]
  · exact List.pairwise_replicate.mpr (Or.inr (le_refl 0))
  · simp [History.new, History.accepted]
  · intro e member
    exact Or.inl (List.eq_of_mem_replicate member)

/-- Over any sequence of calls, events are applied at most once exactly as long as no call
    repeats the newest timestamp of the window. -/
theorem applied_once_iff (annotators : List OriginatorAnnotator) (timestamps : List Nat) :
    Runs.Always call AppliedOnce (History.new annotators) timestamps ↔
      Runs.Meets call (fun s timestamp => timestamp ≠ s.tree.seenTimestamps.back)
        (History.new annotators) timestamps :=
  Runs.always_iff_meets Inv (fun _ inv => inv.toAppliedOnce) call_keeps call_breaks
    (inv_new annotators) timestamps

/-- The event at timestamp 5, delivered twice in a row, is accepted twice. -/
theorem newest_timestamp_accepted_twice :
    ¬ ∀ annotators timestamps,
        Runs.Always call AppliedOnce (History.new annotators) timestamps := by
  intro always
  have twice : (Runs.run call (History.new []) [5, 5]).map (fun s => s.accepted 5) = some 2 := by
    decide
  obtain ⟨last, ends, count⟩ := Option.map_eq_some_iff.mp twice
  have once := (Runs.always_last (always [] [5, 5]) ends).once 5
  omega

end Timestamps
end SantaProcessTree
