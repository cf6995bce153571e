import Santa.Library.Forests
import Santa.ProcessTree.Originators

/-!
The processes that run when the tree is made. They are loaded one after the other, each
with the pid of its parent as it is then, so that they need not form a tree: a parent may
be missing, or pids used again may close a cycle. The tree takes those whose parents lead
to pid 0. What the system says of a pid is a parameter.
-/
namespace SantaProcessTree
namespace Backfill
open ProcessTree Clients Originators
open Forests (Entries children Grounded Keyed)

/-- What can be learned of the running processes: the process with a pid, and its parent's. -/
structure Kernel where
  loadPID : Int → Option Process
  parentPid : Int → Option Int

def loaded (kernel : Kernel) (pidList : List Int) : Entries Int Process :=
  pidList.filterMap fun pid =>
    (kernel.loadPID pid).bind fun unlinkedProc =>
      (kernel.parentPid pid).map fun ppid => (ppid, unlinkedProc)

def parentMap (kernel : Kernel) (pidList : List Int) (ppid : Int) : List Process :=
  children (loaded kernel pidList) ppid

/-- `none` is also the answer where the calls nest deeper than `depth`. -/
def backfillInsertChildren (parentMap : Int → List Process) :
    Nat → ProcessTree → Option ProcessRef → Process → Option ProcessTree
  | 0, _, _, _ => none
  | depth + 1, t, parent, unlinkedProc =>
      let proc := t.nextObject
      (t.backfillInsert parent unlinkedProc).bind fun t =>
        (parentMap unlinkedProc.pid.pid).foldlM
          (fun t child => backfillInsertChildren parentMap depth t (some proc) child) t

def backfill (kernel : Kernel) (pidList : List Int) (depth : Nat) (t : ProcessTree) :
    Option ProcessTree :=
  (parentMap kernel pidList 0).foldlM
    (fun t p => backfillInsertChildren (parentMap kernel pidList) depth t none p) t

/-! ### What is to be in the tree -/

/-- A process loads under its own pid, and the kernel's pid 0 does not load. -/
structure Honest (kernel : Kernel) : Prop where
  own : ∀ pid p, kernel.loadPID pid = some p → p.pid.pid = pid
  kernelTask : kernel.loadPID 0 = none

inductive Line (entries : Entries Int Process) : Process → List String → Prop where
  | top {p : Process} : (0, p) ∈ entries → Line entries p []
  | child {m p : Process} {images : List String} : (m.pid.pid, p) ∈ entries →
      Line entries m images →
      Line entries p
        (if p.program ≠ m.program then p.program.executable :: images else images)

def IsLoaded (t : ProcessTree) (p : Process) (r : ProcessRef) : Prop :=
  t.map p.pid = some (some r) ∧ (t.objects r).pid = p.pid ∧
    (t.objects r).effectiveCred = p.effectiveCred ∧ (t.objects r).program = p.program

/-- The process is in the tree, under its parent, with the originator of its line. -/
structure Placed (annotators : List OriginatorAnnotator) (entries : Entries Int Process)
    (t : ProcessTree) (p : Process) : Prop where
  there : ∃ r, IsLoaded t p r ∧
    (((0, p) ∈ entries ∧ (t.objects r).parent = none) ∨
      ∃ m parent, (m.pid.pid, p) ∈ entries ∧ IsLoaded t m parent ∧
        (t.objects r).parent = some parent) ∧
    ∃ images, Line entries p images ∧
      (t.objects r).annotations = annotationOf annotators images

/-- The tree has the processes whose parents lead to pid 0, and no others. -/
structure Mirrors (annotators : List OriginatorAnnotator) (entries : Entries Int Process)
    (t : ProcessTree) : Prop where
  placed : ∀ e ∈ entries, Grounded (·.pid.pid) entries 0 e.2.pid.pid →
    Placed annotators entries t e.2
  only : ∀ q, t.map q ≠ none →
    ∃ e ∈ entries, e.2.pid = q ∧ Grounded (·.pid.pid) entries 0 e.2.pid.pid

/-! ### One process -/

theorem inserted_map_others {t : ProcessTree} {pid q : Pid} (fresh : t.map pid = none)
    (other : q ≠ pid) (cred : Cred) (program : Program) (parent : Option ProcessRef) :
    (inserted t pid cred program parent).map q = t.map q := by
  simp [inserted, emplace, fresh, setEntry, other, makeShared]

theorem backfillInsert_fresh {t : ProcessTree} {parent : Option ProcessRef} {p : Process}
    (fresh : t.map p.pid = none) (bound : ∀ r ∈ parent, r < t.nextObject) :
    ∃ t', t.backfillInsert parent p = some t' ∧ IsLoaded t' p t.nextObject ∧
      (t'.objects t.nextObject).parent = parent ∧
      (∀ q, q ≠ p.pid → t'.map q = t.map q) ∧
      ∀ r, r < t.nextObject → t'.objects r = t.objects r := by
  let made := inserted t p.pid p.effectiveCred p.program parent
  have object : made.objects t.nextObject = _ := inserted_object _ _ _ _ _
  have settled : ∀ a, IsLoaded (annotatedWith made t.nextObject a) p t.nextObject ∧
      ((annotatedWith made t.nextObject a).objects t.nextObject).parent = parent ∧
      (∀ q, q ≠ p.pid → (annotatedWith made t.nextObject a).map q = t.map q) ∧
      ∀ r, r < t.nextObject → (annotatedWith made t.nextObject a).objects r = t.objects r := by
    intro a
    refine ⟨⟨(inserted_frame _ _ _ _ _).2.2 fresh, ?_⟩, ?_, ?_, fun r old => ?_⟩
    · simp [annotatedWith, update, object, Process.new]
    · simp [annotatedWith, update, object, Process.new]
    · exact fun q other => inserted_map_others fresh other _ _ _
    · have other : r ≠ t.nextObject := Nat.ne_of_lt old
      have same : made.objects r = t.objects r := inserted_others _ _ _ _ _ other
      simp [annotatedWith, update, other, same]
  have none : (made.objects t.nextObject).annotations = Option.none := by
    rw [object]
    rfl
  cases parent with
  | none =>
    have plain := settled Option.none
    rw [annotatedWith_none none] at plain
    exact ⟨made, rfl, plain⟩
  | some proc =>
    have old := bound proc rfl
    let exec := decide (p.program ≠ (t.objects proc).program)
    have calls := annotators_new (d := decision made exec proc t.nextObject)
      (f := fun u _ => (u.annotateFork proc t.nextObject).bind fun u =>
        if p.program ≠ (u.objects proc).program then u.annotateExec proc t.nextObject else some u)
      none (fun _ => backfill_annotator old fresh (.inl rfl))
      (fun _ => backfill_annotator old fresh (.inr rfl)) made.annotators
    refine ⟨_, calls, ?_⟩
    split
    · have plain := settled Option.none
      rw [annotatedWith_none none] at plain
      exact plain
    · exact settled _

/-! ### All processes -/

theorem loaded_keys {kernel : Kernel} (honest : Honest kernel) (pidList : List Int) :
    List.Sublist ((loaded kernel pidList).map fun e => e.2.pid.pid) pidList := by
  induction pidList with
  | nil => exact .slnil
  | cons pid rest ih =>
    simp only [loaded] at ih ⊢
    rw [List.filterMap_cons]
    split
    · exact .cons pid ih
    · rename_i e found
      obtain ⟨p, load, parent⟩ := Option.bind_eq_some_iff.mp found
      obtain ⟨ppid, _, same⟩ := Option.map_eq_some_iff.mp parent
      have own := honest.own pid p load
      rw [← same, List.map_cons, own]
      exact .cons_cons pid ih

theorem loaded_keyed {kernel : Kernel} (honest : Honest kernel) {pidList : List Int}
    (distinct : pidList.Nodup) : Keyed (·.pid.pid) (loaded kernel pidList) 0 := by
  refine ⟨distinct.sublist (loaded_keys honest pidList), fun e member zero => ?_⟩
  obtain ⟨pid, _, found⟩ := List.mem_filterMap.mp member
  obtain ⟨p, load, parent⟩ := Option.bind_eq_some_iff.mp found
  obtain ⟨ppid, _, same⟩ := Option.map_eq_some_iff.mp parent
  have own := honest.own pid p load
  rw [← same] at zero
  rw [← own, zero, honest.kernelTask] at load
  cases load

/-- The processes so far are in their places, and nothing else is in the tree. -/
structure Grown (annotators : List OriginatorAnnotator) (entries : Entries Int Process)
    (images : ProcessRef → List String) (visited : List Process) (t : ProcessTree) : Prop where
  lined : Lined annotators ⟨t, images⟩
  known : ∀ p ∈ visited, p ∈ entries.map Prod.snd
  only : ∀ q, t.map q ≠ none → ∃ p ∈ visited, p.pid = q
  placed : ∀ p ∈ visited, ∃ r, IsLoaded t p r ∧ Line entries p (images r) ∧
    (((0, p) ∈ entries ∧ (t.objects r).parent = none) ∨
      ∃ m parent, (m.pid.pid, p) ∈ entries ∧ IsLoaded t m parent ∧
        (t.objects r).parent = some parent)

theorem IsLoaded.kept {t t' : ProcessTree} {p n : Process} {r : ProcessRef} (linked : Linked t)
    (isLoaded : IsLoaded t p r) (fresh : t.map n.pid = none)
    (map : ∀ q, q ≠ n.pid → t'.map q = t.map q)
    (objects : ∀ r, r < t.nextObject → t'.objects r = t.objects r) : IsLoaded t' p r := by
  have other : p.pid ≠ n.pid := fun same =>
    Option.some_ne_none _ (isLoaded.1.symm.trans (same ▸ fresh))
  refine ⟨(map _ other).trans isLoaded.1, ?_⟩
  rw [objects r (linked _ r isLoaded.1).1]
  exact isLoaded.2

theorem after_others (s : Lines) (parent : Option ProcessRef) (p : Process) {r : ProcessRef}
    (other : r ≠ s.tree.nextObject) : s.after (.backfill parent p) r = s.images r := by
  cases parent with
  | none => exact if_neg other
  | some proc => exact if_neg other

theorem grown_line {annotators : List OriginatorAnnotator} {entries : Entries Int Process}
    {images : ProcessRef → List String} {visited : List Process} {t : ProcessTree}
    (grown : Grown annotators entries images visited t) {parent : Option ProcessRef} {ppid : Int}
    {n : Process} (entry : (ppid, n) ∈ entries)
    (hangs : Forests.Hangs (·.pid.pid) 0 (fun t p r => IsLoaded t p r) visited t parent ppid) :
    Line entries n
      ((Lines.mk t images).after (.backfill parent n) t.nextObject) := by
  rcases hangs with ⟨zero, top⟩ | ⟨m, member, r, same, below, isLoaded⟩
  · rw [zero] at entry
    rw [top]
    have nothing : (Lines.mk t images).after (.backfill none n) t.nextObject = [] := if_pos rfl
    rw [nothing]
    exact .top entry
  · obtain ⟨r', isLoaded', line, _⟩ := grown.placed m member
    have equal : r = r' := by
      have both := isLoaded.1.symm.trans isLoaded'.1
      exact Option.some.inj (Option.some.inj both)
    have after : (Lines.mk t images).after (.backfill (some r) n) t.nextObject =
        if n.program ≠ m.program then n.program.executable :: images r else images r := by
      rw [← isLoaded.2.2.2]
      exact if_pos rfl
    rw [below, after, equal]
    exact .child (by rw [← same] at entry; exact entry) line

theorem grown_inserts {annotators : List OriginatorAnnotator} {entries : Entries Int Process}
    (keyed : Keyed (·.pid.pid) entries 0) :
    Forests.Inserts (·.pid.pid) entries 0
      (fun t parent p => (t.backfillInsert parent p).map fun t' => (t', t.nextObject))
      (fun visited t => ∃ images, Grown annotators entries images visited t)
      (fun t p r => IsLoaded t p r) := by
  rintro visited t parent ppid n ⟨images, grown⟩ entry new hangs
  have linked := grown.lined.linked
  have fresh : t.map n.pid = none := by
    by_contra there
    obtain ⟨m, member, same⟩ := grown.only n.pid there
    obtain ⟨e, known, rfl⟩ := List.mem_map.mp (grown.known m member)
    have equal := congrArg Prod.snd (Forests.node_eq keyed known entry (congrArg Pid.pid same))
    rw [equal] at member
    exact new member
  have bound : ∀ r ∈ parent, r < t.nextObject := by
    intro r is
    rcases hangs with ⟨_, top⟩ | ⟨m, _, r', _, below, isLoaded⟩
    · rw [top] at is
      cases is
    · rw [below] at is
      cases is
      exact (linked _ r isLoaded.1).1
  obtain ⟨t', done, here, under, map, objects⟩ := backfillInsert_fresh fresh bound
  have lined := lined_backfill grown.lined ⟨fresh, bound⟩ done
  have kept : ∀ m r, IsLoaded t m r → IsLoaded t' m r :=
    fun m r isLoaded => isLoaded.kept linked fresh map objects
  refine ⟨t', t.nextObject, congrArg (Option.map _) done, ⟨_, lined, ?_, ?_, ?_⟩, here,
    fun m _ r isLoaded => kept m r isLoaded⟩
  · intro m member
    rcases List.mem_append.mp member with before | now
    · exact grown.known m before
    · rw [List.mem_singleton.mp now]
      exact List.mem_map.mpr ⟨_, entry, rfl⟩
  · intro q there
    by_cases same : q = n.pid
    · exact ⟨n, by simp, same.symm⟩
    · rw [map q same] at there
      obtain ⟨m, member, same⟩ := grown.only q there
      exact ⟨m, List.mem_append_left _ member, same⟩
  · intro m member
    rcases List.mem_append.mp member with before | now
    · obtain ⟨r, isLoaded, line, hung⟩ := grown.placed m before
      have old : r < t.nextObject := (linked _ r isLoaded.1).1
      refine ⟨r, kept m r isLoaded, ?_, ?_⟩
      · rw [after_others ⟨t, images⟩ parent n (Nat.ne_of_lt old)]
        exact line
      · rw [objects r old]
        exact hung.imp_right fun ⟨a, b, under, above, same⟩ => ⟨a, b, under, kept a b above, same⟩
    · rw [List.mem_singleton.mp now]
      refine ⟨t.nextObject, here, grown_line grown entry hangs, ?_⟩
      rcases hangs with ⟨zero, top⟩ | ⟨m, _, r, same, below, isLoaded⟩
      · rw [zero] at entry
        exact .inl ⟨entry, under.trans top⟩
      · rw [← same] at entry
        exact .inr ⟨m, r, entry, kept m r isLoaded, under.trans below⟩

theorem backfillInsertChildren_eq (parentMap : Int → List Process) (depth : Nat) :
    backfillInsertChildren parentMap depth =
      Forests.insert (fun p => parentMap p.pid.pid)
        (fun t parent p => (t.backfillInsert parent p).map fun t' => (t', t.nextObject)) depth := by
  induction depth with
  | zero => rfl
  | succ depth ih =>
    funext t parent p
    simp only [backfillInsertChildren, Forests.insert, ih]
    cases t.backfillInsert parent p with
    | none => rfl
    | some t' => rfl

theorem grown_new (annotators : List OriginatorAnnotator) (entries : Entries Int Process) :
    ∃ images, Grown annotators entries images [] (.new annotators) := by
  refine ⟨fun _ => [], ⟨rfl, ?_, ?_⟩, ?_, ?_, ?_⟩
  · intro q r none
    cases none
  · exact fun r none => absurd none (Nat.not_lt_zero r)
  · exact fun p none => absurd none List.not_mem_nil
  · exact fun q some => absurd rfl some
  · exact fun p none => absurd none List.not_mem_nil

/-- However the running processes are listed, the backfill ends, and the tree has each process
    whose parents lead to pid 0 under its parent, annotated with the originator of its line. -/
theorem backfill_mirrors (kernel : Kernel) (honest : Honest kernel) (pidList : List Int)
    (distinct : pidList.Nodup) (annotators : List OriginatorAnnotator) (depth : Nat)
    (deep : pidList.length < depth) :
    ∃ t, backfill kernel pidList depth (.new annotators) = some t ∧
      Mirrors annotators (loaded kernel pidList) t := by
  have keyed := loaded_keyed honest distinct
  have few : (loaded kernel pidList).length < depth := by
    have sub := (loaded_keys honest pidList).length_le
    rw [List.length_map] at sub
    omega
  obtain ⟨t, visited, done, ⟨images, grown⟩, _, mem⟩ := Forests.descent keyed
    (@grown_inserts annotators _ keyed) few (grown_new annotators _)
  refine ⟨t, ?_, fun e member grounded => ?_, fun q there => ?_⟩
  · simp only [backfill, backfillInsertChildren_eq]
    exact done
  · obtain ⟨r, isLoaded, line, parent⟩ :=
      grown.placed e.2 ((mem e.2).mpr ⟨List.mem_map_of_mem member, grounded⟩)
    exact ⟨r, isLoaded, parent, images r, line,
      grown.lined.annotated r (grown.lined.linked _ r isLoaded.1).1⟩
  · obtain ⟨p, seen, same⟩ := grown.only q there
    obtain ⟨known, grounded⟩ := (mem p).mp seen
    obtain ⟨e, member, rfl⟩ := List.mem_map.mp known
    exact ⟨e, member, same, grounded⟩

def bootKernel : Kernel where
  loadPID
    | 1 => some (.new launchd ⟨0, 0⟩ ⟨"/sbin/launchd", []⟩ none)
    | 8 => some (.new ⟨8, 2⟩ ⟨0, 0⟩ ⟨"/usr/bin/login", []⟩ none)
    | 9 => some (.new ⟨9, 1⟩ ⟨0, 0⟩ ⟨"/bin/zsh", []⟩ none)
    | 20 => some (.new ⟨20, 1⟩ ⟨0, 0⟩ ⟨"/bin/zsh", []⟩ none)
    | 21 => some (.new ⟨21, 1⟩ ⟨0, 0⟩ ⟨"/bin/zsh", []⟩ none)
    | _ => none
  parentPid
    | 1 => some 0
    | 8 => some 1
    | 9 => some 8
    | 20 => some 21
    | 21 => some 20
    | _ => none

theorem bootKernel_honest : Honest bootKernel := by
  refine ⟨fun pid p load => ?_, rfl⟩
  unfold bootKernel at load
  dsimp only at load
  split at load
  all_goals cases load; try rfl

theorem bootKernel_mirrors :
    ∃ t, backfill bootKernel [21, 9, 1, 20, 8, 44] 7 (.new [⟨.unspecified⟩]) = some t ∧
      Mirrors [⟨.unspecified⟩] (loaded bootKernel [21, 9, 1, 20, 8, 44]) t :=
  backfill_mirrors bootKernel bootKernel_honest [21, 9, 1, 20, 8, 44] (by decide)
    [⟨.unspecified⟩] 7 (by decide)

end Backfill
end SantaProcessTree
