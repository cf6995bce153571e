import Santa.ProcessTree.Clients

/-!
Where the annotations of the tree come from. A process inherits the originator of
the process that it forked from or that it was before an exec; an image that is
login or cron makes one where there is none to inherit. Clients decide on an
annotation and set it in two sections, and a process may be forked from before its
own annotation is set, so several clients at once may miss an originator or take a
later one; but they never make one up.
-/
namespace SantaProcessTree
namespace Originators
open ProcessTree Clients

/-- A process that was put into the tree as the child of another, or as its next image. -/
structure Birth where
  source : Pid
  child : Pid
  exec : Bool
  executable : String
  deriving DecidableEq, Repr

/-- An image of the originator's, or a descendant of a process that has one. -/
inductive Justified (births : List Birth) (o : Originator) : Pid → Prop where
  | image {b : Birth} : b ∈ births → b.exec = true →
      originatorPrograms b.executable = some o → Justified births o b.child
  | inherited {b : Birth} : b ∈ births → Justified births o b.source → Justified births o b.child

theorem Justified.mono {births more : List Birth} {o : Originator} {q : Pid}
    (justified : Justified births o q) (subset : ∀ b ∈ births, b ∈ more) :
    Justified more o q := by
  induction justified with
  | image member exec image => exact .image (subset _ member) exec image
  | inherited member _ ih => exact .inherited (subset _ member) ih

def born (s : System) : Label → List Birth
  | .backfill (some parent) unlinked =>
      let p := s.tree.objects parent
      [⟨p.pid, unlinked.pid, unlinked.program ≠ p.program, unlinked.program.executable⟩]
  | .proceed c =>
      match s.clients c with
      | some (.accepted (.fork _ _ newPid) proc) =>
          let p := s.tree.objects proc
          [⟨p.pid, newPid, false, p.program.executable⟩]
      | some (.accepted (.exec _ _ newPid program _) proc) =>
          [⟨(s.tree.objects proc).pid, newPid, true, program.executable⟩]
      | _ => []
  | _ => []

structure Told where
  system : System
  births : List Birth

def Told.start (annotators : List OriginatorAnnotator) : Told := ⟨.start annotators, []⟩

def tell (s : Told) (l : Label) : Option Told :=
  (Clients.step s.system l).map fun system => ⟨system, s.births ++ born s.system l⟩

def Explained (s : Told) : Prop :=
  ∀ r a, (s.system.tree.objects r).annotations = some a →
    Justified s.births a.originator (s.system.tree.objects r).pid

/-! ### Steps that set no annotation -/

/-- The second tree has the processes of the first, and no annotation that the first has not. -/
structure Carries (t t' : ProcessTree) : Prop where
  looks : SameLooks t t'
  linked : Linked t → Linked t'
  noneNew : ∀ r a, (t'.objects r).annotations = some a →
    (t.objects r).annotations = some a ∧ (t'.objects r).pid = (t.objects r).pid

theorem Carries.refl (t : ProcessTree) : Carries t t := ⟨.refl t, id, fun _ _ set => ⟨set, rfl⟩⟩

theorem Carries.trans {t t' t'' : ProcessTree} (first : Carries t t') (second : Carries t' t'') :
    Carries t t'' := by
  refine ⟨first.looks.trans second.looks, fun linked => second.linked (first.linked linked), ?_⟩
  intro r a set
  obtain ⟨before, pid⟩ := second.noneNew r a set
  obtain ⟨earlier, same⟩ := first.noneNew r a before
  exact ⟨earlier, pid.trans same⟩

theorem carries_less {t t' : ProcessTree} (next : t'.nextObject = t.nextObject)
    (same : ∀ r, ∃ n b, t'.objects r = { t.objects r with refcnt := n, tombstoned := b })
    (nothingNew : ∀ q v, t'.map q = some v → t.map q = some v) : Carries t t' := by
  refine ⟨⟨le_of_eq next.symm, fun r _ => ?_⟩, fun linked q r here => ?_, fun r a set => ?_⟩
  · obtain ⟨n, b, object⟩ := same r
    rw [object]
    exact ⟨rfl, rfl, rfl⟩
  · obtain ⟨n, b, object⟩ := same r
    rw [next, object]
    exact linked q r (nothingNew q _ here)
  · obtain ⟨n, b, object⟩ := same r
    rw [object] at set ⊢
    exact ⟨set, rfl⟩

theorem carries_step {t t' : ProcessTree} {timestamp : Nat} {novel : Bool}
    (h : t.step timestamp = some (novel, t')) : Carries t t' := by
  rcases step_cases h with ⟨_, same⟩ | ⟨_, _, seen, _, swept⟩
  · rw [same]
    exact .refl t
  · refine carries_less swept.next (fun r => ?_) swept.nothingNew
    obtain ⟨b, object⟩ := swept.same r
    exact ⟨_, b, object⟩

theorem carries_inserted (t : ProcessTree) (pid : Pid) (cred : Cred) (program : Program)
    (parent : Option ProcessRef) : Carries t (inserted t pid cred program parent) := by
  obtain ⟨grows, looks, _⟩ := inserted_spec t pid cred program parent
  refine ⟨looks, grows.linked, fun r a set => ?_⟩
  rw [inserted, (emplace_frame _ pid t.nextObject).1] at set ⊢
  by_cases made : r = t.nextObject
  · simp [makeShared, made, Process.new] at set
  · simpa [makeShared, made] using set

theorem carries_subscript (t : ProcessTree) (p : Pid) : Carries t (t.subscript p).1 := by
  have same : (t.subscript p).1.objects = t.objects ∧
      (t.subscript p).1.nextObject = t.nextObject := by
    unfold subscript
    split
    · exact ⟨rfl, rfl⟩
    · exact ⟨rfl, rfl⟩
  refine ⟨⟨le_of_eq same.2.symm, fun r _ => by rw [same.1]; exact ⟨rfl, rfl, rfl⟩⟩,
    (grows_subscript t p).linked, fun r a set => ?_⟩
  rw [same.1] at set ⊢
  exact ⟨set, rfl⟩

theorem carries_counted (t : ProcessTree) (r : ProcessRef) (f : Int → Int) :
    Carries t (t.update r fun process => { process with refcnt := f process.refcnt }) := by
  refine carries_less rfl (fun q => ?_) fun _ _ here => here
  by_cases same : q = r
  · exact ⟨f (t.objects r).refcnt, (t.objects r).tombstoned, by simp [update, same]⟩
  · exact ⟨(t.objects q).refcnt, (t.objects q).tombstoned, by simp [update, same]⟩

theorem carries_retainProcess {t t' : ProcessTree} {pids : List Pid}
    (h : t.retainProcess pids = some t') : Carries t t' := by
  refine @Runs.foldlM_keeps _ _ _ (Carries t) (fun s p s' before next => ?_) _ _ _ (.refl t) h
  refine before.trans ?_
  unfold retainOne at next
  split at next
  · rw [← Option.some.inj next]
    exact .refl s
  · cases next
  · rw [← Option.some.inj next]
    exact carries_counted s _ fun n => n + 1

theorem carries_releaseProcess {t t' : ProcessTree} {pids : List Pid}
    (h : t.releaseProcess pids = some t') : Carries t t' := by
  refine @Runs.foldlM_keeps _ _ _ (Carries t) (fun s p s' before next => ?_) _ _ _ (.refl t) h
  refine before.trans ?_
  unfold releaseOne at next
  split at next
  · rw [← Option.some.inj next]
    exact .refl s
  · cases next
  · rename_i r _
    have counted := carries_counted s r fun n => n - 1
    simp only at next
    split at next
    · rw [← Option.some.inj next]
      refine counted.trans (carries_less rfl (fun q => ⟨_, _, rfl⟩) fun q v here => ?_)
      by_cases same : q = p
      · simp [erase, setEntry, same] at here
      · simpa [erase, setEntry, same] using here
    · rw [← Option.some.inj next]
      exact counted

/-! ### Steps that set one -/

theorem annotateProcess_cases {t t' : ProcessTree} {new : ProcessRef} {a : OriginatorAnnotator}
    (h : t.annotateProcess new a = some t') :
    ∃ r, t.map (t.objects new).pid = some (some r) ∧
      t' = t.update r fun process =>
        { process with annotations := process.annotations.or (some a) } := by
  unfold annotateProcess subscript at h
  cases entry : t.map (t.objects new).pid with
  | none =>
    rw [entry] at h
    cases h
  | some v =>
    rw [entry] at h
    obtain ⟨r, here, same⟩ := Option.map_eq_some_iff.mp h
    exact ⟨r, congrArg some here, same.symm⟩

theorem annotateProcess_sets {t t' : ProcessTree} {new : ProcessRef} {a : OriginatorAnnotator}
    (linked : Linked t) (h : t.annotateProcess new a = some t') :
    Linked t' ∧ t'.nextObject = t.nextObject ∧
      (∀ r, (t'.objects r).pid = (t.objects r).pid ∧
        (t'.objects r).program = (t.objects r).program) ∧
      ∀ r b, (t'.objects r).annotations = some b → (t.objects r).annotations = some b ∨
        (b = a ∧ (t.objects r).pid = (t.objects new).pid) := by
  have grows := grows_annotateProcess h
  obtain ⟨m, here, same⟩ := annotateProcess_cases h
  refine ⟨grows.linked linked, by rw [same]; rfl, fun r => ?_, fun r b set => ?_⟩
  · rw [same]
    by_cases it : r = m
    · simp [update, it]
    · simp [update, it]
  · rw [same] at set
    by_cases it : r = m
    · rw [it] at set ⊢
      simp only [update, if_true] at set
      cases before : (t.objects m).annotations with
      | some c =>
        rw [before] at set
        exact .inl set
      | none =>
        rw [before] at set
        exact .inr ⟨(Option.some.inj set).symm, (linked _ m here).2⟩
    · simp only [update, if_neg it] at set
      exact .inl set

/-! ### The invariant -/

def Recorded (births : List Birth) (t : ProcessTree) (exec : Bool)
    (original new : ProcessRef) : Prop :=
  original < t.nextObject ∧ new < t.nextObject ∧
    ⟨(t.objects original).pid, (t.objects new).pid, exec,
      (t.objects new).program.executable⟩ ∈ births

def Known (births : List Birth) (t : ProcessTree) : Phase → Prop
  | .got _ proc | .accepted _ proc => proc < t.nextObject
  | .annotating exec original new _ => Recorded births t exec original new
  | .annotate exec original new a _ =>
      Recorded births t exec original new ∧ Justified births a.originator (t.objects new).pid

def Annotated (births : List Birth) (t : ProcessTree) : Prop :=
  ∀ r a, (t.objects r).annotations = some a →
    Justified births a.originator (t.objects r).pid

structure Traced (s : Told) : Prop where
  linked : Linked s.system.tree
  annotated : Annotated s.births s.system.tree
  known : ∀ c phase, s.system.clients c = some phase → Known s.births s.system.tree phase

theorem Annotated.carries {births more : List Birth} {t t' : ProcessTree}
    (annotated : Annotated births t) (carries : Carries t t') (subset : ∀ b ∈ births, b ∈ more) :
    Annotated more t' := by
  intro r a set
  obtain ⟨before, pid⟩ := carries.noneNew r a set
  rw [pid]
  exact (annotated r a before).mono subset

theorem Recorded.mono {births more : List Birth} {t t' : ProcessTree} {exec : Bool}
    {original new : ProcessRef} (recorded : Recorded births t exec original new)
    (next : t.nextObject ≤ t'.nextObject)
    (same : ∀ r, r < t.nextObject → (t'.objects r).pid = (t.objects r).pid ∧
      (t'.objects r).program = (t.objects r).program)
    (subset : ∀ b ∈ births, b ∈ more) : Recorded more t' exec original new := by
  obtain ⟨old, made, member⟩ := recorded
  refine ⟨lt_of_lt_of_le old next, lt_of_lt_of_le made next, ?_⟩
  rw [(same original old).1, (same new made).1, (same new made).2]
  exact subset _ member

theorem Known.mono {births more : List Birth} {t t' : ProcessTree} {phase : Phase}
    (known : Known births t phase) (next : t.nextObject ≤ t'.nextObject)
    (same : ∀ r, r < t.nextObject → (t'.objects r).pid = (t.objects r).pid ∧
      (t'.objects r).program = (t.objects r).program)
    (subset : ∀ b ∈ births, b ∈ more) : Known more t' phase := by
  cases phase with
  | got e proc => exact lt_of_lt_of_le known next
  | accepted e proc => exact lt_of_lt_of_le known next
  | annotating exec original new rest => exact Recorded.mono known next same subset
  | annotate exec original new a rest =>
    obtain ⟨recorded, justified⟩ := known
    refine ⟨recorded.mono next same subset, ?_⟩
    rw [(same new recorded.2.1).1]
    exact justified.mono subset

theorem decision_justified {births : List Birth} {t : ProcessTree} {exec : Bool}
    {original new : ProcessRef} {a : OriginatorAnnotator}
    (inherits : ∀ b, (t.objects original).annotations = some b →
      Justified births b.originator (t.objects new).pid)
    (image : exec = true → ∀ o, originatorPrograms (t.objects new).program.executable = some o →
      Justified births o (t.objects new).pid)
    (decided : decision t exec original new = some a) :
    Justified births a.originator (t.objects new).pid := by
  unfold decision at decided
  cases inherited : (t.objects original).annotations with
  | some b =>
    rw [inherited] at decided
    rw [← Option.some.inj decided]
    exact inherits b inherited
  | none =>
    rw [inherited] at decided
    cases exec with
    | false => cases decided
    | true =>
      simp only [if_true] at decided
      obtain ⟨o, starts, same⟩ := Option.map_eq_some_iff.mp decided
      rw [← same]
      exact image rfl o starts

theorem annotated_annotateProcess {births : List Birth} {t t' : ProcessTree} {new : ProcessRef}
    {a : OriginatorAnnotator} (linked : Linked t) (annotated : Annotated births t)
    (justified : Justified births a.originator (t.objects new).pid)
    (h : t.annotateProcess new a = some t') : Annotated births t' := by
  obtain ⟨_, _, same, sets⟩ := annotateProcess_sets linked h
  intro r b set
  rw [(same r).1]
  rcases sets r b set with before | ⟨it, pid⟩
  · exact annotated r b before
  · rw [it, pid]
    exact justified

theorem traced_set {s : Told} {t : ProcessTree} {more : List Birth} (traced : Traced s)
    (carries : Carries s.system.tree t) (c : Nat) (next : Option Phase)
    (known : ∀ phase, next = some phase → Known (s.births ++ more) t phase) :
    Traced ⟨{ s.system.set c next with tree := t }, s.births ++ more⟩ := by
  have subset : ∀ b ∈ s.births, b ∈ s.births ++ more :=
    fun b member => List.mem_append_left more member
  refine ⟨carries.linked traced.linked, traced.annotated.carries carries subset, ?_⟩
  intro d phase here
  by_cases same : d = c
  · exact known phase (by simpa [System.set, same] using here)
  · have before : s.system.clients d = some phase := by simpa [System.set, same] using here
    exact (traced.known d phase before).mono carries.looks.next
      (fun r old => ⟨(carries.looks.same r old).1, (carries.looks.same r old).2.1⟩) subset

theorem traced_tree {s : Told} {t : ProcessTree} {more : List Birth} (traced : Traced s)
    (carries : Carries s.system.tree t) :
    Traced ⟨{ s.system with tree := t }, s.births ++ more⟩ := by
  have subset : ∀ b ∈ s.births, b ∈ s.births ++ more :=
    fun b member => List.mem_append_left more member
  refine ⟨carries.linked traced.linked, traced.annotated.carries carries subset, ?_⟩
  exact fun d phase here => (traced.known d phase here).mono carries.looks.next
    (fun r old => ⟨(carries.looks.same r old).1, (carries.looks.same r old).2.1⟩) subset

theorem inserted_object (t : ProcessTree) (pid : Pid) (cred : Cred) (program : Program)
    (parent : Option ProcessRef) :
    (inserted t pid cred program parent).objects t.nextObject =
      .new pid cred program parent := by
  rw [inserted, (emplace_frame _ pid t.nextObject).1, (makeShared_object t _).2]

theorem inserted_others (t : ProcessTree) (pid : Pid) (cred : Cred) (program : Program)
    (parent : Option ProcessRef) {r : ProcessRef} (other : r ≠ t.nextObject) :
    (inserted t pid cred program parent).objects r = t.objects r := by
  rw [inserted, (emplace_frame _ pid t.nextObject).1]
  exact if_neg other

theorem traced_insert {s : Told} {t : ProcessTree} (traced : Traced s) (c : Nat) (exec : Bool)
    {proc : ProcessRef} (made : proc < s.system.tree.nextObject)
    (before : Carries s.system.tree t) (pid : Pid) (cred : Cred) (program : Program)
    (parent : Option ProcessRef) (as : List OriginatorAnnotator) :
    Traced ⟨{ s.system.set c (forAnnotators exec proc t.nextObject as) with
        tree := inserted t pid cred program parent },
      s.births ++ [⟨(s.system.tree.objects proc).pid, pid, exec, program.executable⟩]⟩ := by
  have after := before.trans (carries_inserted t pid cred program parent)
  refine traced_set traced after c _ fun phase waiting => ?_
  obtain ⟨rest, same⟩ := forAnnotators_some waiting
  obtain ⟨_, _, fresh, _⟩ := inserted_spec t pid cred program parent
  rw [same]
  refine ⟨lt_of_lt_of_le made after.looks.next, fresh, ?_⟩
  rw [(after.looks.same proc made).1, inserted_object]
  exact List.mem_append_right _ List.mem_cons_self

theorem traced_locked {s : Told} {c : Nat} {e : Removal.Event} {proc : ProcessRef}
    (traced : Traced s) (here : s.system.clients c = some (.accepted e proc)) :
    Traced ⟨{ s.system.set c (locked s.system.tree proc e).2 with
        tree := (locked s.system.tree proc e).1 },
      s.births ++ born s.system (.proceed c)⟩ := by
  have made : proc < s.system.tree.nextObject := traced.known c _ here
  have recorded : ∀ entries, Carries s.system.tree { s.system.tree with removeAt := entries } :=
    fun _ => carries_less rfl (fun _ => ⟨_, _, rfl⟩) fun _ _ h => h
  cases e with
  | fork timestamp process newPid =>
    simp only [born, here]
    exact traced_insert traced c false made (carries_subscript _ _) newPid _ _ _ _
  | exec timestamp process newPid program cred =>
    simp only [born, here]
    let entries := s.system.tree.removeAt ++ [(timestamp, (s.system.tree.objects proc).pid)]
    exact traced_insert traced c true made (recorded entries) newPid cred program _ _
  | exit timestamp process =>
    simp only [born, here]
    exact traced_set traced (recorded _) c none fun _ none => nomatch none

structure Settled (births : List Birth) (made t : ProcessTree) : Prop where
  linked : Linked t
  annotated : Annotated births t
  next : t.nextObject = made.nextObject
  same : ∀ r, (t.objects r).pid = (made.objects r).pid ∧
    (t.objects r).program = (made.objects r).program

theorem settled_annotate {births : List Birth} {made t t' : ProcessTree} {exec : Bool}
    {original new : ProcessRef} (settled : Settled births made t)
    (justified : ∀ a, decision t exec original new = some a →
      Justified births a.originator (t.objects new).pid)
    (h : (match decision t exec original new with
      | some a => t.annotateProcess new a
      | none => some t) = some t') : Settled births made t' := by
  cases decided : decision t exec original new with
  | none =>
    rw [decided] at h
    rw [← Option.some.inj h]
    exact settled
  | some a =>
    rw [decided] at h
    obtain ⟨linked, next, same, _⟩ := annotateProcess_sets settled.linked h
    have annotated := annotated_annotateProcess settled.linked settled.annotated
      (justified a decided) h
    exact ⟨linked, annotated, next.trans settled.next, fun r =>
      ⟨(same r).1.trans (settled.same r).1, (same r).2.trans (settled.same r).2⟩⟩

theorem traced_backfill {s : Told} {t : ProcessTree} {parent : Option ProcessRef}
    {unlinked : Process} (traced : Traced s)
    (h : s.system.tree.backfillInsert parent unlinked = some t) :
    Traced ⟨{ s.system with tree := t },
      s.births ++ born s.system (.backfill parent unlinked)⟩ := by
  let proc := s.system.tree.nextObject
  let made := inserted s.system.tree unlinked.pid unlinked.effectiveCred unlinked.program parent
  let births := s.births ++ born s.system (.backfill parent unlinked)
  have carries : Carries s.system.tree made := carries_inserted _ _ _ _ _
  have insert : Traced ⟨{ s.system with tree := made }, births⟩ := traced_tree traced carries
  cases parent with
  | none =>
    have same : made = t := Option.some.inj h
    rw [← same]
    exact insert
  | some parent =>
    have child : made.objects proc = _ := inserted_object _ _ _ _ _
    have source : parent ≠ proc → made.objects parent = s.system.tree.objects parent :=
      inserted_others _ _ _ _ _
    have birth : ∀ u, Settled births made u → parent ≠ proc →
        ⟨(u.objects parent).pid, (u.objects proc).pid,
          decide (unlinked.program ≠ (u.objects parent).program),
          (u.objects proc).program.executable⟩ ∈ births := by
      intro u settled other
      rw [(settled.same parent).1, (settled.same parent).2, (settled.same proc).1,
        (settled.same proc).2, source other, child]
      exact List.mem_append_right _ List.mem_cons_self
    -- A process that is its own parent has what it would inherit.
    have inherits : ∀ u, Settled births made u → ∀ b,
        (u.objects parent).annotations = some b →
          Justified births b.originator (u.objects proc).pid := by
      intro u settled b set
      have justified := settled.annotated parent b set
      by_cases itself : parent = proc
      · rw [itself] at justified
        exact justified
      · exact .inherited (birth u settled itself) justified
    have image : ∀ u, Settled births made u → unlinked.program ≠ (u.objects parent).program →
        ∀ o, originatorPrograms (u.objects proc).program.executable = some o →
          Justified births o (u.objects proc).pid := by
      intro u settled differs o starts
      have other : parent ≠ proc := by
        intro itself
        rw [(settled.same parent).2, itself, child] at differs
        exact differs rfl
      exact .image (birth u settled other) (decide_eq_true differs) starts
    have settled : Settled births made t := by
      refine @Runs.foldlM_keeps _ _ _ (Settled births made) ?_ _ _ _
        ⟨insert.linked, insert.annotated, rfl, fun _ => ⟨rfl, rfl⟩⟩ h
      intro u _ u' before next
      obtain ⟨m, forked, rest⟩ := Option.bind_eq_some_iff.mp next
      rw [annotateFork_eq] at forked
      have between := settled_annotate before
        (fun _ => decision_justified (inherits u before) fun (none : false = true) => nomatch none)
        forked
      split at rest
      · rename_i differs
        rw [annotateExec_eq] at rest
        exact settled_annotate between
          (fun _ => decision_justified (inherits m between) fun _ => image m between differs) rest
      · rw [← Option.some.inj rest]
        exact between
    refine ⟨settled.linked, settled.annotated, fun c phase waits => ?_⟩
    exact (insert.known c phase waits).mono (le_of_eq settled.next.symm)
      (fun r _ => settled.same r) fun _ member => member

/-! ### Runs -/

theorem traced_proceed {s : Told} {t : System} {c : Nat} (traced : Traced s)
    (h : Clients.step s.system (.proceed c) = some t) :
    Traced ⟨t, s.births ++ born s.system (.proceed c)⟩ := by
  obtain ⟨phase, here, advanced⟩ := Option.bind_eq_some_iff.mp h
  obtain ⟨⟨tree, next⟩, done, same⟩ := Option.map_eq_some_iff.mp advanced
  simp only at same
  rw [← same]
  have known := traced.known c phase here
  cases phase with
  | got e proc =>
    obtain ⟨⟨novel, m⟩, stepped, answer⟩ := Option.map_eq_some_iff.mp done
    simp only [Prod.mk.injEq] at answer
    rw [← answer.1, ← answer.2]
    refine traced_set traced (carries_step stepped) c _ fun phase waits => ?_
    split at waits
    · rw [← Option.some.inj waits]
      exact lt_of_lt_of_le known (carries_step stepped).looks.next
    · cases waits
  | accepted e proc =>
    have answer : locked s.system.tree proc e = (tree, next) := Option.some.inj done
    have kept := traced_locked traced here
    rw [answer] at kept
    exact kept
  | annotating exec original new rest =>
    have answer := Option.some.inj done
    rw [Prod.mk.injEq] at answer
    rw [← answer.1, ← answer.2]
    have recorded : Recorded (s.births ++ born s.system (.proceed c)) s.system.tree exec original
        new := Recorded.mono known (le_refl _) (fun _ _ => ⟨rfl, rfl⟩)
          fun _ => List.mem_append_left _
    refine traced_set traced (.refl _) c _ fun phase waits => ?_
    split at waits
    · rename_i a decided
      rw [← Option.some.inj waits]
      refine ⟨recorded, Justified.mono (decision_justified ?_ ?_ decided)
        fun b => List.mem_append_left _⟩
      · exact fun b set => .inherited known.2.2 (traced.annotated original b set)
      · exact fun exec o starts => .image known.2.2 exec starts
    · obtain ⟨more, same⟩ := forAnnotators_some waits
      rw [same]
      exact recorded
  | annotate exec original new a rest =>
    obtain ⟨m, set, answer⟩ := Option.map_eq_some_iff.mp done
    rw [Prod.mk.injEq] at answer
    rw [← answer.1, ← answer.2]
    obtain ⟨recorded, justified⟩ := known
    obtain ⟨linked, next, same, _⟩ := annotateProcess_sets traced.linked set
    have nothing : born s.system (.proceed c) = [] := by simp only [born, here]
    have kept : ∀ phase, Known s.births s.system.tree phase → Known s.births m phase :=
      fun phase known => known.mono (le_of_eq next.symm) (fun r _ => same r) fun _ => id
    rw [nothing, List.append_nil]
    refine ⟨linked, annotated_annotateProcess traced.linked traced.annotated justified set, ?_⟩
    intro d phase waits
    by_cases it : d = c
    · simp only [System.set, it, if_true] at waits
      obtain ⟨more, same⟩ := forAnnotators_some waits
      rw [same]
      exact kept (.annotating exec original new more) recorded
    · simp only [System.set, if_neg it] at waits
      exact kept phase (traced.known d phase waits)

theorem traced_enabled {s : System} {births : List Birth} (traced : Traced ⟨s, births⟩) :
    Traced ⟨{ s with enabled := true }, births⟩ :=
  ⟨traced.linked, traced.annotated, traced.known⟩

theorem traced_keep (s : Told) (l : Label) (t : Told) (traced : Traced s) (h : tell s l = some t) :
    Traced t := by
  obtain ⟨system, next, same⟩ := Option.map_eq_some_iff.mp h
  rw [← same]
  cases l with
  | backfill parent unlinked =>
    simp only [Clients.step] at next
    split at next
    · cases next
    · obtain ⟨tree, done, same⟩ := Option.map_eq_some_iff.mp next
      rw [← same]
      exact traced_backfill traced done
  | deliver c e =>
    simp only [Clients.step] at next
    split at next
    · rw [← Option.some.inj next]
      exact traced_enabled (traced_tree traced (.refl _))
    · rename_i proc _ entry
      have made : proc < s.system.tree.nextObject := (traced.linked e.process proc entry).1
      rw [← Option.some.inj next]
      refine traced_enabled (traced_set traced (.refl _) c (some (.got e proc)) ?_)
      intro phase waits
      rw [← Option.some.inj waits]
      exact made
    · cases next
  | proceed c => exact traced_proceed traced next
  | retain pids =>
    obtain ⟨tree, done, same⟩ := Option.map_eq_some_iff.mp next
    rw [← same]
    exact traced_tree traced (carries_retainProcess done)
  | release pids =>
    obtain ⟨tree, done, same⟩ := Option.map_eq_some_iff.mp next
    rw [← same]
    exact traced_tree traced (carries_releaseProcess done)

theorem traced_start (annotators : List OriginatorAnnotator) : Traced (.start annotators) := by
  refine ⟨?_, ?_, ?_⟩
  · intro q r none
    cases none
  · intro r a none
    cases none
  · intro c phase none
    cases none

/-- However the clients are interleaved, an annotation names the originator of an image from which
    the process descends. -/
theorem annotations_justified (annotators : List OriginatorAnnotator) (ls : List Label) :
    Runs.Always tell Explained (.start annotators) ls :=
  Runs.always_mono (fun _ traced => traced.annotated) (Runs.always_of_keep Traced traced_keep
    (traced_start annotators) ls)

/-! ### One event after the other -/

def exportAnnotations (t : ProcessTree) (p : Pid) : Option (Option Originator) :=
  match t.get p with
  | none => some none
  | some none => none
  | some (some proc) => some ((t.objects proc).annotations.map (·.originator))

/-- The first of these images, of which the latest comes first, that is login or cron. -/
def originatorOf : List String → Option Originator
  | [] => none
  | image :: older => (originatorOf older).or (originatorPrograms image)

/-- The tree, and the images that each process has had since the tree knows its line. -/
structure Lines where
  tree : ProcessTree
  images : ProcessRef → List String

def Lines.start (annotators : List OriginatorAnnotator) : Lines := ⟨.new annotators, fun _ => []⟩

def Lines.add (s : Lines) (images : List String) (r : ProcessRef) : List String :=
  if r = s.tree.nextObject then images else s.images r

def Lines.after (s : Lines) : Removal.Label → ProcessRef → List String
  | .backfill none _ => s.add []
  | .backfill (some parent) unlinked =>
      s.add (if unlinked.program ≠ (s.tree.objects parent).program then
        unlinked.program.executable :: s.images parent
      else s.images parent)
  | .event e =>
      match s.tree.get e.process, e with
      | some (some proc), .fork _ _ _ => s.add (s.images proc)
      | some (some proc), .exec _ _ _ program _ => s.add (program.executable :: s.images proc)
      | _, _ => s.images
  | _ => s.images

def Lines.step (s : Lines) (l : Removal.Label) : Option Lines :=
  (Removal.operation s.tree l).map fun tree => ⟨tree, s.after l⟩

/-- A pid with its version is given out once, and a backfilled process comes after its parent. -/
def Fresh (s : Lines) : Removal.Label → Prop
  | .backfill parent unlinked =>
      s.tree.map unlinked.pid = none ∧ ∀ p ∈ parent, p < s.tree.nextObject
  | .event (.fork _ _ newPid) | .event (.exec _ _ newPid _ _) => s.tree.map newPid = none
  | _ => True

instance (s : Lines) : (l : Removal.Label) → Decidable (Fresh s l)
  | .backfill parent unlinked => inferInstanceAs (Decidable
      (s.tree.map unlinked.pid = none ∧ ∀ p ∈ parent, p < s.tree.nextObject))
  | .event (.fork _ _ newPid) => inferInstanceAs (Decidable (s.tree.map newPid = none))
  | .event (.exec _ _ newPid _ _) => inferInstanceAs (Decidable (s.tree.map newPid = none))
  | .event (.exit _ _) | .retain _ | .release _ => inferInstanceAs (Decidable True)

/-- Every process in the tree is logged with the first login or cron of its line. -/
def Exact (annotators : List OriginatorAnnotator) (s : Lines) : Prop :=
  ∀ q r, s.tree.map q = some (some r) →
    exportAnnotations s.tree q =
      some (if annotators = [] then none else originatorOf (s.images r))

def annotatedWith (t : ProcessTree) (new : ProcessRef) (a : Option OriginatorAnnotator) :
    ProcessTree := t.update new fun process => { process with annotations := a }

theorem annotate_new {t : ProcessTree} {original new : ProcessRef}
    (entry : t.map (t.objects new).pid = some (some new)) (other : original ≠ new) (exec : Bool)
    (x : Option OriginatorAnnotator) :
    (match decision (annotatedWith t new x) exec original new with
      | some a => (annotatedWith t new x).annotateProcess new a
      | none => some (annotatedWith t new x)) =
      some (annotatedWith t new (x.or (decision t exec original new))) := by
  have same : decision (annotatedWith t new x) exec original new =
      decision t exec original new := by
    simp [decision, annotatedWith, update, other]
  have pid : ((annotatedWith t new x).objects new).pid = (t.objects new).pid := by
    simp [annotatedWith, update]
  rw [same]
  cases decided : decision t exec original new with
  | none => rw [Option.or_none]
  | some a =>
    have present : (annotatedWith t new x).map ((annotatedWith t new x).objects new).pid =
        some (some new) := by
      rw [pid]
      exact entry
    simp only [annotateProcess_present a present]
    congr 1
    simp only [annotatedWith, update, ProcessTree.mk.injEq, true_and, and_true]
    funext r
    by_cases it : r = new
    · simp [it]
    · simp [it]

theorem annotatedWith_none {t : ProcessTree} {new : ProcessRef}
    (none : (t.objects new).annotations = none) : annotatedWith t new Option.none = t := by
  cases t with
  | mk annotators objects next map removeAt seen =>
    simp only [annotatedWith, update, ProcessTree.mk.injEq, true_and, and_true]
    funext r
    by_cases it : r = new
    · simp only [it, if_true]
      rw [← none]
    · simp [it]

theorem annotators_new {t : ProcessTree} {new : ProcessRef}
    {f : ProcessTree → OriginatorAnnotator → Option ProcessTree} {d : Option OriginatorAnnotator}
    (none : (t.objects new).annotations = none)
    (first : ∀ a, f (annotatedWith t new Option.none) a = some (annotatedWith t new d))
    (again : ∀ a, f (annotatedWith t new d) a = some (annotatedWith t new d))
    (as : List OriginatorAnnotator) :
    as.foldlM f t = some (if as = [] then t else annotatedWith t new d) := by
  have later : ∀ as : List OriginatorAnnotator,
      as.foldlM f (annotatedWith t new d) = some (annotatedWith t new d) := by
    intro as
    induction as with
    | nil => rfl
    | cons a as ih =>
      rw [List.foldlM_cons, again]
      exact ih
  cases as with
  | nil => rfl
  | cons a as =>
    have start := first a
    rw [annotatedWith_none none] at start
    rw [if_neg (List.cons_ne_nil a as), List.foldlM_cons, start]
    exact later as

/-! ### The list of annotators -/

theorem removeOrTombstone_annotators {t t' : ProcessTree} {p : Pid}
    (h : t.removeOrTombstone p = some t') : t'.annotators = t.annotators := by
  unfold removeOrTombstone at h
  split at h
  · rw [← Option.some.inj h]
    rfl
  · cases h
  · split at h
    · rw [← Option.some.inj h]
      rfl
    · rw [← Option.some.inj h]
      rfl

theorem sweep_annotators {t t' : ProcessTree} {cutoff : Nat} {entries : List (Nat × Pid)}
    (h : t.sweep cutoff entries = some t') : t'.annotators = t.annotators := by
  induction entries generalizing t t' with
  | nil =>
    rw [← Option.some.inj h]
  | cons entry rest ih =>
    unfold sweep at h
    split at h
    · obtain ⟨m, first, later⟩ := Option.bind_eq_some_iff.mp h
      exact (ih later).trans (removeOrTombstone_annotators first)
    · obtain ⟨m, later, same⟩ := Option.map_eq_some_iff.mp h
      have kept := ih later
      rw [← same]
      exact kept

theorem step_annotators {t t' : ProcessTree} {timestamp : Nat} {novel : Bool}
    (h : t.step timestamp = some (novel, t')) :
    t'.annotators = t.annotators ∧ t'.nextObject = t.nextObject ∧
      ∀ q v, t'.map q = some v → t.map q = some v := by
  rcases step_cases h with ⟨_, same⟩ | ⟨_, _, seen, _, swept⟩
  · rw [same]
    exact ⟨rfl, rfl, fun _ _ here => here⟩
  · refine ⟨?_, swept.next, swept.nothingNew⟩
    simp only [ProcessTree.step] at h
    split at h
    · cases h
      rfl
    split at h
    · cases h
      rfl
    · obtain ⟨seen, _, rest⟩ := Option.bind_eq_some_iff.mp h
      obtain ⟨m, done, same⟩ := Option.map_eq_some_iff.mp rest
      have kept := sweep_annotators done
      cases same
      exact kept

theorem retainProcess_frame {t t' : ProcessTree} {pids : List Pid}
    (h : t.retainProcess pids = some t') :
    t'.annotators = t.annotators ∧ t'.nextObject = t.nextObject := by
  refine @Runs.foldlM_keeps _ _ _ (fun s => s.annotators = t.annotators ∧
    s.nextObject = t.nextObject) ?_ _ _ _ ⟨rfl, rfl⟩ h
  intro s p s' before next
  unfold retainOne at next
  split at next
  · rw [← Option.some.inj next]
    exact before
  · cases next
  · rw [← Option.some.inj next]
    exact before

theorem releaseProcess_frame {t t' : ProcessTree} {pids : List Pid}
    (h : t.releaseProcess pids = some t') :
    t'.annotators = t.annotators ∧ t'.nextObject = t.nextObject := by
  refine @Runs.foldlM_keeps _ _ _ (fun s => s.annotators = t.annotators ∧
    s.nextObject = t.nextObject) ?_ _ _ _ ⟨rfl, rfl⟩ h
  intro s p s' before next
  unfold releaseOne at next
  split at next
  · rw [← Option.some.inj next]
    exact before
  · cases next
  · simp only at next
    split at next
    · rw [← Option.some.inj next]
      exact before
    · rw [← Option.some.inj next]
      exact before

/-! ### Lines -/

def annotationOf (annotators : List OriginatorAnnotator) (images : List String) :
    Option OriginatorAnnotator :=
  if annotators = [] then none else (originatorOf images).map .mk

structure Lined (annotators : List OriginatorAnnotator) (s : Lines) : Prop where
  same : s.tree.annotators = annotators
  linked : Linked s.tree
  annotated : ∀ r, r < s.tree.nextObject →
    (s.tree.objects r).annotations = annotationOf annotators (s.images r)

theorem exact_of_lined {annotators : List OriginatorAnnotator} {s : Lines}
    (lined : Lined annotators s) : Exact annotators s := by
  intro q r here
  have annotated := lined.annotated r (lined.linked q r here).1
  simp only [exportAnnotations, ProcessTree.get, getLocked, here, annotated, annotationOf]
  split
  · rfl
  · cases originatorOf (s.images r) with
    | none => rfl
    | some o => rfl

theorem lined_carries {annotators : List OriginatorAnnotator} {s : Lines} {t : ProcessTree}
    {images : ProcessRef → List String} (lined : Lined annotators s) (carries : Carries s.tree t)
    (same : t.annotators = s.tree.annotators) (next : t.nextObject = s.tree.nextObject)
    (kept : ∀ r, r < s.tree.nextObject → images r = s.images r) :
    Lined annotators ⟨t, images⟩ := by
  refine ⟨same.trans lined.same, carries.linked lined.linked, fun r made => ?_⟩
  have old : r < s.tree.nextObject := lt_of_lt_of_le made (le_of_eq next)
  have images := congrArg (annotationOf annotators) (kept r old)
  exact (carries.looks.same r old).2.2.trans ((lined.annotated r old).trans images.symm)

theorem inserted_frame (t : ProcessTree) (pid : Pid) (cred : Cred) (program : Program)
    (parent : Option ProcessRef) :
    (inserted t pid cred program parent).nextObject = t.nextObject + 1 ∧
      (inserted t pid cred program parent).annotators = t.annotators ∧
      (t.map pid = none →
        (inserted t pid cred program parent).map pid = some (some t.nextObject)) := by
  refine ⟨(emplace_frame _ pid t.nextObject).2.1, ?_, fun fresh => ?_⟩
  · unfold inserted emplace
    split
    · rfl
    · rfl
  · have absent : (t.makeShared (.new pid cred program parent)).1.map pid = none := fresh
    simp [inserted, emplace, absent, setEntry]

theorem lined_new {annotators : List OriginatorAnnotator} {s : Lines} {t : ProcessTree}
    (lined : Lined annotators s) (carries : Carries s.tree t)
    (same : t.annotators = s.tree.annotators) (next : t.nextObject = s.tree.nextObject)
    (pid : Pid) (cred : Cred) (program : Program) (parent : Option ProcessRef)
    (images : List String) :
    Lined annotators ⟨annotatedWith (inserted t pid cred program parent) t.nextObject
      (annotationOf annotators images), s.add images⟩ := by
  obtain ⟨upTo, kept, _⟩ := inserted_frame t pid cred program parent
  have after := carries.trans (carries_inserted t pid cred program parent)
  refine ⟨(kept.trans same).trans lined.same, ?_, fun r made => ?_⟩
  · have annotated := grows_update (t := inserted t pid cred program parent) t.nextObject
      (f := fun process => { process with annotations := annotationOf annotators images })
      (fun _ => rfl) fun _ => rfl
    exact annotated.linked (after.linked lined.linked)
  · by_cases it : r = t.nextObject
    · have first : r = s.tree.nextObject := it.trans next
      simp [annotatedWith, update, it, Lines.add, next]
    · have old : r < s.tree.nextObject := by
        have bound : r < t.nextObject + 1 := lt_of_lt_of_le made (le_of_eq upTo)
        exact next ▸ Nat.lt_of_le_of_ne (Nat.le_of_lt_succ bound) it
      have other : r ≠ s.tree.nextObject := Nat.ne_of_lt old
      have before := (after.looks.same r old).2.2.trans (lined.annotated r old)
      simpa [annotatedWith, update, it, Lines.add, other] using before

theorem annotators_settle {t : ProcessTree} {new : ProcessRef}
    {f : ProcessTree → OriginatorAnnotator → Option ProcessTree} {d : Option OriginatorAnnotator}
    {images : List String} {final : ProcessTree} {as : List OriginatorAnnotator}
    (none : (t.objects new).annotations = none)
    (each : ∀ a x, x = Option.none ∨ x = d →
      f (annotatedWith t new x) a = some (annotatedWith t new d))
    (line : as ≠ [] → d = annotationOf as images) (h : as.foldlM f t = some final) :
    final = annotatedWith t new (annotationOf as images) := by
  rw [annotators_new none (fun a => each a _ (.inl rfl)) (fun a => each a _ (.inr rfl)),
    Option.some.injEq] at h
  by_cases empty : as = []
  · rw [if_pos empty] at h
    rw [← h, annotationOf, if_pos empty, annotatedWith_none none]
  · rw [if_neg empty] at h
    rw [← h, line empty]

section creation
variable {annotators : List OriginatorAnnotator} {s : Lines} {t : ProcessTree} {pid : Pid}
  {cred : Cred} {program : Program} {parent : Option ProcessRef} {proc : ProcessRef}

theorem decision_line (lined : Lined annotators s) (carries : Carries s.tree t)
    (made : proc < s.tree.nextObject) (some : annotators ≠ []) (exec : Bool) :
    decision (inserted t pid cred program parent) exec proc t.nextObject =
      annotationOf annotators
        (if exec then program.executable :: s.images proc else s.images proc) := by
  have after := carries.trans (carries_inserted t pid cred program parent)
  have inherited := (after.looks.same proc made).2.2.trans (lined.annotated proc made)
  rw [annotationOf, if_neg some] at inherited ⊢
  simp only [decision, inherited, inserted_object]
  cases line : originatorOf (s.images proc) with
  | some o => cases exec <;> simp [originatorOf, line]
  | none => cases exec <;> simp [originatorOf, line, Process.new]

theorem lined_from (lined : Lined annotators s) (carries : Carries s.tree t)
    (same : t.annotators = s.tree.annotators) (next : t.nextObject = s.tree.nextObject)
    (made : proc < s.tree.nextObject) (exec : Bool)
    {f : ProcessTree → OriginatorAnnotator → Option ProcessTree}
    (each : ∀ a x,
      x = none ∨ x = decision (inserted t pid cred program parent) exec proc t.nextObject →
      f (annotatedWith (inserted t pid cred program parent) t.nextObject x) a =
        some (annotatedWith (inserted t pid cred program parent) t.nextObject
          (decision (inserted t pid cred program parent) exec proc t.nextObject)))
    {final : ProcessTree} (h : (inserted t pid cred program parent).annotators.foldlM f
      (inserted t pid cred program parent) = some final) :
    Lined annotators ⟨final, s.add
      (if exec then program.executable :: s.images proc else s.images proc)⟩ := by
  obtain ⟨_, kept, _⟩ := inserted_frame t pid cred program parent
  have nothing :
      ((inserted t pid cred program parent).objects t.nextObject).annotations = none := by
    rw [inserted_object]
    rfl
  rw [kept.trans (same.trans lined.same)] at h
  have settled := annotators_settle nothing each
    (fun some => decision_line lined carries made some exec) h
  rw [settled]
  exact lined_new lined carries same next pid cred program parent _

theorem annotator_once (fresh : t.map pid = none) (other : proc ≠ t.nextObject) (exec : Bool)
    {x : Option OriginatorAnnotator} (settled : x = none ∨
      x = decision (inserted t pid cred program parent) exec proc t.nextObject) :
    (match decision (annotatedWith (inserted t pid cred program parent) t.nextObject x) exec proc
        t.nextObject with
      | some a => (annotatedWith (inserted t pid cred program parent) t.nextObject
          x).annotateProcess t.nextObject a
      | none => some (annotatedWith (inserted t pid cred program parent) t.nextObject x)) =
      some (annotatedWith (inserted t pid cred program parent) t.nextObject
        (decision (inserted t pid cred program parent) exec proc t.nextObject)) := by
  have object := inserted_object t pid cred program parent
  have entry : (inserted t pid cred program parent).map
      ((inserted t pid cred program parent).objects t.nextObject).pid =
        some (some t.nextObject) := by
    rw [object]
    exact (inserted_frame t pid cred program parent).2.2 fresh
  rw [annotate_new entry other exec x]
  rcases settled with none | settled
  · rw [none, Option.none_or]
  · rw [settled, Option.or_self]

end creation

theorem lined_fork {annotators : List OriginatorAnnotator} {s : Lines} {t final : ProcessTree}
    {proc : ProcessRef} {newPid : Pid} (lined : Lined annotators s) (carries : Carries s.tree t)
    (same : t.annotators = s.tree.annotators) (next : t.nextObject = s.tree.nextObject)
    (made : proc < s.tree.nextObject) (fresh : t.map newPid = none)
    (different : (t.objects proc).pid ≠ newPid)
    (h : (t.forkLocked proc newPid).1.annotators.foldlM
      (fun u _ => u.annotateFork proc (t.forkLocked proc newPid).2) (t.forkLocked proc newPid).1 =
        some final) : Lined annotators ⟨final, s.add (s.images proc)⟩ := by
  have found := carries_subscript t (t.objects proc).pid
  have frame : (t.subscript (t.objects proc).pid).1.nextObject = t.nextObject ∧
      (t.subscript (t.objects proc).pid).1.annotators = t.annotators ∧
      (t.subscript (t.objects proc).pid).1.map newPid = none := by
    unfold subscript
    split
    · exact ⟨rfl, rfl, fresh⟩
    · exact ⟨rfl, rfl, by simp [setEntry, different.symm, fresh]⟩
  have other : proc ≠ (t.subscript (t.objects proc).pid).1.nextObject := by
    rw [frame.1, next]
    exact Nat.ne_of_lt made
  refine lined_from lined (carries.trans found) (frame.2.1.trans same) (frame.1.trans next) made
    false ?_ h
  intro a x settled
  exact (annotateFork_eq _ _ _).trans (annotator_once frame.2.2 other false settled)

theorem lined_exec {annotators : List OriginatorAnnotator} {s : Lines} {t final : ProcessTree}
    {proc : ProcessRef} {timestamp : Nat} {newPid : Pid} {program : Program} {cred : Cred}
    (lined : Lined annotators s) (carries : Carries s.tree t)
    (same : t.annotators = s.tree.annotators) (next : t.nextObject = s.tree.nextObject)
    (made : proc < s.tree.nextObject) (fresh : t.map newPid = none)
    (h : (t.execLocked timestamp proc newPid program cred).1.annotators.foldlM
      (fun u _ => u.annotateExec proc (t.execLocked timestamp proc newPid program cred).2)
        (t.execLocked timestamp proc newPid program cred).1 = some final) :
    Lined annotators ⟨final, s.add (program.executable :: s.images proc)⟩ := by
  let entries := t.removeAt ++ [(timestamp, (t.objects proc).pid)]
  have recorded : Carries t { t with removeAt := entries } :=
    carries_less rfl (fun _ => ⟨_, _, rfl⟩) fun _ _ here => here
  have other : proc ≠ t.nextObject := by
    rw [next]
    exact Nat.ne_of_lt made
  refine @lined_from annotators s { t with removeAt := entries } newPid cred program
    (t.objects proc).parent proc lined (carries.trans recorded) same next made true _ ?_ final h
  intro a x settled
  exact (annotateExec_eq _ _ _).trans (@annotator_once { t with removeAt := entries } newPid cred
    program _ proc fresh other true x settled)

theorem backfill_annotator {t : ProcessTree} {proc : ProcessRef} {unlinked : Process}
    (old : proc < t.nextObject) (fresh : t.map unlinked.pid = none)
    {x : Option OriginatorAnnotator} :
    let made := inserted t unlinked.pid unlinked.effectiveCred unlinked.program (some proc)
    let exec := decide (unlinked.program ≠ (t.objects proc).program)
    x = none ∨ x = decision made exec proc t.nextObject →
      (((annotatedWith made t.nextObject x).annotateFork proc t.nextObject).bind fun t' =>
        if unlinked.program ≠ (t'.objects proc).program then t'.annotateExec proc t.nextObject
        else some t') =
        some (annotatedWith made t.nextObject (decision made exec proc t.nextObject)) := by
  intro made exec settled
  let new := t.nextObject
  have other : proc ≠ new := Nat.ne_of_lt old
  have program : ∀ x, ((annotatedWith made new x).objects proc).program =
      (t.objects proc).program := by
    intro x
    have source : made.objects proc = t.objects proc := inserted_others _ _ _ _ _ other
    simp [annotatedWith, update, other, source]
  by_cases differs : unlinked.program ≠ (t.objects proc).program
  · have isExec : exec = true := decide_eq_true differs
    rw [isExec] at settled ⊢
    have entry : made.map (made.objects new).pid = some (some new) := by
      rw [inserted_object]
      exact (inserted_frame _ _ _ _ _).2.2 fresh
    let inherited := x.or (decision made false proc new)
    have forked := (annotateFork_eq (annotatedWith made new x) proc new).trans
      (annotate_new entry other false x)
    have executed := (annotateExec_eq (annotatedWith made new inherited) proc new).trans
      (annotate_new entry other true inherited)
    have answer : inherited.or (decision made true proc new) = decision made true proc new := by
      rcases settled with none | settled
      · cases there : (made.objects proc).annotations with
        | none => simp [inherited, decision, there, none]
        | some b => simp [inherited, decision, there, none]
      · have decided : x = decision made true proc new := settled
        cases there : (made.objects proc).annotations with
        | none => simp [inherited, decision, there, decided]
        | some b => simp [inherited, decision, there, decided]
    rw [answer] at executed
    refine (congrArg (Option.bind · _) forked).trans ?_
    exact (if_pos (program _ ▸ differs)).trans executed
  · have isFork : exec = false := decide_eq_false differs
    rw [isFork] at settled ⊢
    have forked := (annotateFork_eq (annotatedWith made new x) proc new).trans
      (annotator_once fresh other false settled)
    refine (congrArg (Option.bind · _) forked).trans ?_
    exact if_neg (program _ ▸ differs)

theorem lined_backfill {annotators : List OriginatorAnnotator} {s : Lines} {final : ProcessTree}
    {parent : Option ProcessRef} {unlinked : Process} (lined : Lined annotators s)
    (fresh : Fresh s (.backfill parent unlinked))
    (h : s.tree.backfillInsert parent unlinked = some final) :
    Lined annotators ⟨final, s.after (.backfill parent unlinked)⟩ := by
  let made := inserted s.tree unlinked.pid unlinked.effectiveCred unlinked.program parent
  let new := s.tree.nextObject
  have object : made.objects new = _ := inserted_object _ _ _ _ _
  cases parent with
  | none =>
    have same : made = final := Option.some.inj h
    have nothing : annotationOf annotators [] = none := by
      simp [annotationOf, originatorOf]
    have kept := lined_new lined (.refl s.tree) rfl rfl unlinked.pid unlinked.effectiveCred
      unlinked.program none []
    rw [nothing, annotatedWith_none (by rw [object]; rfl)] at kept
    rw [← same]
    exact kept
  | some proc =>
    obtain ⟨fresh, bound⟩ := fresh
    have kept := lined_from lined (.refl s.tree) rfl rfl (bound proc rfl)
      (decide (unlinked.program ≠ (s.tree.objects proc).program))
      (fun _ _ => backfill_annotator (bound proc rfl) fresh) h
    simp only [decide_eq_true_eq] at kept
    exact kept

theorem lined_event {annotators : List OriginatorAnnotator} {s : Lines} {final : ProcessTree}
    {e : Removal.Event} (lined : Lined annotators s) (fresh : Fresh s (.event e))
    (h : Removal.informFromESEvent s.tree e = some final) :
    Lined annotators ⟨final, s.after (.event e)⟩ := by
  unfold Removal.informFromESEvent at h
  simp only [Lines.after]
  split at h
  · rename_i absent
    rw [absent, ← Option.some.inj h]
    exact lined
  · cases h
  rename_i proc entry
  rw [entry]
  obtain ⟨made, pid⟩ := lined.linked e.process proc entry
  cases e with
  | fork timestamp process newPid =>
    obtain ⟨⟨novel, t⟩, stepped, rest⟩ := Option.bind_eq_some_iff.mp h
    obtain ⟨same, next, nothingNew⟩ := step_annotators stepped
    have absent : t.map newPid = none := Option.eq_none_iff_forall_not_mem.mpr fun v there =>
      Option.some_ne_none v ((nothingNew newPid v there).symm.trans fresh)
    have different : (t.objects proc).pid ≠ newPid := by
      rw [((carries_step stepped).looks.same proc made).1, pid]
      intro known
      have there : s.tree.map newPid = some (some proc) := known ▸ entry
      exact Option.some_ne_none _ (there.symm.trans fresh)
    cases novel with
    | true => exact lined_fork lined (carries_step stepped) same next made absent different rest
    | false =>
      have done : t = final := Option.some.inj rest
      rw [← done]
      exact lined_carries lined (carries_step stepped) same next fun r old =>
        if_neg (Nat.ne_of_lt old)
  | exec timestamp process newPid program cred =>
    obtain ⟨⟨novel, t⟩, stepped, rest⟩ := Option.bind_eq_some_iff.mp h
    obtain ⟨same, next, nothingNew⟩ := step_annotators stepped
    have absent : t.map newPid = none := Option.eq_none_iff_forall_not_mem.mpr fun v there =>
      Option.some_ne_none v ((nothingNew newPid v there).symm.trans fresh)
    cases novel with
    | true => exact lined_exec lined (carries_step stepped) same next made absent rest
    | false =>
      have done : t = final := Option.some.inj rest
      rw [← done]
      exact lined_carries lined (carries_step stepped) same next fun r old =>
        if_neg (Nat.ne_of_lt old)
  | exit timestamp process =>
    obtain ⟨⟨novel, t⟩, stepped, rest⟩ := Option.map_eq_some_iff.mp h
    obtain ⟨same, next, _⟩ := step_annotators stepped
    have carried : Lined annotators ⟨t, s.images⟩ :=
      lined_carries lined (carries_step stepped) same next fun _ _ => rfl
    rw [← rest]
    cases novel with
    | true => exact ⟨carried.same, carried.linked, carried.annotated⟩
    | false => exact carried

theorem lined_step {annotators : List OriginatorAnnotator} (s : Lines) (l : Removal.Label)
    (t : Lines) (lined : Lined annotators s) (fresh : Fresh s l) (h : s.step l = some t) :
    Lined annotators t := by
  obtain ⟨tree, done, same⟩ := Option.map_eq_some_iff.mp h
  rw [← same]
  cases l with
  | backfill parent unlinked => exact lined_backfill lined fresh done
  | event e => exact lined_event lined fresh done
  | retain pids =>
    exact lined_carries lined (carries_retainProcess done) (retainProcess_frame done).1
      (retainProcess_frame done).2 fun _ _ => rfl
  | release pids =>
    exact lined_carries lined (carries_releaseProcess done) (releaseProcess_frame done).1
      (releaseProcess_frame done).2 fun _ _ => rfl

/-- With the events handled one after the other, a process is logged with the first login or cron
    of its line. -/
theorem originators_exact (annotators : List OriginatorAnnotator) {ls : List Removal.Label}
    (fresh : Runs.Meets Lines.step Fresh (.start annotators) ls) :
    Runs.Always Lines.step (Exact annotators) (.start annotators) ls :=
  Runs.always_mono (fun _ => exact_of_lined) (Runs.always_of_meets lined_step
    ⟨rfl, fun _ _ none => (by cases none), fun _ none => absurd none (Nat.not_lt_zero _)⟩ fresh)

def loginSession : List Removal.Label :=
  [.backfill none (.new launchd ⟨0, 0⟩ ⟨"/sbin/launchd", []⟩ none),
    .event (.fork 1 launchd ⟨8, 1⟩),
    .event (.exec 2 ⟨8, 1⟩ ⟨8, 2⟩ ⟨"/usr/bin/login", []⟩ ⟨0, 0⟩),
    .event (.exec 3 ⟨8, 2⟩ ⟨8, 3⟩ ⟨"/usr/sbin/cron", []⟩ ⟨0, 0⟩),
    .event (.fork 4 ⟨8, 3⟩ ⟨9, 1⟩)]

theorem loginSession_exact :
    Runs.Always Lines.step (Exact [⟨.unspecified⟩]) (.start [⟨.unspecified⟩]) loginSession :=
  originators_exact [⟨.unspecified⟩] (by decide +kernel)

end Originators
end SantaProcessTree
