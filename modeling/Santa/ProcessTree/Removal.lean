import Santa.ProcessTree.Frames

/-!
When processes leave the tree. An exec or an exit records the process for removal
at the event's timestamp; Step removes it once that timestamp is older than the
window. Events are handled one after the other here, in any order and with any
repetition, by whichever client has them. An event of a process that the tree does
not know is ignored.
-/
namespace SantaProcessTree
namespace Removal
open ProcessTree

/-- The process events, of which the exec may come before or after it is authorized. -/
inductive Event where
  | fork (timestamp : Nat) (process newPid : Pid)
  | exec (timestamp : Nat) (process newPid : Pid) (program : Program) (cred : Cred)
  | exit (timestamp : Nat) (process : Pid)
  deriving DecidableEq, Repr

def Event.timestamp : Event → Nat
  | .fork timestamp _ _ | .exec timestamp _ _ _ _ | .exit timestamp _ => timestamp

def Event.process : Event → Pid
  | .fork _ process _ | .exec _ process _ _ _ | .exit _ process => process

def handle (t : ProcessTree) (proc : ProcessRef) : Event → Option ProcessTree
  | .fork timestamp _ newPid => t.handleFork timestamp proc newPid
  | .exec timestamp _ newPid program cred => t.handleExec timestamp proc newPid program cred
  | .exit timestamp _ => t.handleExit timestamp proc

def informFromESEvent (t : ProcessTree) (e : Event) : Option ProcessTree :=
  match t.get e.process with
  | none => some t
  | some none => none
  | some (some proc) => handle t proc e

structure System where
  tree : ProcessTree
  recorded : List (Nat × Pid)

def System.start (annotators : List OriginatorAnnotator) : System := ⟨.new annotators, []⟩

inductive Label where
  | backfill (parent : Option ProcessRef) (unlinked : Process)
  | event (e : Event)
  | retain (pids : List Pid)
  | release (pids : List Pid)

def operation (t : ProcessTree) : Label → Option ProcessTree
  | .backfill parent unlinked => t.backfillInsert parent unlinked
  | .event e => informFromESEvent t e
  | .retain pids => t.retainProcess pids
  | .release pids => t.releaseProcess pids

def step (s : System) (l : Label) : Option System :=
  (operation s.tree l).map fun tree => ⟨tree, s.recorded ++ tree.removeAt⟩

def Older (recorded : List (Nat × Pid)) (t : ProcessTree) (q : Pid) : Prop :=
  ∃ e ∈ recorded, e.2 = q ∧ e.1 < t.seenTimestamps.front

/-- An event that is accepted now finds every process recorded with no earlier timestamp. -/
def StillFound (s : System) : Prop :=
  ∀ timestamp tree, s.tree.step timestamp = some (true, tree) →
    ∀ e ∈ s.recorded, timestamp ≤ e.1 → ∃ r, tree.map e.2 = some (some r)

/-- The same for a process that is not recorded with an outdated timestamp as well. -/
def FoundUnlessOlder (s : System) : Prop :=
  ∀ timestamp tree, s.tree.step timestamp = some (true, tree) →
    ∀ e ∈ s.recorded, timestamp ≤ e.1 → ¬ Older s.recorded s.tree e.2 →
      ∃ r, tree.map e.2 = some (some r)

/-- When an event is accepted, a process whose removal is older than the window goes, unless it
    is retained. -/
def RemovedWhenOld (s : System) : Prop :=
  ∀ timestamp tree, s.tree.step timestamp = some (true, tree) →
    ∀ e ∈ s.tree.removeAt, e.1 < s.tree.seenTimestamps.front →
      tree.map e.2 = none ∨ ∃ r, tree.map e.2 = some (some r) ∧ 0 < (tree.objects r).refcnt

/-- Processes recorded are there unless their time has come, and it has for those that are
    tombstoned. -/
structure Keeps (recorded older : Pid → Prop) (t : ProcessTree) : Prop where
  linked : Linked t
  present : ∀ q, recorded q → (∃ r, t.map q = some (some r)) ∨ older q
  tombstones : ∀ q r, t.map q = some (some r) → (t.objects r).tombstoned = true → older q

theorem keeps_grows {recorded older : Pid → Prop} {t t' : ProcessTree}
    (keeps : Keeps recorded older t) (grows : Grows t t') : Keeps recorded older t' := by
  refine ⟨grows.linked keeps.linked, ?_, ?_⟩
  · intro q known
    rcases keeps.present q known with ⟨r, here⟩ | old
    · exact Or.inl ⟨r, grows.kept q r here⟩
    · exact Or.inr old
  · intro q r here tombstone
    rcases grows.added q r here with before | ⟨_, _, alive⟩
    · rw [(grows.same r (keeps.linked q r before).1).2] at tombstone
      exact keeps.tombstones q r before tombstone
    · rw [tombstone] at alive
      cases alive

theorem keeps_mono {recorded recorded' older older' : Pid → Prop} {t : ProcessTree}
    (keeps : Keeps recorded older t) (wider : ∀ q, older q → older' q)
    (new : ∀ q, recorded' q → recorded q ∨ ∃ r, t.map q = some (some r)) :
    Keeps recorded' older' t := by
  refine ⟨keeps.linked, ?_, fun q r here tombstone => wider q (keeps.tombstones q r here tombstone)⟩
  intro q known
  rcases new q known with before | here
  · rcases keeps.present q before with here | old
    · exact Or.inl here
    · exact Or.inr (wider q old)
  · exact Or.inl here

theorem keeps_swept {recorded older : Pid → Prop} {cutoff : Nat} {entries : List (Nat × Pid)}
    {t t' : ProcessTree} (keeps : Keeps recorded older t) (swept : Swept cutoff entries t t')
    (due : ∀ e ∈ entries, e.1 < cutoff → older e.2) : Keeps recorded older t' := by
  refine ⟨?_, ?_, ?_⟩
  · intro q r here
    rw [swept.pid, swept.next]
    exact keeps.linked q r (swept.nothingNew q _ here)
  · intro q known
    rcases keeps.present q known with ⟨r, here⟩ | old
    · rcases swept.onlyDue q _ here with still | ⟨_, e, member, same, outdated⟩
      · exact Or.inl ⟨r, still⟩
      · rw [← same]
        exact Or.inr (due e member outdated)
    · exact Or.inr old
  · intro q r here tombstone
    have before := swept.nothingNew q _ here
    rcases swept.tombstoned r tombstone with earlier | ⟨e, member, outdated, there⟩
    · exact keeps.tombstones q r before earlier
    · -- the object that was marked is that of its own pid
      rw [← (keeps.linked q r before).2, (keeps.linked e.2 r there).2]
      exact due e member outdated

theorem retainOne_grows {t t' : ProcessTree} {p : Pid} (h : t.retainOne p = some t') :
    Grows t t' := by
  unfold retainOne at h
  split at h
  · rw [← Option.some.inj h]
    exact Grows.refl t
  · cases h
  · rw [← Option.some.inj h]
    exact grows_update _ (fun _ => rfl) fun _ => rfl

theorem keeps_releaseOne {recorded older : Pid → Prop} {t t' : ProcessTree} {p : Pid}
    (keeps : Keeps recorded older t) (h : t.releaseOne p = some t') : Keeps recorded older t' := by
  unfold releaseOne at h
  split at h
  · rw [← Option.some.inj h]
    exact keeps
  · cases h
  · rename_i r entry
    have here : t.map p = some (some r) := entry
    have grows : Grows t
        (t.update r fun process => { process with refcnt := process.refcnt - 1 }) :=
      grows_update r (fun _ => rfl) fun _ => rfl
    have counted := keeps_grows keeps grows
    simp only at h
    split at h
    · rename_i last
      have old := counted.tombstones p r (grows.kept p r here) last.2
      rw [← Option.some.inj h]
      refine ⟨?_, ?_, ?_⟩
      · intro q s there
        by_cases same : q = p
        · simp [erase, setEntry, same] at there
        · simp only [erase, setEntry, if_neg same] at there
          exact counted.linked q s there
      · intro q known
        by_cases same : q = p
        · rw [same]
          exact Or.inr old
        · rcases counted.present q known with ⟨s, there⟩ | outdated
          · exact Or.inl ⟨s, by simp [erase, setEntry, same, there]⟩
          · exact Or.inr outdated
      · intro q s there tombstone
        by_cases same : q = p
        · simp [erase, setEntry, same] at there
        · simp only [erase, setEntry, if_neg same] at there
          exact counted.tombstones q s there tombstone
    · rw [← Option.some.inj h]
      exact counted

structure Inv (recorded : List (Nat × Pid)) (t : ProcessTree) : Prop where
  sorted : t.seenTimestamps.entries.Pairwise (· ≤ ·)
  listed : ∀ e ∈ t.removeAt, e ∈ recorded
  keeps : Keeps (fun q => ∃ e ∈ recorded, e.2 = q) (Older recorded t) t

theorem inv_grows {recorded : List (Nat × Pid)} {t t' : ProcessTree} (inv : Inv recorded t)
    (grows : Grows t t') : Inv recorded t' := by
  refine ⟨?_, ?_, ?_⟩
  · rw [grows.seen]
    exact inv.sorted
  · rw [grows.removeAt]
    exact inv.listed
  · refine keeps_mono (keeps_grows inv.keeps grows) ?_ fun q known => Or.inl known
    rintro q ⟨e, member, same, old⟩
    rw [← grows.seen] at old
    exact ⟨e, member, same, old⟩

theorem older_step {recorded : List (Nat × Pid)} {t t' : ProcessTree} {timestamp : Nat}
    {novel : Bool} (inv : Inv recorded t) (h : t.step timestamp = some (novel, t')) {q : Pid}
    (older : Older recorded t q) : Older recorded t' q := by
  obtain ⟨e, member, same, old⟩ := older
  exact ⟨e, member, same, lt_of_lt_of_le old (step_window inv.sorted h).2⟩

theorem inv_step {recorded : List (Nat × Pid)} {t t' : ProcessTree} {timestamp : Nat} {novel : Bool}
    (inv : Inv recorded t) (h : t.step timestamp = some (novel, t')) : Inv recorded t' := by
  rcases step_cases h with ⟨_, same⟩ | ⟨_, _, seen, _, swept⟩
  · rw [same]
    exact inv
  · have window := step_window inv.sorted h
    refine ⟨window.1, fun e member => inv.listed e (swept.removeAt e member), ?_⟩
    have before : Keeps (fun q => ∃ e ∈ recorded, e.2 = q) (Older recorded t)
        { t with seenTimestamps := seen } :=
      ⟨inv.keeps.linked, inv.keeps.present, inv.keeps.tombstones⟩
    refine keeps_mono (keeps_swept before swept ?_) (fun q => older_step inv h)
      fun q known => Or.inl known
    exact fun e member old => ⟨e, inv.listed e member, rfl, old⟩

/-- A process is still there after a call of Step, unless it is recorded as older. -/
theorem present_step {recorded : List (Nat × Pid)} {t t' : ProcessTree} {timestamp : Nat}
    {novel : Bool} (inv : Inv recorded t) (h : t.step timestamp = some (novel, t')) {q : Pid}
    {r : ProcessRef} (here : t.map q = some (some r)) :
    t'.map q = some (some r) ∨ Older recorded t q := by
  rcases step_cases h with ⟨_, same⟩ | ⟨_, _, seen, _, swept⟩
  · rw [same]
    exact Or.inl here
  · rcases swept.onlyDue q _ here with still | ⟨_, e, member, same, old⟩
    · exact Or.inl still
    · exact Or.inr ⟨e, inv.listed e member, same, old⟩

theorem step_object {t t' : ProcessTree} {timestamp : Nat} {novel : Bool}
    (h : t.step timestamp = some (novel, t')) (r : ProcessRef) :
    (t'.objects r).pid = (t.objects r).pid := by
  rcases step_cases h with ⟨_, same⟩ | ⟨_, _, seen, _, swept⟩
  · rw [same]
  · exact swept.pid r

theorem inv_record {recorded : List (Nat × Pid)} {t : ProcessTree} (inv : Inv recorded t)
    (entry : Nat × Pid) (known : (∃ r, t.map entry.2 = some (some r)) ∨ Older recorded t entry.2) :
    Inv (recorded ++ [entry]) { t with removeAt := t.removeAt ++ [entry] } := by
  refine ⟨inv.sorted, ?_, ?_⟩
  · intro e member
    rcases List.mem_append.mp member with old | new
    · exact List.mem_append_left _ (inv.listed e old)
    · exact List.mem_append_right _ new
  · have wider : ∀ q, Older recorded t q → Older (recorded ++ [entry]) t q := by
      rintro q ⟨e, member, same, old⟩
      exact ⟨e, List.mem_append_left _ member, same, old⟩
    refine ⟨inv.keeps.linked, ?_, ?_⟩
    · rintro q ⟨e, member, same⟩
      rw [← same]
      rcases List.mem_append.mp member with old | new
      · rcases inv.keeps.present e.2 ⟨e, old, rfl⟩ with here | older
        · exact Or.inl here
        · exact Or.inr (wider e.2 older)
      · rw [List.mem_singleton.mp new]
        rcases known with here | older
        · exact Or.inl here
        · exact Or.inr (wider entry.2 older)
    · exact fun q r here tombstone => wider q (inv.keeps.tombstones q r here tombstone)

theorem inv_more {recorded more : List (Nat × Pid)} {t : ProcessTree} (inv : Inv recorded t)
    (given : ∀ e ∈ more, e ∈ recorded) : Inv (recorded ++ more) t := by
  have wider : ∀ q, Older recorded t q → Older (recorded ++ more) t q := by
    rintro q ⟨e, member, same, old⟩
    exact ⟨e, List.mem_append_left _ member, same, old⟩
  refine ⟨inv.sorted, fun e member => List.mem_append_left _ (inv.listed e member), ?_⟩
  refine keeps_mono inv.keeps wider ?_
  rintro q ⟨e, member, same⟩
  rcases List.mem_append.mp member with old | new
  · exact Or.inl ⟨e, old, same⟩
  · exact Or.inl ⟨e, given e new, same⟩

theorem inv_recorded {recorded : List (Nat × Pid)} {entries : List (Nat × Pid)}
    {t : ProcessTree} (entry : Nat × Pid) (inv : Inv (recorded ++ [entry]) t)
    (listed : ∀ e ∈ entries, e ∈ recorded) (removeAt : t.removeAt = entries ++ [entry]) :
    Inv (recorded ++ t.removeAt) t := by
  have members : ∀ e, e ∈ recorded ++ t.removeAt ↔ e ∈ recorded ++ [entry] := by
    intro e
    rw [removeAt, List.mem_append, List.mem_append, List.mem_append]
    constructor
    · rintro (old | entries | new)
      · exact Or.inl old
      · exact Or.inl (listed e entries)
      · exact Or.inr new
    · rintro (old | new)
      · exact Or.inl old
      · exact Or.inr (Or.inr new)
  refine ⟨inv.sorted, fun e member => List.mem_append_right _ member, ?_⟩
  refine keeps_mono inv.keeps ?_ ?_
  · rintro q ⟨e, member, same, old⟩
    exact ⟨e, (members e).mpr member, same, old⟩
  · rintro q ⟨e, member, same⟩
    exact Or.inl ⟨e, (members e).mp member, same⟩

theorem inv_exit {recorded : List (Nat × Pid)} {t : ProcessTree} {q : Pid} {proc : ProcessRef}
    (inv : Inv recorded t) (timestamp : Nat) (pid : (t.objects proc).pid = q)
    (known : (∃ r, t.map q = some (some r)) ∨ Older recorded t q) :
    Inv (recorded ++ (t.exitLocked timestamp proc).removeAt) (t.exitLocked timestamp proc) := by
  refine inv_recorded (timestamp, q) ?_ inv.listed ?_
  · have recorded := inv_record inv (timestamp, q) known
    simpa [exitLocked, pid] using recorded
  · simp [exitLocked, pid]

theorem inv_exec {recorded : List (Nat × Pid)} {t : ProcessTree} {q : Pid} {proc : ProcessRef}
    (inv : Inv recorded t) (timestamp : Nat) (pid : (t.objects proc).pid = q)
    (known : (∃ r, t.map q = some (some r)) ∨ Older recorded t q) (newPid : Pid)
    (program : Program) (cred : Cred) :
    Inv (recorded ++ (t.execLocked timestamp proc newPid program cred).1.removeAt)
      (t.execLocked timestamp proc newPid program cred).1 := by
  let new : Process := .new newPid cred program (t.objects proc).parent
  have made := inv_grows inv (grows_makeShared t new)
  have recorded := inv_record made (timestamp, q) (by
    rcases known with ⟨r, here⟩ | older
    · exact Or.inl ⟨r, here⟩
    · exact Or.inr older)
  obtain ⟨ref, object⟩ := makeShared_object t new
  have placed : Grows { (t.makeShared new).1 with
      removeAt := (t.makeShared new).1.removeAt ++ [(timestamp, q)] }
      (t.execLocked timestamp proc newPid program cred).1 := by
    simp only [execLocked, pid]
    refine grows_emplace ?_ ?_ ?_
    · rw [ref]
      exact Nat.lt_succ_self _
    · exact congrArg Process.pid object
    · exact congrArg Process.tombstoned object
  refine inv_recorded (timestamp, q) (inv_grows recorded placed) made.listed ?_
  rw [placed.removeAt]

theorem inv_all {recorded : List (Nat × Pid)} {t : ProcessTree} (inv : Inv recorded t) :
    Inv (recorded ++ t.removeAt) t := inv_more inv inv.listed

theorem inv_handle {recorded : List (Nat × Pid)} {t t' : ProcessTree} {e : Event}
    {proc : ProcessRef} (inv : Inv recorded t) (here : t.map e.process = some (some proc))
    (h : handle t proc e = some t') : Inv (recorded ++ t'.removeAt) t' := by
  have pid := (inv.keeps.linked e.process proc here).2
  have stepped : ∀ {timestamp novel m}, t.step timestamp = some (novel, m) →
      Inv recorded m ∧ (m.objects proc).pid = e.process ∧
        ((∃ r, m.map e.process = some (some r)) ∨ Older recorded m e.process) := by
    intro timestamp novel m first
    refine ⟨inv_step inv first, (step_object first proc).trans pid, ?_⟩
    rcases present_step inv first here with still | older
    · exact Or.inl ⟨proc, still⟩
    · exact Or.inr (older_step inv first older)
  cases e with
  | fork timestamp process newPid =>
    obtain ⟨⟨novel, m⟩, first, rest⟩ := Option.bind_eq_some_iff.mp h
    obtain ⟨kept, _, _⟩ := stepped first
    simp only at rest
    split at rest
    · refine inv_all (inv_grows kept ((grows_forkLocked m proc newPid).trans ?_))
      exact grows_foldlM (fun _ _ _ => grows_annotateFork) rest
    · rw [← Option.some.inj rest]
      exact inv_all kept
  | exec timestamp process newPid program cred =>
    obtain ⟨⟨novel, m⟩, first, rest⟩ := Option.bind_eq_some_iff.mp h
    obtain ⟨kept, object, known⟩ := stepped first
    simp only at rest
    split at rest
    · have executed := inv_exec kept timestamp object known newPid program cred
      have grows : Grows _ t' := grows_foldlM (fun _ _ _ => grows_annotateExec) rest
      rw [grows.removeAt]
      exact inv_grows executed grows
    · rw [← Option.some.inj rest]
      exact inv_all kept
  | exit timestamp process =>
    obtain ⟨⟨novel, m⟩, first, rest⟩ := Option.map_eq_some_iff.mp h
    obtain ⟨kept, object, known⟩ := stepped first
    simp only at rest
    split at rest
    · rw [← rest]
      exact inv_exit kept timestamp object known
    · rw [← rest]
      exact inv_all kept

theorem inv_releaseOne {recorded : List (Nat × Pid)} {t t' : ProcessTree} {p : Pid}
    (inv : Inv recorded t) (h : t.releaseOne p = some t') : Inv recorded t' := by
  have frame := releaseOne_frame h
  refine ⟨?_, ?_, ?_⟩
  · rw [frame.1]
    exact inv.sorted
  · rw [frame.2.1]
    exact inv.listed
  · refine keeps_mono (keeps_releaseOne inv.keeps h) ?_ fun q known => Or.inl known
    rintro q ⟨e, member, same, old⟩
    rw [← frame.1] at old
    exact ⟨e, member, same, old⟩

theorem inv_operation {recorded : List (Nat × Pid)} {t t' : ProcessTree} {l : Label}
    (inv : Inv recorded t) (h : operation t l = some t') : Inv (recorded ++ t'.removeAt) t' := by
  cases l with
  | backfill parent unlinked => exact inv_all (inv_grows inv (grows_backfillInsert h))
  | event e =>
    simp only [operation, informFromESEvent] at h
    split at h
    · rw [← Option.some.inj h]
      exact inv_all inv
    · cases h
    · rename_i proc here
      exact inv_handle inv here h
  | retain pids =>
    refine inv_all (@Runs.foldlM_keeps _ _ _ (Inv recorded) ?_ _ _ _ inv h)
    exact fun m p m' before next => inv_grows before (retainOne_grows next)
  | release pids =>
    exact inv_all
      (@Runs.foldlM_keeps _ _ _ (Inv recorded) (fun _ _ _ => inv_releaseOne) _ _ _ inv h)

theorem step_keeps (s : System) (l : Label) (t : System) (inv : Inv s.recorded s.tree)
    (h : step s l = some t) : Inv t.recorded t.tree := by
  obtain ⟨tree, done, same⟩ := Option.map_eq_some_iff.mp h
  rw [← same]
  exact inv_operation inv done

theorem inv_start (annotators : List OriginatorAnnotator) :
    Inv (System.start annotators).recorded (System.start annotators).tree := by
  refine ⟨?_, fun _ member => absurd member List.not_mem_nil, ?_, ?_, ?_⟩
  · exact List.pairwise_replicate.mpr (Or.inr (le_refl 0))
  · exact fun q r here => by cases here
  · rintro q ⟨e, member, _⟩
    exact absurd member List.not_mem_nil
  · exact fun q r here => by cases here

/-- In any run, an event that is accepted finds every process recorded at its time or later,
    unless that process is recorded as older than the window too, and a process whose removal
    is that old goes with the event or is retained. -/
theorem late_events_find (annotators : List OriginatorAnnotator) (ls : List Label) :
    Runs.Always step (fun s => FoundUnlessOlder s ∧ RemovedWhenOld s) (.start annotators) ls := by
  refine Runs.always_mono ?_ (Runs.always_of_keep (fun s => Inv s.recorded s.tree) step_keeps
    (inv_start annotators) ls)
  intro s inv
  refine ⟨?_, ?_⟩
  · intro timestamp tree accepted e member _ recent
    rcases inv.keeps.present e.2 ⟨e, member, rfl⟩ with ⟨r, here⟩ | older
    · rcases present_step inv accepted here with still | older
      · exact ⟨r, still⟩
      · exact absurd older recent
    · exact absurd older recent
  · intro timestamp tree accepted e member old
    rcases step_cases accepted with ⟨refused, _⟩ | ⟨_, _, seen, _, swept⟩
    · cases refused
    · exact swept.due e member old

def shell : Pid := ⟨7, 1⟩
def launchd : Pid := ⟨1, 1⟩

def deniedExec : List Label :=
  [.backfill none (.new launchd ⟨0, 0⟩ ⟨"/sbin/launchd", []⟩ none),
    .backfill none (.new shell ⟨0, 0⟩ ⟨"/bin/sh", []⟩ none),
    .event (.exec 5 shell ⟨7, 2⟩ ⟨"/bin/ls", []⟩ ⟨0, 0⟩),
    .event (.exit 100 shell)] ++
  (List.range 31).map fun i => .event (.fork (10 + i) launchd ⟨9, 1⟩)

/-- The process that the denied exec recorded is gone for an event at 50. -/
theorem late_event_lost :
    ¬ ∀ annotators ls,
      Runs.Always step (fun s => StillFound s ∧ RemovedWhenOld s) (.start annotators) ls := by
  intro always
  have lost : (Runs.run step (.start []) deniedExec).map (fun s =>
      (s.recorded.contains (100, shell), (s.tree.step 50).map fun answer =>
        (answer.1, answer.2.map shell))) = some (true, some (true, none)) := by
    decide +kernel
  obtain ⟨last, ends, found⟩ := Option.map_eq_some_iff.mp lost
  rw [Prod.mk.injEq] at found
  obtain ⟨recorded, answer⟩ := found
  obtain ⟨⟨novel, tree⟩, accepted, gone⟩ := Option.map_eq_some_iff.mp answer
  rw [Prod.mk.injEq] at gone
  obtain ⟨yes, absent⟩ := gone
  simp only at yes absent
  rw [yes] at accepted
  have still := (Runs.always_last (always [] deniedExec) ends).1
  obtain ⟨r, here⟩ := still 50 tree accepted (100, shell) (List.contains_iff_mem.mp recorded)
    (by decide)
  rw [absent] at here
  cases here

end Removal
end SantaProcessTree
