import Santa.ProcessTree.Removal

/-!
Several clients feeding the tree at once. Handling an event is not one critical
section: a client looks its process up, calls Step, changes the map, and then, for
each annotator, decides on an annotation and sets it, and gives the mutex up in
between. Clients may be interleaved at all these points. Objects stay alive as
long as a client holds a pointer to them; whether the map still has them is
another matter.
-/
namespace SantaProcessTree
namespace Clients
open ProcessTree Removal

inductive Phase where
  | got (e : Event) (proc : ProcessRef)
  | accepted (e : Event) (proc : ProcessRef)
  | annotating (exec : Bool) (original new : ProcessRef) (rest : List OriginatorAnnotator)
  | annotate (exec : Bool) (original new : ProcessRef) (a : OriginatorAnnotator)
      (rest : List OriginatorAnnotator)
  deriving DecidableEq, Repr

structure System where
  tree : ProcessTree
  clients : Nat → Option Phase
  enabled : Bool

def System.start (annotators : List OriginatorAnnotator) : System :=
  ⟨.new annotators, fun _ => none, false⟩

def System.set (s : System) (c : Nat) (phase : Option Phase) : System :=
  { s with clients := fun d => if d = c then phase else s.clients d }

def forAnnotators (exec : Bool) (original new : ProcessRef) :
    List OriginatorAnnotator → Option Phase
  | [] => none
  | _ :: rest => some (.annotating exec original new rest)

def decision (t : ProcessTree) (exec : Bool) (original new : ProcessRef) :
    Option OriginatorAnnotator :=
  match (t.objects original).annotations with
  | some annotation => some annotation
  | none =>
      if exec then (originatorPrograms (t.objects new).program.executable).map .mk else none

def locked (t : ProcessTree) (proc : ProcessRef) : Event → ProcessTree × Option Phase
  | .fork _ _ newPid =>
      let (t, child) := t.forkLocked proc newPid
      (t, forAnnotators false proc child t.annotators)
  | .exec timestamp _ newPid program cred =>
      let (t, new) := t.execLocked timestamp proc newPid program cred
      (t, forAnnotators true proc new t.annotators)
  | .exit timestamp _ => (t.exitLocked timestamp proc, none)

/-- What a client does until it next gives the mutex up or passes from reading to writing. -/
def advance (t : ProcessTree) : Phase → Option (ProcessTree × Option Phase)
  | .got e proc =>
      (t.step e.timestamp).map fun (novel, t) =>
        (t, if novel then some (.accepted e proc) else none)
  | .accepted e proc => some (locked t proc e)
  | .annotating exec original new rest =>
      some (t, match decision t exec original new with
        | some a => some (.annotate exec original new a rest)
        | none => forAnnotators exec original new rest)
  | .annotate exec original new a rest =>
      (t.annotateProcess new a).map fun t => (t, forAnnotators exec original new rest)

inductive Label where
  | backfill (parent : Option ProcessRef) (unlinked : Process)
  | deliver (c : Nat) (e : Event)
  | proceed (c : Nat)
  | retain (pids : List Pid)
  | release (pids : List Pid)
  deriving DecidableEq, Repr

/- The tree is backfilled before the clients are enabled. -/
def step (s : System) : Label → Option System
  | .backfill parent unlinked =>
      if s.enabled then none
      else (s.tree.backfillInsert parent unlinked).map fun tree => { s with tree := tree }
  | .deliver c e =>
      match s.clients c, s.tree.get e.process with
      | none, none => some { s with enabled := true }
      | none, some (some proc) => some { s.set c (some (.got e proc)) with enabled := true }
      | _, _ => none
  | .proceed c =>
      (s.clients c).bind fun phase =>
        (advance s.tree phase).map fun (tree, phase) => { s.set c phase with tree := tree }
  | .retain pids => (s.tree.retainProcess pids).map fun tree => { s with tree := tree }
  | .release pids => (s.tree.releaseProcess pids).map fun tree => { s with tree := tree }

/-- The history of a process: it forks before each of the timestamps at which it execs or
    exits. -/
def WellFormed (ends : Pid → List Nat) : Event → Prop
  | .fork timestamp process _ => ∀ τ ∈ ends process, timestamp < τ
  | .exec timestamp process _ _ _ => timestamp ∈ ends process
  | .exit timestamp process => timestamp ∈ ends process

instance (ends : Pid → List Nat) : (e : Event) → Decidable (WellFormed ends e)
  | .fork timestamp process _ => inferInstanceAs (Decidable (∀ τ ∈ ends process, timestamp < τ))
  | .exec timestamp process _ _ _ => inferInstanceAs (Decidable (timestamp ∈ ends process))
  | .exit timestamp process => inferInstanceAs (Decidable (timestamp ∈ ends process))

def Formed (ends : Pid → List Nat) : Label → Prop
  | .deliver _ e => WellFormed ends e
  | _ => True

instance (ends : Pid → List Nat) : (l : Label) → Decidable (Formed ends l)
  | .deliver _ e => inferInstanceAs (Decidable (WellFormed ends e))
  | .backfill _ _ | .proceed _ | .retain _ | .release _ => inferInstanceAs (Decidable True)

/-- No null process in the map, and whoever is about to call AnnotateProcess finds its process
    there. -/
structure Safe (s : System) : Prop where
  noNulls : ∀ q, s.tree.map q ≠ some none
  annotated : ∀ c exec original new a rest,
    s.clients c = some (.annotate exec original new a rest) →
      s.tree.map (s.tree.objects new).pid ≠ none

def lookup (t : ProcessTree) : Phase → Option Pid
  | .got _ _ => none
  | .accepted e proc =>
      match e with
      | .fork _ _ _ => some (t.objects proc).pid
      | _ => none
  | .annotating exec original new _ =>
      (decision t exec original new).map fun _ => (t.objects new).pid
  | .annotate _ _ new _ _ => some (t.objects new).pid

def Needed (s : System) (q : Pid) : Prop :=
  ∃ c phase, s.clients c = some phase ∧ lookup s.tree phase = some q

def Novel (t : ProcessTree) (timestamp : Nat) : Prop :=
  t.seenTimestamps.front ≤ timestamp ∧
    ¬ (timestamp < t.seenTimestamps.back ∧ timestamp ∈ t.seenTimestamps.entries)

/-- No step leaves a client without the process that it goes on to look up: a call of Step
    that is accepted and a release take out none of these, and a process whose fork or exec is
    still being annotated is there when an annotation comes that it is to inherit. -/
def Undisturbed (s : System) : Label → Prop
  | .proceed c => ∀ phase, s.clients c = some phase →
      match phase with
      | .got e _ => Novel s.tree e.timestamp → ∀ q, Needed s q →
          (∃ entry ∈ s.tree.removeAt, entry.2 = q ∧ entry.1 < s.tree.seenTimestamps.front) →
            ∃ r, s.tree.map q = some (some r) ∧ 0 < (s.tree.objects r).refcnt
      | .annotate _ _ new _ _ => ∀ r, s.tree.map (s.tree.objects new).pid = some (some r) →
          (s.tree.objects r).annotations = none → ∀ d exec child rest,
            s.clients d = some (.annotating exec r child rest) →
              s.tree.map (s.tree.objects child).pid ≠ none
      | _ => True
  | .release pids => ∀ q r, Needed s q → s.tree.map q = some (some r) →
      (s.tree.objects r).tombstoned = true → (pids.count q : Int) < (s.tree.objects r).refcnt
  | _ => True

def Sound (ends : Pid → List Nat) (t : ProcessTree) : Phase → Prop
  | .got e proc | .accepted e proc =>
      WellFormed ends e ∧ proc < t.nextObject ∧ (t.objects proc).pid = e.process
  | .annotating _ original new _ | .annotate _ original new _ _ =>
      original < t.nextObject ∧ new < t.nextObject

theorem sound_of_pids {ends : Pid → List Nat} {t t' : ProcessTree} {phase : Phase}
    (sound : Sound ends t phase) (next : t.nextObject ≤ t'.nextObject)
    (pids : ∀ r, r < t.nextObject → (t'.objects r).pid = (t.objects r).pid) :
    Sound ends t' phase := by
  cases phase with
  | got e proc =>
    exact ⟨sound.1, lt_of_lt_of_le sound.2.1 next, (pids proc sound.2.1).trans sound.2.2⟩
  | accepted e proc =>
    exact ⟨sound.1, lt_of_lt_of_le sound.2.1 next, (pids proc sound.2.1).trans sound.2.2⟩
  | annotating exec original new rest =>
    exact ⟨lt_of_lt_of_le sound.1 next, lt_of_lt_of_le sound.2 next⟩
  | annotate exec original new a rest =>
    exact ⟨lt_of_lt_of_le sound.1 next, lt_of_lt_of_le sound.2 next⟩

theorem sound_looks {ends : Pid → List Nat} {t t' : ProcessTree} {phase : Phase}
    (sound : Sound ends t phase) (looks : SameLooks t t') : Sound ends t' phase :=
  sound_of_pids sound looks.next fun r old => (looks.same r old).1

theorem decision_looks {t t' : ProcessTree} {exec : Bool} {original new : ProcessRef}
    (looks : SameLooks t t') (known : original < t.nextObject) (made : new < t.nextObject) :
    decision t' exec original new = decision t exec original new := by
  unfold decision
  rw [(looks.same original known).2.2, (looks.same new made).2.1]

theorem lookup_looks {ends : Pid → List Nat} {t t' : ProcessTree} {phase : Phase}
    (sound : Sound ends t phase) (looks : SameLooks t t') :
    lookup t' phase = lookup t phase := by
  cases phase with
  | got e proc => rfl
  | accepted e proc =>
    cases e with
    | fork timestamp process newPid =>
      simp only [lookup]
      rw [(looks.same proc sound.2.1).1]
    | exec timestamp process newPid program cred => rfl
    | exit timestamp process => rfl
  | annotating exec original new rest =>
    simp only [lookup]
    rw [decision_looks looks sound.1 sound.2, (looks.same new sound.2).1]
  | annotate exec original new a rest =>
    simp only [lookup]
    rw [(looks.same new sound.2).1]

/-! ### One client alone -/

theorem set_set (s : System) (c : Nat) (first second : Option Phase) :
    (s.set c first).set c second = s.set c second := by
  simp only [System.set, System.mk.injEq, true_and, and_true]
  funext d
  by_cases same : d = c
  · simp [same]
  · simp [same]

theorem set_idle {s : System} {c : Nat} (idle : s.clients c = none) : s.set c none = s := by
  cases s with
  | mk tree clients enabled =>
    simp only [System.set, System.mk.injEq, true_and, and_true]
    funext d
    by_cases same : d = c
    · rw [if_pos same, same]
      exact idle.symm
    · rw [if_neg same]

theorem step_proceed {s : System} {c : Nat} {phase : Phase} {t : ProcessTree} {next : Option Phase}
    (h : advance s.tree phase = some (t, next)) :
    step (s.set c (some phase)) (.proceed c) = some (System.set { s with tree := t } c next) := by
  have here : (s.set c (some phase)).clients c = some phase := by simp [System.set]
  have advanced : advance (s.set c (some phase)).tree phase = some (t, next) := h
  simp only [step, here, Option.bind_some, advanced, Option.map_some, set_set]
  rfl

theorem annotateFork_eq (t : ProcessTree) (original new : ProcessRef) :
    t.annotateFork original new = match decision t false original new with
      | some a => t.annotateProcess new a
      | none => some t := by
  unfold annotateFork decision
  cases (t.objects original).annotations with
  | none => rfl
  | some annotation => rfl

theorem annotateExec_eq (t : ProcessTree) (original new : ProcessRef) :
    t.annotateExec original new = match decision t true original new with
      | some a => t.annotateProcess new a
      | none => some t := by
  unfold annotateExec decision
  cases (t.objects original).annotations with
  | some annotation => rfl
  | none =>
    cases originatorPrograms (t.objects new).program.executable with
    | none => rfl
    | some originator => rfl

theorem annotators_alone {s : System} {c : Nat} {exec : Bool} {original new : ProcessRef}
    {as : List OriginatorAnnotator} {t : ProcessTree}
    (h : as.foldlM (fun t _ => match decision t exec original new with
      | some a => t.annotateProcess new a
      | none => some t) s.tree = some t) :
    ∃ ls, (∀ l ∈ ls, l = .proceed c) ∧
      Runs.run step (s.set c (forAnnotators exec original new as)) ls =
        some (System.set { s with tree := t } c none) := by
  induction as generalizing s with
  | nil =>
    have same : s.tree = t := Option.some.inj h
    exact ⟨[], fun _ member => absurd member List.not_mem_nil, by rw [← same]; rfl⟩
  | cons annotator as ih =>
    obtain ⟨m, first, rest⟩ := Option.bind_eq_some_iff.mp h
    obtain ⟨ls, proceeds, ends⟩ := ih (s := { s with tree := m }) rest
    cases decided : decision s.tree exec original new with
    | none =>
      simp only [decided, Option.some.injEq] at first
      have decides : advance s.tree (.annotating exec original new as) =
          some (m, forAnnotators exec original new as) := by
        rw [advance, decided, ← first]
      refine ⟨.proceed c :: ls, ?_, ?_⟩
      · intro l member
        rcases List.mem_cons.mp member with head | later
        · exact head
        · exact proceeds l later
      · rw [forAnnotators, Runs.run, step_proceed decides]
        exact ends
    | some a =>
      simp only [decided] at first
      have decides : advance s.tree (.annotating exec original new as) =
          some (s.tree, some (.annotate exec original new a as)) := by
        simp only [advance, decided]
      have writes : advance s.tree (.annotate exec original new a as) =
          some (m, forAnnotators exec original new as) := by
        simp only [advance, first, Option.map_some]
      refine ⟨.proceed c :: .proceed c :: ls, ?_, ?_⟩
      · intro l member
        rcases List.mem_cons.mp member with head | member
        · exact head
        rcases List.mem_cons.mp member with head | later
        · exact head
        · exact proceeds l later
      · rw [forAnnotators, Runs.run, step_proceed decides, Option.bind_some, Runs.run,
          step_proceed writes]
        exact ends

theorem informs_alone {s : System} {c : Nat} {e : Event} {t : ProcessTree}
    (idle : s.clients c = none) (h : informFromESEvent s.tree e = some t) :
    ∃ ls, (∀ l ∈ ls, l = .proceed c) ∧ Runs.run step s (.deliver c e :: ls) =
      some { s with tree := t, enabled := true } := by
  have none_at : ∀ l ∈ ([] : List Label), l = .proceed c :=
    fun _ member => absurd member List.not_mem_nil
  unfold informFromESEvent at h
  split at h
  · rename_i absent
    refine ⟨[], none_at, ?_⟩
    rw [← Option.some.inj h]
    simp only [Runs.run, step, idle, absent, Option.bind_some]
  · cases h
  rename_i proc entry
  have delivered : step s (.deliver c e) =
      some (System.set { s with enabled := true } c (some (.got e proc))) := by
    simp only [step, idle, entry]
    rfl
  have ended : ∀ m, System.set { s with tree := m, enabled := true } c none =
      { s with tree := m, enabled := true } := fun m => set_idle idle
  have refused : ∀ {timestamp m}, timestamp = e.timestamp →
      s.tree.step timestamp = some (false, m) → m = t →
      ∃ ls, (∀ l ∈ ls, l = .proceed c) ∧ Runs.run step s (.deliver c e :: ls) =
        some { s with tree := t, enabled := true } := by
    intro timestamp m at_ first same
    have stepped : advance s.tree (.got e proc) = some (m, none) := by
      rw [advance, ← at_, first]
      rfl
    refine ⟨[.proceed c], fun l member => List.mem_singleton.mp member, ?_⟩
    rw [Runs.run, delivered, Option.bind_some, Runs.run,
      step_proceed (s := { s with enabled := true }) stepped, ended m, same]
    rfl
  have accepted : ∀ {timestamp m}, timestamp = e.timestamp →
      s.tree.step timestamp = some (true, m) →
      (∃ ls, (∀ l ∈ ls, l = .proceed c) ∧ Runs.run step
        (System.set { s with tree := (locked m proc e).1, enabled := true } c
          (locked m proc e).2) ls = some (System.set { s with tree := t, enabled := true } c none)) →
      ∃ ls, (∀ l ∈ ls, l = .proceed c) ∧ Runs.run step s (.deliver c e :: ls) =
        some { s with tree := t, enabled := true } := by
    rintro timestamp m at_ first ⟨ls, proceeds, ends⟩
    have stepped : advance s.tree (.got e proc) = some (m, some (.accepted e proc)) := by
      rw [advance, ← at_, first]
      rfl
    have changed : advance m (.accepted e proc) = some (locked m proc e) := rfl
    refine ⟨.proceed c :: .proceed c :: ls, ?_, ?_⟩
    · intro l member
      rcases List.mem_cons.mp member with head | member
      · exact head
      rcases List.mem_cons.mp member with head | later
      · exact head
      · exact proceeds l later
    · rw [Runs.run, delivered, Option.bind_some, Runs.run,
        step_proceed (s := { s with enabled := true }) stepped, Option.bind_some, Runs.run,
        step_proceed (s := { s with tree := m, enabled := true }) changed, ← ended t]
      exact ends
  cases e with
  | fork timestamp process newPid =>
    obtain ⟨⟨novel, m⟩, first, rest⟩ := Option.bind_eq_some_iff.mp h
    cases novel with
    | false => exact refused rfl first (Option.some.inj rest)
    | true =>
      refine accepted rfl first ?_
      simp only [annotateFork_eq, if_true] at rest
      exact annotators_alone (s := { s with tree := (m.forkLocked proc newPid).1, enabled := true })
        rest
  | exec timestamp process newPid program cred =>
    obtain ⟨⟨novel, m⟩, first, rest⟩ := Option.bind_eq_some_iff.mp h
    cases novel with
    | false => exact refused rfl first (Option.some.inj rest)
    | true =>
      refine accepted rfl first ?_
      simp only [annotateExec_eq, if_true] at rest
      exact annotators_alone
        (s := { s with
          tree := (m.execLocked timestamp proc newPid program cred).1
          enabled := true }) rest
  | exit timestamp process =>
    obtain ⟨⟨novel, m⟩, first, rest⟩ := Option.map_eq_some_iff.mp h
    cases novel with
    | false => exact refused rfl first rest
    | true =>
      refine accepted rfl first ⟨[], none_at, ?_⟩
      have same : m.exitLocked timestamp proc = t := rest
      rw [← same]
      rfl

/-! ### No null processes -/

def NoNulls (t : ProcessTree) : Prop := ∀ q, t.map q ≠ some none

theorem NoNulls.get {t : ProcessTree} (noNulls : NoNulls t) {q : Pid} (here : t.map q ≠ none) :
    ∃ r, t.map q = some (some r) := by
  cases entry : t.map q with
  | none => exact absurd entry here
  | some v =>
    cases v with
    | none => exact absurd entry (noNulls q)
    | some r => exact ⟨r, rfl⟩

theorem noNulls_of_less {t t' : ProcessTree} (noNulls : NoNulls t)
    (nothingNew : ∀ q v, t'.map q = some v → t.map q = some v) : NoNulls t' :=
  fun q null => noNulls q (nothingNew q none null)

theorem subscript_present {t : ProcessTree} {p : Pid} (here : t.map p ≠ none) :
    (t.subscript p).1 = t := by
  unfold subscript
  split
  · rfl
  · rename_i absent
    exact absurd absent here

theorem noNulls_emplace {t : ProcessTree} (noNulls : NoNulls t) (p : Pid) (r : ProcessRef) :
    NoNulls (t.emplace p r) ∧ (t.emplace p r).map p ≠ none ∧
      ∀ q, t.map q ≠ none → (t.emplace p r).map q ≠ none := by
  unfold emplace
  split
  · rename_i v entry
    exact ⟨noNulls, by rw [entry]; exact Option.some_ne_none v, fun q here => here⟩
  · refine ⟨?_, ?_, ?_⟩
    · intro q null
      by_cases same : q = p
      · simp [setEntry, same] at null
      · simp only [setEntry, if_neg same] at null
        exact noNulls q null
    · simp [setEntry]
    · intro q here
      by_cases same : q = p
      · simp [setEntry, same]
      · simpa [setEntry, same] using here

theorem annotateProcess_present {t : ProcessTree} {p r : ProcessRef} (a : OriginatorAnnotator)
    (here : t.map (t.objects p).pid = some (some r)) :
    t.annotateProcess p a = some (t.update r fun process =>
      { process with annotations := process.annotations.or (some a) }) := by
  unfold annotateProcess subscript
  simp only [here, Option.map_some]

def Holds (t : ProcessTree) (p : ProcessRef) : Prop :=
  NoNulls t ∧ t.map (t.objects p).pid ≠ none

theorem holds_annotateProcess {t t' : ProcessTree} {p : ProcessRef} {a : OriginatorAnnotator}
    (holds : Holds t p) (h : t.annotateProcess p a = some t') :
    Holds t' p ∧ t'.map = t.map := by
  obtain ⟨r, here⟩ := holds.1.get holds.2
  rw [annotateProcess_present a here, Option.some.injEq] at h
  have pid : (t'.objects p).pid = (t.objects p).pid := by
    rw [← h]
    by_cases same : p = r
    · simp [update, same]
    · simp [update, same]
  have map : t'.map = t.map := by
    rw [← h]
    rfl
  refine ⟨⟨?_, ?_⟩, map⟩
  · intro q
    rw [map]
    exact holds.1 q
  · rw [map, pid]
    exact holds.2

theorem holds_decision {t t' : ProcessTree} {original new : ProcessRef} {exec : Bool}
    (holds : Holds t new) (h : (match decision t exec original new with
      | some a => t.annotateProcess new a
      | none => some t) = some t') : Holds t' new := by
  split at h
  · exact (holds_annotateProcess holds h).1
  · rw [← Option.some.inj h]
    exact holds

theorem noNulls_backfillInsert {t t' : ProcessTree} {parent : Option ProcessRef}
    {unlinked : Process} (noNulls : NoNulls t) (h : t.backfillInsert parent unlinked = some t') :
    NoNulls t' := by
  unfold backfillInsert at h
  simp only at h
  let made := t.makeShared
    (.new unlinked.pid unlinked.effectiveCred unlinked.program parent)
  have inserted := noNulls_emplace (t := made.1) (fun q => noNulls q) unlinked.pid made.2
  cases parent with
  | none =>
    rw [← Option.some.inj h]
    exact inserted.1
  | some parent =>
    have pid : ((made.1.emplace unlinked.pid made.2).objects made.2).pid = unlinked.pid := by
      rw [(emplace_frame _ _ _).1]
      simp [made, makeShared, Process.new]
    have start : Holds (made.1.emplace unlinked.pid made.2) made.2 :=
      ⟨inserted.1, by rw [pid]; exact inserted.2.1⟩
    refine (@Runs.foldlM_keeps _ _ _ (fun t => Holds t made.2) ?_ _ _ _ start h).1
    intro s _ s' holds next
    obtain ⟨m, forked, rest⟩ := Option.bind_eq_some_iff.mp next
    rw [annotateFork_eq] at forked
    have kept := holds_decision holds forked
    split at rest
    · rw [annotateExec_eq] at rest
      exact holds_decision kept rest
    · rw [← Option.some.inj rest]
      exact kept

/-! ### The invariant -/

def Past (ends : Pid → List Nat) (t : ProcessTree) (q : Pid) : Prop :=
  ∃ τ ∈ ends q, τ < t.seenTimestamps.front

theorem keeps_past {ends : Pid → List Nat} {known : Pid → Prop} {t t' : ProcessTree}
    (keeps : Keeps known (Past ends t) t') (seen : t'.seenTimestamps = t.seenTimestamps) :
    Keeps known (Past ends t') t' := by
  refine keeps_mono keeps ?_ fun q known => Or.inl known
  rintro q ⟨τ, member, old⟩
  rw [← seen] at old
  exact ⟨τ, member, old⟩

def Got (s : System) (q : Pid) : Prop :=
  ∃ c e proc, s.clients c = some (.got e proc) ∧ e.process = q

structure Inv (ends : Pid → List Nat) (s : System) : Prop where
  sorted : s.tree.seenTimestamps.entries.Pairwise (· ≤ ·)
  noNulls : NoNulls s.tree
  listed : ∀ e ∈ s.tree.removeAt, e.1 ∈ ends e.2
  keeps : Keeps (Got s) (Past ends s.tree) s.tree
  sound : ∀ c phase, s.clients c = some phase → Sound ends s.tree phase
  needed : ∀ q, Needed s q → s.tree.map q ≠ none
  idle : s.enabled = false → ∀ c, s.clients c = none

theorem safe_of_inv {ends : Pid → List Nat} {s : System} (inv : Inv ends s) : Safe s :=
  ⟨inv.noNulls, fun c exec original new a rest here =>
    inv.needed _ ⟨c, .annotate exec original new a rest, here, rfl⟩⟩

theorem inv_start (ends : Pid → List Nat) (annotators : List OriginatorAnnotator) :
    Inv ends (.start annotators) := by
  refine ⟨?_, ?_, fun _ member => absurd member List.not_mem_nil, ⟨?_, ?_, ?_⟩, ?_, ?_,
    fun _ _ => rfl⟩
  · exact List.pairwise_replicate.mpr (Or.inr (le_refl 0))
  · exact fun q null => by cases null
  · exact fun q r here => by cases here
  · rintro q ⟨c, e, proc, here, _⟩
    cases here
  · exact fun q r here => by cases here
  · exact fun c phase here => by cases here
  · rintro q ⟨c, phase, here, _⟩
    cases here

theorem forAnnotators_some {exec : Bool} {original new : ProcessRef}
    {as : List OriginatorAnnotator} {phase : Phase}
    (h : forAnnotators exec original new as = some phase) :
    ∃ rest, phase = .annotating exec original new rest := by
  cases as with
  | nil => cases h
  | cons a rest => exact ⟨rest, (Option.some.inj h).symm⟩

theorem clients_set {s : System} {c d : Nat} {phase : Option Phase} {p : Phase}
    (here : (s.set c phase).clients d = some p) :
    (d = c ∧ phase = some p) ∨ (d ≠ c ∧ s.clients d = some p) := by
  by_cases same : d = c
  · simp only [System.set, same, if_true] at here
    exact Or.inl ⟨same, here⟩
  · simp only [System.set, if_neg same] at here
    exact Or.inr ⟨same, here⟩

theorem inv_set {ends : Pid → List Nat} {s : System} {c : Nat} {phase : Option Phase}
    (inv : Inv ends s) (enabled : s.enabled = true)
    (got : ∀ e proc, phase = some (.got e proc) → ∃ r, s.tree.map e.process = some (some r))
    (sound : ∀ p, phase = some p → Sound ends s.tree p)
    (needed : ∀ p q, phase = some p → lookup s.tree p = some q → s.tree.map q ≠ none) :
    Inv ends (s.set c phase) := by
  refine ⟨inv.sorted, inv.noNulls, inv.listed, ?_, ?_, ?_, ?_⟩
  · refine keeps_mono inv.keeps (fun _ past => past) ?_
    rintro q ⟨d, e, proc, here, same⟩
    rcases clients_set here with ⟨_, new⟩ | ⟨_, old⟩
    · rw [← same]
      exact Or.inr (got e proc new)
    · exact Or.inl ⟨d, e, proc, old, same⟩
  · intro d p here
    rcases clients_set here with ⟨_, new⟩ | ⟨_, old⟩
    · exact sound p new
    · exact inv.sound d p old
  · rintro q ⟨d, p, here, looks⟩
    rcases clients_set here with ⟨_, new⟩ | ⟨_, old⟩
    · exact needed p q new looks
    · exact inv.needed q ⟨d, p, old, looks⟩
  · intro disabled
    rw [show s.enabled = false from disabled] at enabled
    cases enabled

theorem inv_tree {ends : Pid → List Nat} {s : System} {t : ProcessTree} (inv : Inv ends s)
    (sorted : t.seenTimestamps.entries.Pairwise (· ≤ ·)) (noNulls : NoNulls t)
    (listed : ∀ e ∈ t.removeAt, e.1 ∈ ends e.2)
    (keeps : Keeps (Got s) (Past ends t) t) (looks : SameLooks s.tree t)
    (stays : ∀ q, Needed s q → t.map q ≠ none) : Inv ends { s with tree := t } := by
  refine ⟨sorted, noNulls, listed, keeps, ?_, ?_, inv.idle⟩
  · exact fun c p here => sound_looks (inv.sound c p here) looks
  · rintro q ⟨c, p, here, looked⟩
    have before : lookup s.tree p = some q :=
      (lookup_looks (inv.sound c p here) looks).symm.trans looked
    exact stays q ⟨c, p, here, before⟩

theorem inv_of_grows {ends : Pid → List Nat} {s : System} {t : ProcessTree} (inv : Inv ends s)
    (grows : Grows s.tree t) (noNulls : NoNulls t)
    (sound : ∀ c phase, s.clients c = some phase → Sound ends t phase)
    (needed : ∀ q, Needed { s with tree := t } q → t.map q ≠ none) :
    Inv ends { s with tree := t } := by
  refine ⟨?_, noNulls, ?_, ?_, sound, needed, inv.idle⟩
  · rw [grows.seen]
    exact inv.sorted
  · rw [grows.removeAt]
    exact inv.listed
  · exact keeps_past (keeps_grows inv.keeps grows) grows.seen

theorem inv_grows {ends : Pid → List Nat} {s : System} {t : ProcessTree} (inv : Inv ends s)
    (grows : Grows s.tree t) (noNulls : NoNulls t) (looks : SameLooks s.tree t) :
    Inv ends { s with tree := t } := by
  refine inv_of_grows inv grows noNulls ?_ ?_
  · exact fun c p here => sound_looks (inv.sound c p here) looks
  · rintro q ⟨c, p, here, looked⟩
    have before : lookup s.tree p = some q :=
      (lookup_looks (inv.sound c p here) looks).symm.trans looked
    obtain ⟨r, entry⟩ := inv.noNulls.get (inv.needed q ⟨c, p, here, before⟩)
    rw [grows.kept q r entry]
    exact Option.some_ne_none _

def inserted (t : ProcessTree) (pid : Pid) (cred : Cred) (program : Program)
    (parent : Option ProcessRef) : ProcessTree :=
  (t.makeShared (.new pid cred program parent)).1.emplace pid t.nextObject

theorem inserted_spec (t : ProcessTree) (pid : Pid) (cred : Cred) (program : Program)
    (parent : Option ProcessRef) :
    Grows t (inserted t pid cred program parent) ∧
      SameLooks t (inserted t pid cred program parent) ∧
      t.nextObject < (inserted t pid cred program parent).nextObject ∧
      ((inserted t pid cred program parent).objects t.nextObject).pid = pid := by
  have frame := emplace_frame (t.makeShared (.new pid cred program parent)).1 pid t.nextObject
  refine ⟨grows_insert t pid cred program parent,
    (looks_makeShared t _).trans (looks_emplace _ _ _), ?_, ?_⟩
  · rw [inserted, frame.2.1]
    exact Nat.lt_succ_self _
  · rw [inserted, frame.1, (makeShared_object t _).2]
    rfl

theorem inserted_map {t : ProcessTree} (noNulls : NoNulls t) (pid : Pid) (cred : Cred)
    (program : Program) (parent : Option ProcessRef) :
    NoNulls (inserted t pid cred program parent) ∧
      (inserted t pid cred program parent).map pid ≠ none := by
  have made : NoNulls (t.makeShared (.new pid cred program parent)).1 := fun q => noNulls q
  have emplaced := noNulls_emplace made pid t.nextObject
  exact ⟨emplaced.1, emplaced.2.1⟩

theorem inv_insert {ends : Pid → List Nat} {s : System} {c : Nat} {proc : ProcessRef}
    (inv : Inv ends s) (enabled : s.enabled = true) (known : proc < s.tree.nextObject) (pid : Pid)
    (cred : Cred) (program : Program) (parent : Option ProcessRef) (exec : Bool)
    (as : List OriginatorAnnotator) :
    Inv ends (System.set { s with tree := inserted s.tree pid cred program parent } c
      (forAnnotators exec proc s.tree.nextObject as)) := by
  obtain ⟨grows, looks, made, object⟩ := inserted_spec s.tree pid cred program parent
  obtain ⟨noNulls, here⟩ := inserted_map inv.noNulls pid cred program parent
  refine inv_set (inv_grows inv grows noNulls looks) enabled ?_ ?_ ?_
  · intro e proc phase
    obtain ⟨rest, same⟩ := forAnnotators_some phase
    cases same
  · intro p phase
    obtain ⟨rest, same⟩ := forAnnotators_some phase
    rw [same]
    exact ⟨lt_of_lt_of_le known grows.next, made⟩
  · intro p q phase looked
    obtain ⟨rest, same⟩ := forAnnotators_some phase
    rw [same] at looked
    obtain ⟨_, _, same⟩ := Option.map_eq_some_iff.mp looked
    rw [← same, object]
    exact here

theorem inv_record {ends : Pid → List Nat} {s : System} (inv : Inv ends s) (entry : Nat × Pid)
    (ended : entry.1 ∈ ends entry.2) :
    Inv ends { s with tree := { s.tree with removeAt := s.tree.removeAt ++ [entry] } } := by
  refine inv_tree inv inv.sorted inv.noNulls ?_
    ⟨inv.keeps.linked, inv.keeps.present, inv.keeps.tombstones⟩
    ⟨le_refl _, fun _ _ => ⟨rfl, rfl, rfl⟩⟩ inv.needed
  intro e member
  rcases List.mem_append.mp member with old | new
  · exact inv.listed e old
  · rw [List.mem_singleton.mp new]
    exact ended

theorem inv_locked {ends : Pid → List Nat} {s : System} {c : Nat} {e : Event} {proc : ProcessRef}
    (inv : Inv ends s) (enabled : s.enabled = true)
    (here : s.clients c = some (.accepted e proc)) :
    Inv ends (System.set { s with tree := (locked s.tree proc e).1 } c
      (locked s.tree proc e).2) := by
  obtain ⟨formed, known, pid⟩ := inv.sound c _ here
  cases e with
  | fork timestamp process newPid =>
    have there : s.tree.map (s.tree.objects proc).pid ≠ none :=
      inv.needed _ ⟨c, _, here, rfl⟩
    have kept := inv_insert inv enabled known newPid (s.tree.objects proc).effectiveCred
      (s.tree.objects proc).program (s.tree.subscript (s.tree.objects proc).pid).2 false
      s.tree.annotators (c := c)
    have forked : locked s.tree proc (.fork timestamp process newPid) =
        (inserted s.tree newPid (s.tree.objects proc).effectiveCred (s.tree.objects proc).program
          (s.tree.subscript (s.tree.objects proc).pid).2,
          forAnnotators false proc s.tree.nextObject s.tree.annotators) := by
      simp only [locked, forkLocked, subscript_present there, inserted, makeShared]
      unfold emplace
      split
      · rfl
      · rfl
    rw [forked]
    exact kept
  | exec timestamp process newPid program cred =>
    have recorded := inv_record inv (timestamp, (s.tree.objects proc).pid) (by
      rw [pid]
      exact formed)
    have kept := inv_insert recorded enabled known newPid cred program
      (s.tree.objects proc).parent true s.tree.annotators (c := c)
    have executed : locked s.tree proc (.exec timestamp process newPid program cred) =
        (inserted { s.tree with
            removeAt := s.tree.removeAt ++ [(timestamp, (s.tree.objects proc).pid)] }
          newPid cred program (s.tree.objects proc).parent,
          forAnnotators true proc s.tree.nextObject s.tree.annotators) := by
      simp only [locked, execLocked, inserted, makeShared]
      unfold emplace
      split
      · rfl
      · rfl
    rw [executed]
    exact kept
  | exit timestamp process =>
    have recorded := inv_record inv (timestamp, (s.tree.objects proc).pid) (by
      rw [pid]
      exact formed)
    exact inv_set recorded enabled (fun _ _ none => by cases none) (fun _ none => by cases none)
      fun _ _ none => by cases none

theorem fork_process_stays {ends : Pid → List Nat} {s : System} {t : ProcessTree}
    {timestamp : Nat} {process newPid : Pid} (inv : Inv ends s) (got : Got s process)
    (formed : WellFormed ends (.fork timestamp process newPid))
    (recent : s.tree.seenTimestamps.front ≤ timestamp) {m : ProcessTree} (same : m.map = s.tree.map)
    (swept : Swept s.tree.seenTimestamps.front s.tree.removeAt m t) :
    t.map process ≠ none := by
  rcases inv.keeps.present process got with ⟨r, here⟩ | ⟨τ, member, old⟩
  · rw [← same] at here
    rcases swept.onlyDue process _ here with still | ⟨_, e, member, ofProcess, due⟩
    · rw [still]
      exact Option.some_ne_none _
    · have later := formed e.1 (by
        rw [← ofProcess]
        exact inv.listed e member)
      exact absurd (lt_of_lt_of_le due recent) (Nat.not_lt_of_gt later)
  · exact absurd (lt_of_lt_of_le old recent) (Nat.not_lt_of_gt (formed τ member))

theorem inv_step {ends : Pid → List Nat} {s : System} {t : ProcessTree} {c : Nat} {e : Event}
    {proc : ProcessRef} {novel : Bool} (inv : Inv ends s) (enabled : s.enabled = true)
    (here : s.clients c = some (.got e proc)) (undisturbed : Undisturbed s (.proceed c))
    (h : s.tree.step e.timestamp = some (novel, t)) :
    Inv ends (System.set { s with tree := t } c
      (if novel then some (.accepted e proc) else none)) := by
  have window := step_window inv.sorted h
  have sound := inv.sound c _ here
  by_cases refused : novel = false
  · have same : t = s.tree := by
      rcases step_cases h with ⟨_, same⟩ | ⟨accepted, _⟩
      · exact same
      · rw [accepted] at refused
        cases refused
    rw [same, refused]
    exact inv_set inv enabled (fun _ _ none => by cases none) (fun _ none => by cases none)
      fun _ _ none => by cases none
  rw [Bool.not_eq_false] at refused
  have accepts : Novel s.tree e.timestamp := by
    unfold ProcessTree.step at h
    simp only at h
    split at h
    · rw [refused] at h
      cases h
    · rename_i recent
      split at h
      · rw [refused] at h
        cases h
      · rename_i unseen
        exact ⟨Nat.le_of_not_lt recent, unseen⟩
  rcases step_cases h with ⟨no, _⟩ | ⟨_, recent, seen, _, swept⟩
  · rw [refused] at no
    cases no
  have past : ∀ q, Past ends s.tree q → Past ends t q := by
    rintro q ⟨τ, member, old⟩
    exact ⟨τ, member, lt_of_lt_of_le old window.2⟩
  have looks : SameLooks s.tree t :=
    ⟨(looks_swept swept).next, (looks_swept swept).same⟩
  have before : Keeps (Got s) (Past ends s.tree) { s.tree with seenTimestamps := seen } :=
    ⟨inv.keeps.linked, inv.keeps.present, inv.keeps.tombstones⟩
  have keeps : Keeps (Got s) (Past ends t) t := by
    refine keeps_mono (keeps_swept before swept ?_) past fun q known => Or.inl known
    exact fun entry member old => ⟨entry.1, inv.listed entry member, old⟩
  have stays : ∀ q, Needed s q → t.map q ≠ none := by
    intro q needed
    obtain ⟨r, there⟩ := inv.noNulls.get (inv.needed q needed)
    rcases swept.onlyDue q _ there with still | ⟨gone, entry, member, same, due⟩
    · rw [still]
      exact Option.some_ne_none _
    · obtain ⟨r', found, held⟩ :=
        undisturbed _ here accepts q needed ⟨entry, member, same, due⟩
      rw [swept.stays q r' found held]
      exact Option.some_ne_none _
  have tree : Inv ends { s with tree := t } :=
    inv_tree inv window.1 (noNulls_of_less inv.noNulls swept.nothingNew)
      (fun entry member => inv.listed entry (swept.removeAt entry member)) keeps looks stays
  rw [if_pos refused]
  refine inv_set tree enabled (fun _ _ other => by cases other) ?_ ?_
  · intro p phase
    rw [← Option.some.inj phase]
    have still : Sound ends t (.got e proc) := sound_looks sound looks
    exact still
  · intro p q phase looked
    rw [← Option.some.inj phase] at looked
    cases e with
    | fork timestamp process newPid =>
      have pid : (t.objects proc).pid = process := (looks.same proc sound.2.1).1.trans sound.2.2
      simp only [lookup, Option.some.injEq] at looked
      rw [← looked, pid]
      have got : Got s process := ⟨c, _, proc, here, rfl⟩
      exact fork_process_stays (m := { s.tree with seenTimestamps := seen }) inv got sound.1 recent
        rfl swept
    | exec timestamp process newPid program cred => cases looked
    | exit timestamp process => cases looked

theorem annotateProcess_frame {t t' : ProcessTree} {new r : ProcessRef} {a : OriginatorAnnotator}
    (entry : t.map (t.objects new).pid = some (some r)) (h : t.annotateProcess new a = some t') :
    t'.nextObject = t.nextObject ∧ ∀ q, (t'.objects q).pid = (t.objects q).pid ∧
      (t'.objects q).program = (t.objects q).program ∧
      ((t'.objects q).annotations = (t.objects q).annotations ∨
        (q = r ∧ (t.objects r).annotations = none)) := by
  rw [annotateProcess_present a entry, Option.some.injEq] at h
  rw [← h]
  refine ⟨rfl, ?_⟩
  intro q
  by_cases same : q = r
  · refine ⟨by simp [update, same], by simp [update, same], ?_⟩
    cases set : (t.objects r).annotations with
    | none => exact Or.inr ⟨same, rfl⟩
    | some b => exact Or.inl (by simp [update, same, set])
  · exact ⟨by simp [update, same], by simp [update, same], Or.inl (by simp [update, same])⟩

theorem lookup_annotateProcess {t t' : ProcessTree} {new r : ProcessRef} {a : OriginatorAnnotator}
    (entry : t.map (t.objects new).pid = some (some r)) (h : t.annotateProcess new a = some t')
    {phase : Phase} {q : Pid} (looked : lookup t' phase = some q) :
    lookup t phase = some q ∨ ∃ exec child rest, phase = .annotating exec r child rest ∧
      (t.objects r).annotations = none ∧ (t.objects child).pid = q := by
  have others := (annotateProcess_frame entry h).2
  cases phase with
  | got e proc => cases looked
  | accepted e proc =>
    cases e with
    | fork timestamp process newPid =>
      simp only [lookup] at looked ⊢
      rw [← (others proc).1]
      exact Or.inl looked
    | exec timestamp process newPid program cred => cases looked
    | exit timestamp process => cases looked
  | annotate exec original child b rest =>
    simp only [lookup] at looked ⊢
    rw [← (others child).1]
    exact Or.inl looked
  | annotating exec original child rest =>
    rcases (others original).2.2 with same | ⟨annotated, unset⟩
    · simp only [lookup, decision] at looked ⊢
      rw [← (others child).1, ← (others child).2.1, ← same]
      exact Or.inl looked
    · obtain ⟨_, _, same⟩ := Option.map_eq_some_iff.mp looked
      rw [(others child).1] at same
      rw [annotated]
      exact Or.inr ⟨exec, child, rest, rfl, unset, same⟩

theorem inv_annotate {ends : Pid → List Nat} {s : System} {t : ProcessTree} {c : Nat} {exec : Bool}
    {original new : ProcessRef} {a : OriginatorAnnotator} {rest : List OriginatorAnnotator}
    (inv : Inv ends s) (enabled : s.enabled = true)
    (here : s.clients c = some (.annotate exec original new a rest))
    (undisturbed : Undisturbed s (.proceed c)) (h : s.tree.annotateProcess new a = some t) :
    Inv ends (System.set { s with tree := t } c (forAnnotators exec original new rest)) := by
  have there : s.tree.map (s.tree.objects new).pid ≠ none := inv.needed _ ⟨c, _, here, rfl⟩
  have grows := grows_annotateProcess h
  obtain ⟨⟨noNulls, kept⟩, map⟩ := holds_annotateProcess ⟨inv.noNulls, there⟩ h
  obtain ⟨r, entry⟩ := inv.noNulls.get there
  obtain ⟨next, others⟩ := annotateProcess_frame entry h
  have sound : ∀ p, Sound ends s.tree p → Sound ends t p := fun p before =>
    sound_of_pids before grows.next fun q _ => (others q).1
  have tree : Inv ends { s with tree := t } := by
    refine inv_of_grows inv grows noNulls (fun d p waits => sound p (inv.sound d p waits)) ?_
    rintro q ⟨d, p, waits, looked⟩
    rw [map]
    rcases lookup_annotateProcess entry h looked with before | ⟨exec', child, rest', waiting,
      unset, same⟩
    · exact inv.needed q ⟨d, p, waits, before⟩
    · rw [waiting] at waits
      rw [← same]
      exact undisturbed _ here r entry unset d exec' child rest' waits
  refine inv_set tree enabled ?_ ?_ ?_
  · intro e proc phase
    obtain ⟨more, same⟩ := forAnnotators_some phase
    cases same
  · intro p phase
    obtain ⟨more, same⟩ := forAnnotators_some phase
    have before := inv.sound c _ here
    rw [same]
    exact sound (.annotating exec original new more) before
  · intro p q phase looked
    obtain ⟨more, same⟩ := forAnnotators_some phase
    rw [same] at looked
    obtain ⟨_, _, same⟩ := Option.map_eq_some_iff.mp looked
    rw [← same]
    exact kept

/-! ### Retaining and releasing -/

theorem retainOne_frame {t t' : ProcessTree} {p : Pid} (h : t.retainOne p = some t') :
    SameLooks t t' ∧ t'.map = t.map := by
  unfold retainOne at h
  split at h
  · rw [← Option.some.inj h]
    exact ⟨SameLooks.refl t, rfl⟩
  · cases h
  · rw [← Option.some.inj h]
    exact ⟨looks_counted t _ fun n => n + 1, rfl⟩

theorem inv_retain {ends : Pid → List Nat} {s : System} {t : ProcessTree} {pids : List Pid}
    (inv : Inv ends s) (h : s.tree.retainProcess pids = some t) :
    Inv ends { s with tree := t } := by
  have kept : Grows s.tree t ∧ SameLooks s.tree t ∧ t.map = s.tree.map := by
    refine @Runs.foldlM_keeps _ _ _
      (fun m => Grows s.tree m ∧ SameLooks s.tree m ∧ m.map = s.tree.map) ?_ _ _ _
      ⟨Grows.refl _, SameLooks.refl _, rfl⟩ h
    rintro m p m' ⟨grows, looks, map⟩ next
    obtain ⟨looks', map'⟩ := retainOne_frame next
    exact ⟨grows.trans (retainOne_grows next), looks.trans looks', map'.trans map⟩
  refine inv_grows inv kept.1 ?_ kept.2.1
  intro q
  rw [kept.2.2]
  exact inv.noNulls q

theorem releaseOne_stays {t t' : ProcessTree} {p q : Pid} {r : ProcessRef} (linked : Linked t)
    (here : t.map q = some (some r))
    (held : (t.objects r).tombstoned = true →
      ((if p = q then 1 else 0 : Nat) : Int) < (t.objects r).refcnt)
    (h : t.releaseOne p = some t') :
    t'.map q = some (some r) ∧ (t'.objects r).tombstoned = (t.objects r).tombstoned ∧
      (t'.objects r).refcnt = (t.objects r).refcnt - (if p = q then 1 else 0 : Nat) := by
  unfold releaseOne at h
  split at h
  · rename_i absent
    have other : p ≠ q := by
      intro same
      rw [same, getLocked, here] at absent
      cases absent
    rw [← Option.some.inj h]
    simp [here, other]
  · cases h
  · rename_i r' entry
    have there : t.map p = some (some r') := entry
    by_cases same : p = q
    · have ref : r = r' := by
        rw [same, here, Option.some.injEq, Option.some.injEq] at there
        exact there
      rw [if_pos same] at held
      simp only at h
      split at h
      · rename_i last
        simp only [update, ← ref, if_true] at last
        have := held last.2
        omega
      · rw [← Option.some.inj h]
        simp [update, here, same, ref]
    · have ref : r ≠ r' := by
        intro one
        apply same
        rw [← (linked p r' there).2, ← one]
        exact (linked q r here).2
      have other : ¬ q = p := fun back => same back.symm
      simp only at h
      split at h
      · rw [← Option.some.inj h]
        simp [erase, setEntry, update, here, same, other, ref]
      · rw [← Option.some.inj h]
        simp [update, here, same, ref]

theorem releaseProcess_stays {known older : Pid → Prop} {t t' : ProcessTree} {pids : List Pid}
    {q : Pid} {r : ProcessRef} (keeps : Keeps known older t) (here : t.map q = some (some r))
    (held : (t.objects r).tombstoned = true → (pids.count q : Int) < (t.objects r).refcnt)
    (h : t.releaseProcess pids = some t') : t'.map q = some (some r) := by
  induction pids generalizing t with
  | nil =>
    rw [← Option.some.inj h]
    exact here
  | cons p pids ih =>
    obtain ⟨m, first, rest⟩ := Option.bind_eq_some_iff.mp h
    have count : (p :: pids).count q = pids.count q + if p = q then 1 else 0 := by
      rw [List.count_cons]
      simp
    rw [count, Int.natCast_add] at held
    obtain ⟨still, tombstoned, refcnt⟩ := releaseOne_stays keeps.linked here (fun tombstone => by
      have := held tombstone
      omega) first
    refine ih (keeps_releaseOne keeps first) still ?_ rest
    intro tombstone
    rw [tombstoned] at tombstone
    have := held tombstone
    rw [refcnt]
    omega

theorem inv_release {ends : Pid → List Nat} {s : System} {t : ProcessTree} {pids : List Pid}
    (inv : Inv ends s) (undisturbed : Undisturbed s (.release pids))
    (h : s.tree.releaseProcess pids = some t) : Inv ends { s with tree := t } := by
  obtain ⟨keeps, looks, nothingNew, seen, removeAt⟩ :
      Keeps (Got s) (Past ends s.tree) t ∧ SameLooks s.tree t ∧
        (∀ q v, t.map q = some v → s.tree.map q = some v) ∧
        t.seenTimestamps = s.tree.seenTimestamps ∧ t.removeAt = s.tree.removeAt := by
    refine @Runs.foldlM_keeps _ _ _ (fun m => Keeps (Got s) (Past ends s.tree) m ∧
      SameLooks s.tree m ∧ (∀ q v, m.map q = some v → s.tree.map q = some v) ∧
        m.seenTimestamps = s.tree.seenTimestamps ∧ m.removeAt = s.tree.removeAt) ?_ _ _ _
      ⟨inv.keeps, SameLooks.refl _, fun _ _ here => here, rfl, rfl⟩ h
    rintro m p m' ⟨keeps, looks, nothingNew, seen, removeAt⟩ next
    obtain ⟨seen', removeAt', looks', nothingNew'⟩ := releaseOne_frame next
    exact ⟨keeps_releaseOne keeps next, looks.trans looks',
      fun q v here => nothingNew q v (nothingNew' q v here), seen'.trans seen,
      removeAt'.trans removeAt⟩
  refine inv_tree inv ?_ (noNulls_of_less inv.noNulls nothingNew) ?_ ?_ looks ?_
  · rw [seen]
    exact inv.sorted
  · rw [removeAt]
    exact inv.listed
  · exact keeps_past keeps seen
  · intro q needed
    obtain ⟨r, here⟩ := inv.noNulls.get (inv.needed q needed)
    rw [releaseProcess_stays inv.keeps here (undisturbed q r needed here) h]
    exact Option.some_ne_none _

/-! ### Runs -/

theorem inv_backfill {ends : Pid → List Nat} {s : System} {t : ProcessTree} (inv : Inv ends s)
    (disabled : s.enabled = false) {parent : Option ProcessRef} {unlinked : Process}
    (h : s.tree.backfillInsert parent unlinked = some t) : Inv ends { s with tree := t } := by
  have idle := inv.idle disabled
  refine inv_of_grows inv (grows_backfillInsert h) (noNulls_backfillInsert inv.noNulls h) ?_ ?_
  · intro c phase here
    have waits : s.clients c = some phase := here
    rw [idle c] at waits
    cases waits
  · rintro q ⟨c, phase, here, _⟩
    have waits : s.clients c = some phase := here
    rw [idle c] at waits
    cases waits

theorem inv_enabled {ends : Pid → List Nat} {s : System} (inv : Inv ends s) :
    Inv ends { s with enabled := true } := by
  refine ⟨inv.sorted, inv.noNulls, inv.listed, inv.keeps, inv.sound, inv.needed, ?_⟩
  intro disabled
  cases disabled

theorem inv_deliver {ends : Pid → List Nat} {s t : System} {c : Nat} {e : Event}
    (inv : Inv ends s) (formed : WellFormed ends e) (h : step s (.deliver c e) = some t) :
    Inv ends t := by
  simp only [step] at h
  split at h
  · rw [← Option.some.inj h]
    exact inv_enabled inv
  · rename_i proc _ entry
    have here : s.tree.map e.process = some (some proc) := entry
    obtain ⟨made, pid⟩ := inv.keeps.linked e.process proc here
    rw [← Option.some.inj h]
    refine inv_set (inv_enabled inv) rfl ?_ ?_ ?_
    · intro e' proc' phase
      injection phase with same
      injection same with same _
      rw [← same]
      exact ⟨proc, here⟩
    · intro p phase
      rw [← Option.some.inj phase]
      exact ⟨formed, made, pid⟩
    · intro p q phase looked
      rw [← Option.some.inj phase] at looked
      cases looked
  · cases h

theorem inv_proceed {ends : Pid → List Nat} {s t : System} {c : Nat} (inv : Inv ends s)
    (undisturbed : Undisturbed s (.proceed c)) (h : step s (.proceed c) = some t) :
    Inv ends t := by
  obtain ⟨phase, here, advanced⟩ := Option.bind_eq_some_iff.mp h
  obtain ⟨⟨tree, next⟩, done, same⟩ := Option.map_eq_some_iff.mp advanced
  simp only at same
  rw [← same]
  have enabled : s.enabled = true := by
    by_contra disabled
    rw [Bool.not_eq_true] at disabled
    rw [inv.idle disabled c] at here
    cases here
  cases phase with
  | got e proc =>
    obtain ⟨⟨novel, m⟩, stepped, answer⟩ := Option.map_eq_some_iff.mp done
    simp only [Prod.mk.injEq] at answer
    rw [← answer.1, ← answer.2]
    exact inv_step inv enabled here undisturbed stepped
  | accepted e proc =>
    have answer : locked s.tree proc e = (tree, next) := Option.some.inj done
    have kept := inv_locked inv enabled here
    rw [answer] at kept
    exact kept
  | annotating exec original new rest =>
    have answer := Option.some.inj done
    rw [Prod.mk.injEq] at answer
    have sound := inv.sound c _ here
    rw [← answer.1, ← answer.2]
    refine inv_set inv enabled ?_ ?_ ?_
    · intro e proc phase
      split at phase
      · cases phase
      · obtain ⟨more, same⟩ := forAnnotators_some phase
        cases same
    · intro p phase
      split at phase
      · rw [← Option.some.inj phase]
        exact sound
      · obtain ⟨more, same⟩ := forAnnotators_some phase
        rw [same]
        exact sound
    · intro p q phase looked
      split at phase
      · rename_i a decided
        rw [← Option.some.inj phase] at looked
        refine inv.needed q ⟨c, _, here, ?_⟩
        simp only [lookup, decided, Option.map_some]
        exact looked
      · rename_i undecided
        obtain ⟨more, same⟩ := forAnnotators_some phase
        rw [same] at looked
        simp only [lookup, undecided, Option.map_none] at looked
        cases looked
  | annotate exec original new a rest =>
    obtain ⟨m, annotated, answer⟩ := Option.map_eq_some_iff.mp done
    rw [Prod.mk.injEq] at answer
    rw [← answer.1, ← answer.2]
    exact inv_annotate inv enabled here undisturbed annotated

theorem step_keeps {ends : Pid → List Nat} (s : System) (l : Label) (t : System) (inv : Inv ends s)
    (cond : Undisturbed s l ∧ Formed ends l) (h : step s l = some t) : Inv ends t := by
  cases l with
  | backfill parent unlinked =>
    simp only [step] at h
    split at h
    · cases h
    · rename_i disabled
      obtain ⟨tree, done, same⟩ := Option.map_eq_some_iff.mp h
      rw [← same]
      exact inv_backfill inv (Bool.not_eq_true _ ▸ disabled) done
  | deliver c e => exact inv_deliver inv cond.2 h
  | proceed c => exact inv_proceed inv cond.1 h
  | retain pids =>
    obtain ⟨tree, done, same⟩ := Option.map_eq_some_iff.mp h
    rw [← same]
    exact inv_retain inv done
  | release pids =>
    obtain ⟨tree, done, same⟩ := Option.map_eq_some_iff.mp h
    rw [← same]
    exact inv_release inv cond.1 done

def OfClient (c : Nat) : Label → Prop
  | .deliver d _ | .proceed d => d = c
  | .release _ => False
  | _ => True

theorem step_alone {c : Nat} (s : System) (l : Label) (t : System)
    (alone : ∀ d, d ≠ c → s.clients d = none) (ofClient : OfClient c l) (h : step s l = some t) :
    ∀ d, d ≠ c → t.clients d = none := by
  intro d other
  cases l with
  | backfill parent unlinked =>
    simp only [step] at h
    split at h
    · cases h
    · obtain ⟨tree, _, same⟩ := Option.map_eq_some_iff.mp h
      rw [← same]
      exact alone d other
  | deliver c' e =>
    have client : c' = c := ofClient
    simp only [step] at h
    split at h
    · rw [← Option.some.inj h]
      exact alone d other
    · rw [← Option.some.inj h]
      simpa [System.set, client, other] using alone d other
    · cases h
  | proceed c' =>
    have client : c' = c := ofClient
    obtain ⟨phase, _, rest⟩ := Option.bind_eq_some_iff.mp h
    obtain ⟨⟨tree, next⟩, _, same⟩ := Option.map_eq_some_iff.mp rest
    rw [← same]
    simpa [System.set, client, other] using alone d other
  | retain pids =>
    obtain ⟨tree, _, same⟩ := Option.map_eq_some_iff.mp h
    rw [← same]
    exact alone d other
  | release pids => cases ofClient

/-- A client alone is never disturbed: its own steps need nothing that they take out. -/
theorem undisturbed_alone {c : Nat} (annotators : List OriginatorAnnotator) {ls : List Label}
    (ofClient : ∀ l ∈ ls, OfClient c l) :
    Runs.Meets step Undisturbed (.start annotators) ls := by
  have labels := Runs.meets_and_forall (Runs.meets_true step (.start annotators) ls) ofClient
  refine @Runs.meets_of_meets _ _ _ _ _ (fun s => ∀ d, d ≠ c → s.clients d = none) ?_ ?_ _
    (fun _ _ => rfl) _ labels
  · rintro s l alone ⟨_, ofClient⟩
    cases l with
    | backfill parent unlinked => trivial
    | deliver c' e => trivial
    | retain pids => trivial
    | release pids => cases ofClient
    | proceed c' =>
      have client : c' = c := ofClient
      rw [client]
      have only : ∀ {d phase phase'}, s.clients c = some phase → s.clients d = some phase' →
          phase = phase' := by
        intro d phase phase' here there
        by_cases same : d = c
        · rw [same, here] at there
          exact Option.some.inj there
        · rw [alone d same] at there
          cases there
      intro phase here
      cases phase with
      | got e proc =>
        rintro _ q ⟨d, phase, there, looked⟩
        rw [← only here there] at looked
        cases looked
      | accepted e proc => trivial
      | annotating exec original new rest => trivial
      | annotate exec original new a rest =>
        intro r _ _ d exec' child rest' there
        cases only here there
  · rintro s l t alone ⟨_, ofClient⟩ h
    exact step_alone s l t alone ofClient h

/-- In any run on well-formed histories whose steps leave the clients what they look up, the map
    has no null process and AnnotateProcess finds its process there. -/
theorem processes_found (ends : Pid → List Nat) (annotators : List OriginatorAnnotator)
    (ls : List Label) (formed : ∀ l ∈ ls, Formed ends l)
    (undisturbed : Runs.Meets step Undisturbed (.start annotators) ls) :
    Runs.Always step Safe (.start annotators) ls :=
  Runs.always_mono (fun _ => safe_of_inv) (Runs.always_of_meets step_keeps
    (inv_start ends annotators) (Runs.meets_and_forall undisturbed formed))

def launchd : Pid := ⟨1, 1⟩
def shell : Pid := ⟨7, 1⟩

def backfilled : List Label :=
  [.backfill none (.new launchd ⟨0, 0⟩ ⟨"/sbin/launchd", []⟩ none),
    .backfill none (.new shell ⟨0, 0⟩ ⟨"/bin/sh", []⟩ none)]

def shellExits : Pid → List Nat := fun q => if q = shell then [20] else []

/-- A fork is handled, and its process found. -/
theorem fork_finds_process :
    Runs.Always step Safe (.start [⟨.login⟩])
      (backfilled ++ [.deliver 0 (.fork 10 shell ⟨8, 1⟩), .proceed 0, .proceed 0]) :=
  processes_found shellExits [⟨.login⟩] _
    (by decide +kernel)
    (undisturbed_alone (c := 0) _ (by simp [backfilled, OfClient]))

/-- Client 0 stops after Step in a fork by the shell at 10; client 1 handles the shell's exit at
    20 and forks elsewhere from 21 on, until the exit is older than the window. -/
def forkOvertaken : List Label :=
  backfilled ++ [.deliver 0 (.fork 10 shell ⟨8, 1⟩), .proceed 0,
    .deliver 1 (.exit 20 shell), .proceed 1, .proceed 1] ++
  (List.range 33).flatMap (fun i =>
    [.deliver 1 (.fork (21 + i) launchd ⟨100 + i, 1⟩), .proceed 1, .proceed 1]) ++
  [.proceed 0]

/-- The fork then puts a null process into the map. -/
theorem fork_inserts_null :
    ¬ ∀ ends annotators ls, (∀ l ∈ ls, Formed ends l) →
      Runs.Always step Safe (.start annotators) ls := by
  intro always
  have null : (Runs.run step (.start []) forkOvertaken).map (fun s => s.tree.map shell) =
      some (some none) := by
    decide +kernel
  obtain ⟨last, ends, entry⟩ := Option.map_eq_some_iff.mp null
  have formed : ∀ l ∈ forkOvertaken, Formed shellExits l := by
    decide +kernel
  exact (Runs.always_last (always shellExits [] forkOvertaken formed) ends).noNulls shell entry

end Clients
end SantaProcessTree
