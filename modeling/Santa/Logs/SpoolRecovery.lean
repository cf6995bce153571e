import Santa.Logs.SpoolWriter

/-!
The spool writer with a watch on its batcher. The watch knows whether the last batch was
initialized, and notes a record handed to a batcher that was not, and a batch completed that was
not. A batcher that need not be initialized before a write takes records at any time. Noted too is
whether the last call failed to create its file, or a directory for it, or to initialize its
batch; the writer takes some of these failures for a lack of space, and does not try again before
a flush.
-/
namespace SantaSpoolRecovery
open SantaSpoolWriter

structure Watched (B : Type) where
  batcher : B
  ready : Bool
  misused : Bool

def Watched.new {B : Type} (b : B) : Watched B := ⟨b, false, false⟩

/-- What the writer does after a misuse does not matter, as that stays noted. -/
def watched {B : Type} (I : BatcherInterface B) : BatcherInterface (Watched B) where
  shouldInitializeBeforeWrite := I.shouldInitializeBeforeWrite
  needToOpenFile b := I.needToOpenFile b.batcher
  initializeBatch env b :=
    let (batcher, status) := I.initializeBatch env b.batcher
    (⟨batcher, status = .ok, b.misused⟩, status)
  write env b bytes :=
    if I.shouldInitializeBeforeWrite && !b.ready then some ({ b with misused := true }, .internal)
    else (I.write env b.batcher bytes).map fun (batcher, status) =>
      ({ b with batcher := batcher }, status)
  completeBatch env b :=
    if !b.ready then some ({ b with misused := true }, .error .internal, ⟨[], []⟩)
    else (I.completeBatch env b.batcher).map fun (batcher, size, contents) =>
      (⟨batcher, false, b.misused⟩, size, contents)

section
variable {B : Type}

structure Sound (s : System (Watched B)) : Prop where
  unused : s.writer.batcher.misused = false
  initialized : s.writer.tmp ≠ none → s.writer.batcher.ready = true

variable (I : BatcherInterface B)

def created (env : Environment) : Bool := env.directories && env.opens

/-- The call is to create a file, and its space check does not end it. -/
structure Creates (env : Environment) (w : Writer (Watched B)) : Prop where
  closed : w.tmp = none
  needed : I.needToOpenFile w.batcher.batcher = true
  space : env.directories = true → HasSpace w env

structure Opens (env : Environment) (w : Writer (Watched B)) : Prop extends Creates I env w where
  opens : created env = true

/-- The call fails, and not for its space check: a directory or the file is not created, or the
    batch is not initialized. -/
def creationFails (env : Environment) (w : Writer (Watched B)) : Bool :=
  decide ((initializeCurrentSpoolStateIfNeeded (watched I) env w).2 ≠ .ok) &&
    (!env.directories || decide ((spaceAvailable env w).2 = .ok))

def fails (s : System (Watched B)) : Label → Bool
  | .write env _ => I.shouldInitializeBeforeWrite && !s.writer.spaceCheckFailureSinceLastFlush &&
      creationFails I env s.writer
  | .flush env => !I.shouldInitializeBeforeWrite && creationFails I env s.writer

/-- `failed` says whether the last call failed to create its file, or a directory for it, or to
    initialize its batch. -/
structure Watch (B : Type) where
  system : System (Watched B)
  failed : Bool

def Watch.start (b : B) (maxSpoolSize : Nat) : Watch B := ⟨.start (.new b) maxSpoolSize, false⟩

def watchStep (s : Watch B) (l : Label) : Option (Watch B) :=
  (step (watched I) s.system l).map fun t => ⟨t, fails I s.system l⟩

/-- No file is open, and a write that initializes is not kept from it. -/
structure Retries (w : Writer (Watched B)) : Prop where
  closed : w.tmp = none
  tries : I.shouldInitializeBeforeWrite = true → w.spaceCheckFailureSinceLastFlush = false

/-- Nothing goes to a batcher that was not initialized, and what fails is tried again. -/
structure Recovers (s : Watch B) : Prop extends Sound s.system where
  again : s.failed = true → Retries I s.system.writer

/-- With a file that it creates, the call initializes the batch; and no write that fails to create
    one, or a directory for it, takes the error for a lack of space. -/
def Initializes (s : System (Watched B)) : Label → Prop
  | .write env _ => I.shouldInitializeBeforeWrite = true →
      s.writer.spaceCheckFailureSinceLastFlush = false → Creates I env s.writer →
        (created env = true → (I.initializeBatch env s.writer.batcher.batcher).2 = .ok) ∧
          (created env = false → env.errno = .other)
  | .flush env => I.shouldInitializeBeforeWrite = false → Creates I env s.writer →
        created env = true → (I.initializeBatch env s.writer.batcher.batcher).2 = .ok

variable {I}

/-! ### One call -/

theorem spaceAvailable_of_hasSpace {env : Environment} {w : Writer B} (space : HasSpace w env) :
    ∃ estimate, spaceAvailable env w = ({ w with spoolSizeEstimate := estimate }, .ok) := by
  unfold spaceAvailable
  rcases space with room | ⟨size, measured, room⟩
  · rw [if_neg (Nat.not_lt.mpr room)]
    exact ⟨_, rfl⟩
  · split
    · rw [measured]
      simp only [if_neg (Nat.not_lt.mpr room)]
      exact ⟨_, rfl⟩
    · exact ⟨_, rfl⟩

theorem initialize_creates {env : Environment} {w : Writer (Watched B)}
    (creates : Creates I env w) :
    ∃ w', w'.spaceCheckFailureSinceLastFlush = w.spaceCheckFailureSinceLastFlush ∧
      if created env then
        initializeCurrentSpoolStateIfNeeded (watched I) env w =
            (w', (I.initializeBatch env w.batcher.batcher).2) ∧
          w'.tmp = some w.sequenceNumber ∧
          w'.batcher.ready = decide ((I.initializeBatch env w.batcher.batcher).2 = .ok)
      else
        initializeCurrentSpoolStateIfNeeded (watched I) env w =
            (w', errnoToStatus env.errno) ∧ w'.tmp = none := by
  have needed : (watched I).needToOpenFile w.batcher = true := creates.needed
  rw [initializeCurrentSpoolStateIfNeeded, creates.closed, needed, created]
  cases directories : env.directories with
  | false => exact ⟨w, rfl, rfl, creates.closed⟩
  | true =>
    obtain ⟨estimate, space⟩ := spaceAvailable_of_hasSpace (creates.space directories)
    rw [space]
    cases opens : env.opens with
    | true =>
      refine ⟨_, ?_, rfl, ?_, ?_⟩
      all_goals rfl
    | false =>
      refine ⟨_, ?_, rfl, creates.closed⟩
      rfl

theorem initialize_watched {env : Environment} {w w' : Writer (Watched B)} {status : StatusCode}
    (h : initializeCurrentSpoolStateIfNeeded (watched I) env w = (w', status)) :
    (w'.batcher = w.batcher ∧ w'.tmp = w.tmp ∧
      (status = .ok → w.tmp ≠ none ∨ I.needToOpenFile w.batcher.batcher = false)) ∨
    (Opens I env w ∧ w'.batcher.misused = w.batcher.misused ∧
      status = (I.initializeBatch env w.batcher.batcher).2 ∧ w'.tmp ≠ none ∧
      w'.batcher.ready = decide (status = .ok)) := by
  rcases initialize_cases h with ⟨kept, file⟩ |
    ⟨closed, opened, _, _, batcher, needed, directories, space, opens⟩
  · exact Or.inl ⟨kept.batcher, kept.tmp, file⟩
  · obtain ⟨same, answer⟩ := Prod.mk.inj batcher
    have created : created env = true := by rw [created, directories, opens, Bool.and_true]
    refine Or.inr ⟨⟨⟨closed, needed, fun _ => space⟩, created⟩, ?_, answer, ?_, ?_⟩
    · rw [same]
    · rw [opened]
      exact Option.some_ne_none _
    · rw [same, answer]

theorem creates_of_fails {env : Environment} {w : Writer (Watched B)}
    (failed : creationFails I env w = true) : Creates I env w := by
  simp only [creationFails, Bool.and_eq_true, decide_eq_true_eq, Bool.or_eq_true,
    Bool.not_eq_true'] at failed
  obtain ⟨notOk, room⟩ := failed
  unfold initializeCurrentSpoolStateIfNeeded at notOk
  split at notOk
  · exact absurd rfl notOk
  rename_i closed
  split at notOk
  · exact absurd rfl notOk
  rename_i needed
  rw [Bool.not_eq_true', Bool.not_eq_false] at needed
  refine ⟨by simpa using closed, needed, fun directories => ?_⟩
  rcases room with missing | room
  · rw [directories] at missing
    cases missing
  · exact (spaceAvailable_kept env w).2.2 room

theorem creationFails_cases {env : Environment} {w : Writer (Watched B)}
    (failed : creationFails I env w = true) : Creates I env w ∧
      (created env = true → (I.initializeBatch env w.batcher.batcher).2 ≠ .ok) := by
  have creates := creates_of_fails failed
  refine ⟨creates, ?_⟩
  intro opens
  obtain ⟨w', -, outcome⟩ := initialize_creates creates
  rw [if_pos opens] at outcome
  simp only [creationFails, outcome.1, Bool.and_eq_true, decide_eq_true_eq] at failed
  exact failed.1

theorem creationFails_of_closed {env : Environment} {w : Writer (Watched B)}
    (creates : Creates I env w) (closed : created env = false) :
    creationFails I env w = true := by
  obtain ⟨w', -, outcome⟩ := initialize_creates creates
  rw [closed, if_neg Bool.false_ne_true] at outcome
  have room : (!env.directories || decide ((spaceAvailable env w).2 = .ok)) = true := by
    cases directories : env.directories with
    | false => rfl
    | true =>
      obtain ⟨estimate, space⟩ := spaceAvailable_of_hasSpace (creates.space directories)
      rw [space]
      rfl
  rw [creationFails, room, outcome.1, Bool.and_true, decide_eq_true_eq]
  exact errnoToStatus_ne_ok _

/-- While the flag is set a write neither initializes nor hands its record to the batcher. -/
theorem write_refused {I : BatcherInterface B} {w : Writer B} (env : Environment) (bytes : Bytes)
    (early : I.shouldInitializeBeforeWrite = true)
    (failure : w.spaceCheckFailureSinceLastFlush = true) :
    write I env w bytes = some (w, .dataLoss) := by
  rw [write, if_pos early, failure]
  rfl

theorem write_failed {I : BatcherInterface B} {env : Environment} {w w' : Writer B}
    {status : StatusCode} (bytes : Bytes) (early : I.shouldInitializeBeforeWrite = true)
    (noFailure : w.spaceCheckFailureSinceLastFlush = false)
    (failed : initializeCurrentSpoolStateIfNeeded I env w = (w', status)) (notOk : status ≠ .ok) :
    write I env w bytes = some (if status = .resourceExhausted then
      { w' with spaceCheckFailureSinceLastFlush := true } else w', status) := by
  rw [write, if_pos early, noFailure, failed]
  cases status with
  | ok => exact absurd rfl notOk
  | internal | resourceExhausted | dataLoss | errno => rfl

theorem flush_failed {I : BatcherInterface B} {env : Environment} {w w' : Writer B}
    {status : StatusCode} (late : I.shouldInitializeBeforeWrite = false)
    (failed : initializeCurrentSpoolStateIfNeeded I env w = (w', status)) (notOk : status ≠ .ok) :
    flush I env w = some (w', status) := by
  rw [flush, late, failed]
  cases status with
  | ok => exact absurd rfl notOk
  | internal | resourceExhausted | dataLoss | errno => rfl

/-- A write that is to retry, in a system that answers it, initializes its batch and hands the
    record to it. -/
theorem write_retries {env : Environment} {w : Writer (Watched B)} {bytes : Bytes}
    (early : I.shouldInitializeBeforeWrite = true) (retries : Retries I w)
    (opens : Opens I env w) (initializes : (I.initializeBatch env w.batcher.batcher).2 = .ok) :
    ∃ w', w'.batcher.ready = true ∧
      write (watched I) env w bytes = writeBatcher (watched I) env w' bytes := by
  obtain ⟨w', -, outcome⟩ := initialize_creates opens.toCreates
  rw [if_pos opens.opens, initializes] at outcome
  have early : (watched I).shouldInitializeBeforeWrite = true := early
  refine ⟨w', outcome.2.2.trans (decide_eq_true rfl), ?_⟩
  rw [write, if_pos early, retries.tries early, outcome.1]
  rfl

/-! ### What a call keeps -/

theorem sound_kept {w w' : Writer (Watched B)} {acked acked' due due' : List Bytes}
    (sound : Sound ⟨w, acked, due⟩) (batcher : w'.batcher = w.batcher)
    (tmp : w'.tmp = w.tmp) : Sound ⟨w', acked', due'⟩ := by
  refine ⟨?_, ?_⟩
  · simp only [batcher]
    exact sound.unused
  · simp only [batcher, tmp]
    exact sound.initialized

theorem sound_initialized {env : Environment} {w w' : Writer (Watched B)} {status : StatusCode}
    {acked due : List Bytes} (sound : Sound ⟨w, acked, due⟩)
    (initializes : Creates I env w → created env = true →
      (I.initializeBatch env w.batcher.batcher).2 = .ok)
    (h : initializeCurrentSpoolStateIfNeeded (watched I) env w = (w', status)) :
    Sound ⟨w', acked, due⟩ := by
  rcases initialize_watched h with ⟨batcher, tmp, -⟩ | ⟨opens, misused, answer, -, ready⟩
  · exact sound_kept sound batcher tmp
  · refine ⟨?_, fun _ => ?_⟩
    · simp only [misused]
      exact sound.unused
    · simp only [ready, answer, initializes opens.toCreates opens.opens, decide_true]

theorem not_misused {w : Writer (Watched B)}
    (ready : I.shouldInitializeBeforeWrite = true → w.batcher.ready = true) :
    (I.shouldInitializeBeforeWrite && !w.batcher.ready) = false := by
  cases early : I.shouldInitializeBeforeWrite with
  | true => rw [ready early, Bool.not_true, Bool.and_false]
  | false => rw [Bool.false_and]

theorem ready_of_initialized {env : Environment} {w w' : Writer (Watched B)}
    {acked due : List Bytes} (needed : ∀ b, I.needToOpenFile b = true)
    (sound : Sound ⟨w, acked, due⟩)
    (h : initializeCurrentSpoolStateIfNeeded (watched I) env w = (w', .ok)) :
    w'.batcher.ready = true := by
  rcases initialize_watched h with ⟨batcher, -, file⟩ | ⟨-, -, -, -, ready⟩
  · rcases file rfl with isOpen | idle
    · rw [batcher]
      exact sound.initialized isOpen
    · rw [needed] at idle
      cases idle
  · rw [ready, decide_eq_true rfl]

theorem sound_writeBatcher {env : Environment} {w w' : Writer (Watched B)} {bytes : Bytes}
    {status : StatusCode} {acked acked' due : List Bytes} (sound : Sound ⟨w, acked, due⟩)
    (ready : I.shouldInitializeBeforeWrite = true → w.batcher.ready = true)
    (h : writeBatcher (watched I) env w bytes = some (w', status)) :
    Sound ⟨w', acked', due⟩ := by
  simp only [writeBatcher, watched, not_misused ready, Bool.false_eq_true, if_false,
    Option.map_map]
    at h
  obtain ⟨_, -, same⟩ := Option.map_eq_some_iff.mp h
  obtain ⟨rfl, -⟩ := Prod.mk.inj same
  exact ⟨sound.unused, sound.initialized⟩

theorem sound_write {env : Environment} {w w' : Writer (Watched B)} {bytes : Bytes}
    {status : StatusCode} {acked acked' due : List Bytes}
    (needed : I.shouldInitializeBeforeWrite = true → ∀ b, I.needToOpenFile b = true)
    (sound : Sound ⟨w, acked, due⟩)
    (initializes : Initializes I ⟨w, acked, due⟩ (.write env bytes))
    (h : write (watched I) env w bytes = some (w', status)) : Sound ⟨w', acked', due⟩ := by
  unfold write at h
  split at h
  · rename_i early
    split at h
    · rename_i noFailure
      have opened := fun creates => (initializes early (by simpa using noFailure) creates).1
      split at h
      · rename_i m initialized
        exact sound_writeBatcher (sound_initialized sound opened initialized)
          (fun _ => ready_of_initialized (needed early) sound initialized) h
      · rename_i m initialized
        obtain ⟨rfl, -⟩ := Prod.mk.inj (Option.some.inj h)
        have kept := sound_initialized sound opened initialized
        exact ⟨kept.unused, kept.initialized⟩
      · rename_i m failed _ _ initialized
        obtain ⟨rfl, -⟩ := Prod.mk.inj (Option.some.inj h)
        have kept := sound_initialized sound opened initialized
        exact ⟨kept.unused, kept.initialized⟩
    · obtain ⟨rfl, -⟩ := Prod.mk.inj (Option.some.inj h)
      exact ⟨sound.unused, sound.initialized⟩
  · rename_i late
    exact sound_writeBatcher sound (fun early => absurd early late) h

theorem sound_complete {env : Environment} {w w' : Writer (Watched B)} {status : StatusCode}
    {acked due due' : List Bytes} (sound : Sound ⟨w, acked, due⟩)
    (h : complete (watched I) env w = some (w', status)) : Sound ⟨w', acked, due'⟩ := by
  obtain ⟨⟨m, answer⟩, completed, same⟩ := Option.map_eq_some_iff.mp h
  obtain ⟨rfl, -⟩ := Prod.mk.inj same
  suffices kept : Sound ⟨m, acked, due⟩ from ⟨kept.unused, kept.initialized⟩
  unfold completeCurrentSpoolState at completed
  split at completed
  · obtain ⟨rfl, -⟩ := Prod.mk.inj (Option.some.inj completed)
    exact sound
  · rename_i fname isOpen
    have ready := sound.initialized (by rw [isOpen]; exact Option.some_ne_none _)
    simp only at ready
    simp only [watched, ready, Bool.not_true, Bool.false_eq_true, if_false, Option.map_map]
      at completed
    obtain ⟨⟨batcher, size, contents⟩, -, result⟩ := Option.map_eq_some_iff.mp completed
    simp only [Function.comp_apply] at result
    split at result
    · obtain ⟨rfl, -⟩ := Prod.mk.inj result
      exact ⟨sound.unused, fun isOpen => absurd rfl isOpen⟩
    · split at result
      · obtain ⟨rfl, -⟩ := Prod.mk.inj result
        exact ⟨sound.unused, fun isOpen => absurd rfl isOpen⟩
      · obtain ⟨rfl, -⟩ := Prod.mk.inj result
        exact ⟨sound.unused, fun isOpen => absurd rfl isOpen⟩

theorem sound_flush {env : Environment} {w w' : Writer (Watched B)} {status : StatusCode}
    {acked due due' : List Bytes} (sound : Sound ⟨w, acked, due⟩)
    (initializes : Initializes I ⟨w, acked, due⟩ (.flush env))
    (h : flush (watched I) env w = some (w', status)) : Sound ⟨w', acked, due'⟩ := by
  unfold flush at h
  split at h
  · rename_i late
    have opened := initializes (by simpa [watched] using late)
    split at h
    · rename_i m initialized
      exact sound_complete (sound_initialized sound opened initialized) h
    · rename_i m failed _ initialized
      obtain ⟨rfl, -⟩ := Prod.mk.inj (Option.some.inj h)
      have kept := sound_initialized sound opened initialized
      exact ⟨kept.unused, kept.initialized⟩
  · exact sound_complete sound h

theorem step_keeps (needed : I.shouldInitializeBeforeWrite = true → ∀ b, I.needToOpenFile b = true)
    (s : System (Watched B)) (l : Label) (t : System (Watched B)) (sound : Sound s)
    (initializes : Initializes I s l) (h : step (watched I) s l = some t) : Sound t := by
  cases l with
  | write env bytes =>
    obtain ⟨⟨w, status⟩, written, same⟩ := Option.map_eq_some_iff.mp h
    rw [← same]
    exact sound_write needed sound initializes written
  | flush env =>
    obtain ⟨⟨w, status⟩, flushed, same⟩ := Option.map_eq_some_iff.mp h
    rw [← same]
    exact sound_flush sound initializes flushed

/-! ### What a failed initialization leaves -/

theorem again_write {env : Environment} {s : System (Watched B)} {t : System (Watched B)}
    {bytes : Bytes} (initializes : Initializes I s (.write env bytes))
    (failed : fails I s (.write env bytes) = true)
    (h : step (watched I) s (.write env bytes) = some t) : Retries I t.writer := by
  simp only [fails, Bool.and_eq_true, Bool.not_eq_true'] at failed
  obtain ⟨⟨early, noFailure⟩, failed⟩ := failed
  obtain ⟨creates, notOk⟩ := creationFails_cases failed
  obtain ⟨initialized, other⟩ := initializes early noFailure creates
  cases opens : created env with
  | true => exact absurd (initialized opens) (notOk opens)
  | false =>
    obtain ⟨w, flag, outcome⟩ := initialize_creates creates
    rw [opens, if_neg Bool.false_ne_true, other opens] at outcome
    obtain ⟨⟨w', status⟩, written, same⟩ := Option.map_eq_some_iff.mp h
    rw [write_failed bytes (I := watched I) early noFailure outcome.1 (errnoToStatus_ne_ok _),
      if_neg (by decide)] at written
    obtain ⟨rfl, -⟩ := Prod.mk.inj (Option.some.inj written)
    subst t
    exact ⟨outcome.2, fun _ => flag.trans noFailure⟩

theorem again_flush {env : Environment} {s : System (Watched B)} {t : System (Watched B)}
    (initializes : Initializes I s (.flush env)) (failed : fails I s (.flush env) = true)
    (h : step (watched I) s (.flush env) = some t) : Retries I t.writer := by
  simp only [fails, Bool.and_eq_true, Bool.not_eq_true'] at failed
  obtain ⟨late, failed⟩ := failed
  obtain ⟨creates, notOk⟩ := creationFails_cases failed
  cases opens : created env with
  | true => exact absurd (initializes late creates opens) (notOk opens)
  | false =>
    obtain ⟨w, -, outcome⟩ := initialize_creates creates
    rw [opens, if_neg Bool.false_ne_true] at outcome
    obtain ⟨⟨w', status⟩, flushed, same⟩ := Option.map_eq_some_iff.mp h
    rw [flush_failed (I := watched I) late outcome.1 (errnoToStatus_ne_ok _)] at flushed
    obtain ⟨rfl, -⟩ := Prod.mk.inj (Option.some.inj flushed)
    subst t
    refine ⟨outcome.2, fun early => ?_⟩
    rw [late] at early
    cases early

theorem watchStep_keeps (needed : I.shouldInitializeBeforeWrite = true →
      ∀ b, I.needToOpenFile b = true) (s : Watch B) (l : Label) (t : Watch B)
    (recovers : Recovers I s) (initializes : Initializes I s.system l)
    (h : watchStep I s l = some t) : Recovers I t := by
  obtain ⟨m, taken, same⟩ := Option.map_eq_some_iff.mp h
  subst t
  refine ⟨step_keeps needed s.system l m recovers.toSound initializes taken, ?_⟩
  intro failed
  cases l with
  | write env bytes => exact again_write initializes failed taken
  | flush env => exact again_flush initializes failed taken

theorem uninitialized_stays {env : Environment} {w : Writer (Watched B)} (opens : Opens I env w)
    (failed : (I.initializeBatch env w.batcher.batcher).2 ≠ .ok) :
    ∃ w' status, initializeCurrentSpoolStateIfNeeded (watched I) env w = (w', status) ∧
      status ≠ .ok ∧ w'.tmp ≠ none ∧ w'.batcher.ready = false := by
  obtain ⟨w', -, outcome⟩ := initialize_creates opens.toCreates
  rw [if_pos opens.opens] at outcome
  obtain ⟨initialized, isOpen, ready⟩ := outcome
  refine ⟨w', _, initialized, failed, ?_, ?_⟩
  · rw [isOpen]
    exact Option.some_ne_none _
  · rw [ready, decide_eq_false failed]

theorem write_breaks {env : Environment} {s t : System (Watched B)} {bytes : Bytes}
    (early : I.shouldInitializeBeforeWrite = true)
    (noFailure : s.writer.spaceCheckFailureSinceLastFlush = false) (opens : Opens I env s.writer)
    (failed : (I.initializeBatch env s.writer.batcher.batcher).2 ≠ .ok)
    (h : step (watched I) s (.write env bytes) = some t) : ¬ Sound t := by
  intro sound
  obtain ⟨w, status, initialized, notOk, isOpen, ready⟩ := uninitialized_stays opens failed
  obtain ⟨⟨w', status'⟩, written, same⟩ := Option.map_eq_some_iff.mp h
  have stays : w'.tmp = w.tmp ∧ w'.batcher = w.batcher := by
    rw [write_failed bytes (I := watched I) early noFailure initialized notOk] at written
    obtain ⟨rfl, -⟩ := Prod.mk.inj (Option.some.inj written)
    split
    · exact ⟨rfl, rfl⟩
    · exact ⟨rfl, rfl⟩
  subst t
  have initialized := sound.initialized (by rw [stays.1]; exact isOpen)
  rw [stays.2, ready] at initialized
  cases initialized

theorem flush_breaks {env : Environment} {s t : System (Watched B)}
    (late : I.shouldInitializeBeforeWrite = false) (opens : Opens I env s.writer)
    (failed : (I.initializeBatch env s.writer.batcher.batcher).2 ≠ .ok)
    (h : step (watched I) s (.flush env) = some t) : ¬ Sound t := by
  intro sound
  obtain ⟨w, status, initialized, notOk, isOpen, ready⟩ := uninitialized_stays opens failed
  obtain ⟨⟨w', status'⟩, flushed, same⟩ := Option.map_eq_some_iff.mp h
  rw [flush_failed (I := watched I) late initialized notOk] at flushed
  obtain ⟨rfl, -⟩ := Prod.mk.inj (Option.some.inj flushed)
  subst t
  have initialized := sound.initialized isOpen
  rw [ready] at initialized
  cases initialized

/-- A file that is not opened for want of a resource keeps the writes before the next flush from
    initializing. -/
theorem exhausted_breaks {env : Environment} {s t : System (Watched B)} {bytes : Bytes}
    (early : I.shouldInitializeBeforeWrite = true)
    (noFailure : s.writer.spaceCheckFailureSinceLastFlush = false)
    (creates : Creates I env s.writer) (closed : created env = false)
    (exhausted : env.errno ≠ .other)
    (h : step (watched I) s (.write env bytes) = some t) : ¬ Retries I t.writer := by
  intro retries
  have error : env.errno = .exhausted := by
    cases error : env.errno with
    | exhausted => rfl
    | other => exact absurd error exhausted
  obtain ⟨w, -, outcome⟩ := initialize_creates creates
  rw [closed, if_neg Bool.false_ne_true, error] at outcome
  obtain ⟨⟨w', status⟩, written, same⟩ := Option.map_eq_some_iff.mp h
  rw [write_failed bytes (I := watched I) early noFailure outcome.1 (errnoToStatus_ne_ok _),
    if_pos (by decide)] at written
  obtain ⟨rfl, -⟩ := Prod.mk.inj (Option.some.inj written)
  subst t
  exact nomatch retries.tries early

theorem watchStep_breaks (s : Watch B) (l : Label) (t : Watch B)
    (unmet : ¬ Initializes I s.system l) (h : watchStep I s l = some t) : ¬ Recovers I t := by
  intro recovers
  obtain ⟨m, taken, same⟩ := Option.map_eq_some_iff.mp h
  subst t
  cases l with
  | write env bytes =>
    simp only [Initializes, Classical.not_imp] at unmet
    obtain ⟨early, noFailure, creates, unmet⟩ := unmet
    cases opens : created env with
    | true =>
      simp only [opens, true_imp_iff, Bool.true_eq_false, false_imp_iff, and_true] at unmet
      exact write_breaks early noFailure ⟨creates, opens⟩ unmet taken recovers.toSound
    | false =>
      simp only [opens, Bool.false_eq_true, false_imp_iff, true_and, true_imp_iff] at unmet
      refine exhausted_breaks early noFailure creates opens unmet taken (recovers.again ?_)
      simp only [fails, early, noFailure, creationFails_of_closed creates opens]
      rfl
  | flush env =>
    simp only [Initializes, Classical.not_imp] at unmet
    obtain ⟨late, creates, opens, failed⟩ := unmet
    exact flush_breaks late ⟨creates, opens⟩ failed taken recovers.toSound

/-! ### Without the watch -/

def unwatchedWriter (w : Writer (Watched B)) : Writer B :=
  ⟨w.batcher.batcher, w.tmp, w.sequenceNumber, w.spaceCheckFailureSinceLastFlush,
    w.spoolSizeEstimate, w.maxSpoolSize, w.spool⟩

def unwatched (s : System (Watched B)) : System B := ⟨unwatchedWriter s.writer, s.acked, s.due⟩

def unwatchedAnswer (answer : Writer (Watched B) × StatusCode) : Writer B × StatusCode :=
  (unwatchedWriter answer.1, answer.2)

theorem spaceAvailable_unwatched (env : Environment) (w : Writer (Watched B)) :
    spaceAvailable env (unwatchedWriter w) = unwatchedAnswer (spaceAvailable env w) := by
  unfold spaceAvailable
  by_cases full : w.maxSpoolSize < w.spoolSizeEstimate
  · have same : (unwatchedWriter w).maxSpoolSize < (unwatchedWriter w).spoolSizeEstimate := full
    rw [if_pos full, if_pos same]
    cases env.dirSize with
    | none => rfl
    | some size => rfl
  · have same : ¬ (unwatchedWriter w).maxSpoolSize < (unwatchedWriter w).spoolSizeEstimate := full
    rw [if_neg full, if_neg same]
    rfl

theorem initialize_unwatched (env : Environment) (w : Writer (Watched B)) :
    initializeCurrentSpoolStateIfNeeded I env (unwatchedWriter w) =
      unwatchedAnswer (initializeCurrentSpoolStateIfNeeded (watched I) env w) := by
  have same : (watched I).needToOpenFile w.batcher = I.needToOpenFile w.batcher.batcher := rfl
  have closed : (unwatchedWriter w).tmp = w.tmp := rfl
  have batcher : (unwatchedWriter w).batcher = w.batcher.batcher := rfl
  unfold initializeCurrentSpoolStateIfNeeded
  rw [spaceAvailable_unwatched, same, closed, batcher]
  cases w.tmp.isSome with
  | true => rfl
  | false =>
    cases I.needToOpenFile w.batcher.batcher with
    | false => rfl
    | true =>
      cases env.directories with
      | false => rfl
      | true =>
        obtain ⟨m, status⟩ := spaceAvailable env w
        cases status with
        | ok =>
          cases opens : env.opens with
          | true => rfl
          | false => rfl
        | internal | resourceExhausted | dataLoss | errno => rfl

theorem writeBatcher_unwatched {env : Environment} {w : Writer (Watched B)} {bytes : Bytes}
    (ready : I.shouldInitializeBeforeWrite = true → w.batcher.ready = true) :
    writeBatcher I env (unwatchedWriter w) bytes =
      (writeBatcher (watched I) env w bytes).map unwatchedAnswer := by
  simp only [writeBatcher, watched, not_misused ready, Bool.false_eq_true, if_false,
    Option.map_map]
  rfl

theorem complete_unwatched {env : Environment} {w : Writer (Watched B)}
    (ready : w.tmp ≠ none → w.batcher.ready = true) :
    complete I env (unwatchedWriter w) = (complete (watched I) env w).map unwatchedAnswer := by
  have completed : completeCurrentSpoolState I env (unwatchedWriter w) =
      (completeCurrentSpoolState (watched I) env w).map unwatchedAnswer := by
    have tmp : (unwatchedWriter w).tmp = w.tmp := rfl
    unfold completeCurrentSpoolState
    rw [tmp]
    cases isOpen : w.tmp with
    | none => rfl
    | some fname =>
      have ready := ready (by rw [isOpen]; exact Option.some_ne_none _)
      simp only [watched, ready, Bool.not_true, Bool.false_eq_true, if_false, Option.map_map]
      refine Option.map_congr ?_
      rintro ⟨batcher, size, contents⟩ -
      cases size with
      | error status => rfl
      | ok size =>
        simp only [Function.comp_apply]
        split
        · rfl
        · rfl
  rw [complete, complete, completed, Option.map_map, Option.map_map]
  rfl

theorem write_unwatched {env : Environment} {s : System (Watched B)} {bytes : Bytes}
    (needed : I.shouldInitializeBeforeWrite = true → ∀ b, I.needToOpenFile b = true)
    (sound : Sound s) :
    write I env (unwatchedWriter s.writer) bytes =
      (write (watched I) env s.writer bytes).map unwatchedAnswer := by
  have flag : (unwatchedWriter s.writer).spaceCheckFailureSinceLastFlush =
    s.writer.spaceCheckFailureSinceLastFlush := rfl
  have early : (watched I).shouldInitializeBeforeWrite = I.shouldInitializeBeforeWrite := rfl
  unfold write
  rw [initialize_unwatched, flag, early]
  cases early : I.shouldInitializeBeforeWrite with
  | false =>
    exact writeBatcher_unwatched fun h => by
      rw [early] at h
      cases h
  | true =>
    cases failure : s.writer.spaceCheckFailureSinceLastFlush with
    | true => rfl
    | false =>
      cases initialized : initializeCurrentSpoolStateIfNeeded (watched I) env s.writer with
      | mk m status =>
        cases status with
        | ok =>
          exact writeBatcher_unwatched fun _ =>
            ready_of_initialized (needed early) sound initialized
        | internal | resourceExhausted | dataLoss | errno => rfl

theorem flush_unwatched {env : Environment} {s : System (Watched B)}
    (sound : Sound s) (initializes : Initializes I s (.flush env)) :
    flush I env (unwatchedWriter s.writer) =
      (flush (watched I) env s.writer).map unwatchedAnswer := by
  have early : (watched I).shouldInitializeBeforeWrite = I.shouldInitializeBeforeWrite := rfl
  unfold flush
  rw [initialize_unwatched, early]
  cases late : I.shouldInitializeBeforeWrite with
  | true => exact complete_unwatched sound.initialized
  | false =>
    cases initialized : initializeCurrentSpoolStateIfNeeded (watched I) env s.writer with
    | mk m status =>
      cases status with
      | ok =>
        have kept : Sound ⟨m, s.acked, s.due⟩ :=
          sound_initialized sound (initializes late) initialized
        exact complete_unwatched kept.initialized
      | internal | resourceExhausted | dataLoss | errno => rfl

theorem step_unwatched (needed : I.shouldInitializeBeforeWrite = true →
      ∀ b, I.needToOpenFile b = true) {s : System (Watched B)} {l : Label}
    (sound : Sound s) (initializes : Initializes I s l) :
    step I (unwatched s) l = (step (watched I) s l).map unwatched := by
  cases l with
  | write env bytes =>
    simp only [step, unwatched]
    rw [write_unwatched needed sound, Option.map_map, Option.map_map]
    rfl
  | flush env =>
    simp only [step, unwatched]
    rw [flush_unwatched sound initializes, Option.map_map, Option.map_map]
    rfl

/-! ### Whole runs -/

/-- For any batcher: the runs that recover are those in which each batch was initialized, and no
    write took a failure to open its file for a lack of space. -/
theorem recovers_iff_initializes (needed : I.shouldInitializeBeforeWrite = true →
      ∀ b, I.needToOpenFile b = true) (b : B) (maxSpoolSize : Nat) (ls : List Label) :
    Runs.Always (watchStep I) (Recovers I) (.start b maxSpoolSize) ls ↔
      Runs.Meets (watchStep I) (fun s => Initializes I s.system) (.start b maxSpoolSize) ls :=
  Runs.always_iff_meets (Recovers I) (fun _ recovers => recovers) (watchStep_keeps needed)
    (fun s l t _ => watchStep_breaks s l t)
    ⟨⟨rfl, fun isOpen => absurd rfl isOpen⟩, fun failed => absurd failed Bool.false_ne_true⟩ ls

end

/-- A stream is created for each file that a write opens, and no write fails to create its file or
    a directory for want of a resource. -/
def CreatesStream (f : Format) (s : Watch (Option Stream)) : Label → Prop
  | .write env _ => s.system.writer.spaceCheckFailureSinceLastFlush = false →
      Creates (streamBatcher f) env s.system.writer →
        (created env = true → env.creates = true) ∧ (created env = false → env.errno = .other)
  | .flush _ => True

theorem initializes_stream {f : Format} {s : Watch (Option Stream)} {l : Label} :
    Initializes (streamBatcher f) s.system l ↔ CreatesStream f s l := by
  cases l with
  | write env bytes =>
    have created : (∀ output, ((streamBatcher f).initializeBatch env output).2 = .ok ↔
        env.creates = true) := by
      intro output
      cases creates : env.creates with
      | true => simp [streamBatcher, creates]
      | false => simp [streamBatcher, creates]
    simp only [Initializes, CreatesStream, created]
    exact ⟨fun h => h rfl, fun h _ => h⟩
  | flush env => exact iff_of_true (fun late => by cases late) trivial

/-- With streams, a run recovers throughout just where each file that a write opens gets its
    stream, and where one that is not opened is no sign of an exhausted resource. The batcher that
    keeps its records in memory always recovers. -/
theorem recovers_iff_streams_created (f : Format) (maxSpoolSize : Nat) (ls : List Label) :
    (Runs.Always (watchStep (streamBatcher f)) (Recovers (streamBatcher f))
        (.start none maxSpoolSize) ls ↔
      Runs.Meets (watchStep (streamBatcher f)) (CreatesStream f) (.start none maxSpoolSize) ls) ∧
    Runs.Always (watchStep (anyBatcher f)) (Recovers (anyBatcher f)) (.start [] maxSpoolSize)
      ls := by
  refine ⟨?_, ?_⟩
  · rw [recovers_iff_initializes fun _ _ => rfl]
    exact Runs.meets_iff (fun _ _ (_ : True) => initializes_stream)
      (fun _ _ _ _ _ => trivial) trivial ls
  · refine (recovers_iff_initializes (fun early => by cases early) _ _ _).mpr ?_
    refine Runs.meets_of_meets ?_ (fun _ _ _ (_ : True) _ _ => trivial) trivial
      (Runs.meets_true _ _ _)
    rintro s (⟨env, bytes⟩ | env) - -
    · exact fun early => by cases early
    · exact fun _ _ _ => rfl

def streamless : Environment := { fine with creates := false }

def diskFull : Environment := { fine with opens := false, errno := .exhausted }

/-- After a stream that could not be created the next record goes to a batcher without one, and
    the program ends at a null pointer. After a file that could not be opened on a full disk the
    next write does not try. -/
theorem next_write_uninitialized :
    ¬ Runs.Always (watchStep (streamBatcher plain)) (Recovers (streamBatcher plain))
      (.start none 9) [.write streamless [7], .write fine [8]] ∧
    (Runs.run (watchStep (streamBatcher plain)) (.start none 9)
      [.write streamless [7], .write fine [8]]).map (·.system.writer.batcher.misused) =
        some true ∧
    (Runs.run (step (streamBatcher plain)) (.start none 9)
      [.write streamless [7], .write fine [8]]).isNone = true ∧
    ¬ Runs.Always (watchStep (streamBatcher plain)) (Recovers (streamBatcher plain))
      (.start none 9) [.write diskFull [7]] := by
  have misused : (Runs.run (watchStep (streamBatcher plain)) (.start none 9)
      [.write streamless [7], .write fine [8]]).map (·.system.writer.batcher.misused) =
        some true := rfl
  have full : (Runs.run (watchStep (streamBatcher plain)) (.start none 9)
      [.write diskFull [7]]).map (fun s =>
        (s.failed, s.system.writer.spaceCheckFailureSinceLastFlush)) = some (true, true) := rfl
  refine ⟨fun always => ?_, misused, rfl, fun always => ?_⟩
  · obtain ⟨last, ends, misused⟩ := Option.map_eq_some_iff.mp misused
    rw [(Runs.always_last always ends).unused] at misused
    cases misused
  · obtain ⟨last, ends, flags⟩ := Option.map_eq_some_iff.mp full
    obtain ⟨failed, flag⟩ := Prod.mk.inj flags
    rw [((Runs.always_last always ends).again failed).tries rfl] at flag
    cases flag

end SantaSpoolRecovery
