import Santa.Logs.SpoolWriter

/-!
The space in the spool directory. The writer keeps an estimate that grows with each batch, and has
the directory looked at when the estimate is over the maximum. The directory is scanned only if its
modification time is not the one that was stored last; otherwise the estimate passes for current.
Two states of the directory have two modification times.
-/
namespace SantaSpoolSpace
open SantaSpoolWriter

structure Timespec where
  tvSec : Int
  tvNsec : Int
  deriving DecidableEq, Repr

/-- An entry has a size if it is a regular file that can be looked at. -/
structure Directory where
  mtime : Timespec
  entries : List (Option UInt64)
  deriving DecidableEq, Repr

def kDiskClusterSize : UInt64 := 4096

def estimateDiskOccupation (fileSize : UInt64) : UInt64 :=
  let nClusters := (fileSize + kDiskClusterSize - 1) / kDiskClusterSize
  (if nClusters = 0 then 1 else nClusters) * kDiskClusterSize

def Directory.estimateDirSize (dir : Directory) : UInt64 :=
  dir.entries.foldl (fun estimate entry => match entry with
    | none => estimate
    | some size => estimate + estimateDiskOccupation size) 0

/-- Whether the directory's times can be had, and whether a scan of it gets through. -/
structure Access where
  stats : Bool
  scans : Bool
  deriving DecidableEq, Repr

structure Space where
  spoolSizeEstimate : UInt64
  maxSpoolSize : UInt64
  spoolDirLastMtime : Timespec
  deriving DecidableEq, Repr

/- The modification time is not initialized. -/
def Space.new (uninitialized : Timespec) (maxSpoolSize : UInt64) : Space :=
  ⟨maxSpoolSize + 1, maxSpoolSize, uninitialized⟩

def Space.estimateSpoolDirSize (space : Space) (access : Access) (dir : Directory) :
    Space × Option UInt64 :=
  if !access.stats then (space, none)
  else if dir.mtime = space.spoolDirLastMtime then (space, some space.spoolSizeEstimate)
  else
    let space := { space with spoolDirLastMtime := dir.mtime }
    (space, if access.scans then some dir.estimateDirSize else none)

def Space.spaceAvailable (space : Space) (access : Access) (dir : Directory) :
    Space × StatusCode :=
  if space.maxSpoolSize < space.spoolSizeEstimate then
    match space.estimateSpoolDirSize access dir with
    | (space, none) => (space, .errno)
    | (space, some estimate) =>
        ({ space with spoolSizeEstimate := estimate },
          if space.maxSpoolSize < estimate then .resourceExhausted else .ok)
  else (space, .ok)

def Space.completed (space : Space) (size : UInt64) : Space :=
  { space with spoolSizeEstimate := space.spoolSizeEstimate + size }

/-! ### The writer and the directory -/

/-- `scans` are the completed scans, with the directory's modification time and what was found;
    `mtimes` all the modification times that the directory has had. -/
structure System where
  space : Space
  dir : Directory
  scans : List (Timespec × UInt64)
  mtimes : List Timespec

def System.scanned (s : System) (access : Access) : List (Timespec × UInt64) :=
  if s.space.maxSpoolSize < s.space.spoolSizeEstimate ∧ access.stats ∧
      s.dir.mtime ≠ s.space.spoolDirLastMtime ∧ access.scans then
    [(s.dir.mtime, s.dir.estimateDirSize)]
  else []

def System.asked (s : System) (access : Access) : System :=
  { s with
    space := (s.space.spaceAvailable access s.dir).1
    scans := s.scans ++ s.scanned access }

def System.changed (s : System) (dir : Directory) : Option System :=
  if dir.mtime ∈ s.mtimes then none
  else some { s with dir := dir, mtimes := s.mtimes ++ [dir.mtime] }

def System.start (uninitialized : Timespec) (maxSpoolSize : UInt64) (dir : Directory) : System :=
  ⟨.new uninitialized maxSpoolSize, dir, [], [dir.mtime]⟩

/-- A write or a flush asks for space, a flush completes a batch and renames its file into the
    directory or fails to, others change the directory. -/
inductive Label where
  | available (access : Access)
  | complete (size : UInt64) (renamed : Option Directory)
  | change (dir : Directory)

def step (s : System) : Label → Option System
  | .available access => some (s.asked access)
  | .complete size none => some { s with space := s.space.completed size }
  | .complete size (some dir) => ({ s with space := s.space.completed size } : System).changed dir
  | .change dir => s.changed dir

/-- An estimate is marked as current only after a scan; the spool is reported full only if a scan
    found it so; and not full where a scan can find that it is not. -/
structure Safe (s : System) : Prop where
  marked : s.space.spoolDirLastMtime = s.dir.mtime → ∃ size, (s.dir.mtime, size) ∈ s.scans
  exhausted : ∀ access, (s.space.spaceAvailable access s.dir).2 = .resourceExhausted →
    ∃ size, (s.dir.mtime, size) ∈ (s.asked access).scans ∧ s.space.maxSpoolSize < size
  available : ∀ access, access.stats = true → access.scans = true →
    s.dir.estimateDirSize ≤ s.space.maxSpoolSize → (s.space.spaceAvailable access s.dir).2 = .ok

/-- A scan that is begun gets through. A file that is not renamed leaves a current estimate below
    the maximum, if the directory is. The directory never has the modification time that is stored,
    which may be the one that was not initialized. -/
def Sound (s : System) : Label → Prop
  | .available access => s.space.maxSpoolSize < s.space.spoolSizeEstimate → access.stats = true →
      s.dir.mtime ≠ s.space.spoolDirLastMtime → access.scans = true
  | .complete size none => s.space.spoolDirLastMtime = s.dir.mtime →
      s.dir.estimateDirSize ≤ s.space.maxSpoolSize →
        s.space.spoolSizeEstimate + size ≤ s.space.maxSpoolSize
  | .complete _ (some dir) => dir.mtime ≠ s.space.spoolDirLastMtime
  | .change dir => dir.mtime ≠ s.space.spoolDirLastMtime

/-! ### One step -/

theorem spaceAvailable_cases (s : System) (access : Access) :
    (¬ s.space.maxSpoolSize < s.space.spoolSizeEstimate ∧ s.asked access = s ∧
      (s.space.spaceAvailable access s.dir).2 = .ok) ∨
    (access.stats = false ∧ s.asked access = s ∧
      (s.space.spaceAvailable access s.dir).2 = .errno) ∨
    (s.space.maxSpoolSize < s.space.spoolSizeEstimate ∧
      s.dir.mtime = s.space.spoolDirLastMtime ∧ s.asked access = s ∧
      (s.space.spaceAvailable access s.dir).2 = .resourceExhausted) ∨
    (s.space.maxSpoolSize < s.space.spoolSizeEstimate ∧ access.stats = true ∧
      s.dir.mtime ≠ s.space.spoolDirLastMtime ∧ access.scans = false ∧
      s.asked access = { s with space := { s.space with spoolDirLastMtime := s.dir.mtime } } ∧
      (s.space.spaceAvailable access s.dir).2 = .errno) ∨
    (s.dir.mtime ≠ s.space.spoolDirLastMtime ∧ access.scans = true ∧
      s.asked access =
        { s with
          space := ⟨s.dir.estimateDirSize, s.space.maxSpoolSize, s.dir.mtime⟩
          scans := s.scans ++ [(s.dir.mtime, s.dir.estimateDirSize)] } ∧
      (s.space.spaceAvailable access s.dir).2 =
        if s.space.maxSpoolSize < s.dir.estimateDirSize then .resourceExhausted else .ok) := by
  unfold System.asked System.scanned Space.spaceAvailable Space.estimateSpoolDirSize
  by_cases beyond : s.space.maxSpoolSize < s.space.spoolSizeEstimate
  · cases stats : access.stats with
    | false => simp [beyond]
    | true =>
      by_cases same : s.dir.mtime = s.space.spoolDirLastMtime
      · simp [beyond, same]
      · cases scans : access.scans with
        | false => simp [beyond, same]
        | true => simp [beyond, same]
  · simp [beyond]

structure Inv (s : System) : Prop where
  present : s.dir.mtime ∈ s.mtimes
  seen : ∀ scan ∈ s.scans, scan.1 ∈ s.mtimes
  latest : ∀ scan ∈ s.scans, scan.1 = s.dir.mtime →
    s.space.spoolDirLastMtime = s.dir.mtime ∧ scan.2 = s.dir.estimateDirSize
  current : s.space.spoolDirLastMtime = s.dir.mtime →
    (s.dir.mtime, s.dir.estimateDirSize) ∈ s.scans ∧
      (s.space.maxSpoolSize < s.space.spoolSizeEstimate →
        s.space.maxSpoolSize < s.dir.estimateDirSize)

theorem Inv.safe {s : System} (inv : Inv s) : Safe s := by
  refine ⟨fun marked => ⟨_, (inv.current marked).1⟩, ?_, ?_⟩
  · intro access full
    rcases spaceAvailable_cases s access with ⟨-, -, answer⟩ | ⟨-, -, answer⟩ |
      ⟨beyond, same, asked, -⟩ | ⟨-, -, -, -, -, answer⟩ | ⟨-, -, asked, answer⟩
    · rw [answer] at full
      cases full
    · rw [answer] at full
      cases full
    · obtain ⟨scanned, large⟩ := inv.current same.symm
      rw [asked]
      exact ⟨_, scanned, large beyond⟩
    · rw [answer] at full
      cases full
    · rw [answer] at full
      rw [asked]
      refine ⟨_, List.mem_append_right _ (List.mem_singleton.mpr rfl), ?_⟩
      split at full
      · assumption
      · cases full
  · intro access stats scans small
    rcases spaceAvailable_cases s access with ⟨-, -, answer⟩ | ⟨failed, -, -⟩ |
      ⟨beyond, same, -, -⟩ | ⟨-, -, -, failed, -, -⟩ | ⟨-, -, -, answer⟩
    · exact answer
    · rw [stats] at failed
      cases failed
    · exact absurd ((inv.current same.symm).2 beyond) (UInt64.not_lt.mpr small)
    · rw [scans] at failed
      cases failed
    · rw [answer, if_neg (UInt64.not_lt.mpr small)]

theorem inv_asked {s : System} {access : Access} (inv : Inv s)
    (sound : Sound s (.available access)) : Inv (s.asked access) := by
  rcases spaceAvailable_cases s access with ⟨-, asked, -⟩ | ⟨-, asked, -⟩ | ⟨-, -, asked, -⟩ |
    ⟨beyond, stats, other, failed, -, -⟩ | ⟨other, -, asked, -⟩
  · rw [asked]
    exact inv
  · rw [asked]
    exact inv
  · rw [asked]
    exact inv
  · rw [sound beyond stats other] at failed
    cases failed
  · rw [asked]
    refine ⟨inv.present, ?_, ?_, ?_⟩
    · intro scan member
      rcases List.mem_append.mp member with old | new
      · exact inv.seen scan old
      · rw [List.mem_singleton.mp new]
        exact inv.present
    · intro scan member here
      rcases List.mem_append.mp member with old | new
      · exact ⟨rfl, (inv.latest scan old here).2⟩
      · rw [List.mem_singleton.mp new]
        exact ⟨rfl, rfl⟩
    · exact fun _ => ⟨List.mem_append_right _ (List.mem_singleton.mpr rfl), id⟩

theorem changed_cases {s t : System} {dir : Directory} (taken : s.changed dir = some t) :
    dir.mtime ∉ s.mtimes ∧ t = { s with dir := dir, mtimes := s.mtimes ++ [dir.mtime] } := by
  unfold System.changed at taken
  split at taken
  · cases taken
  · exact ⟨‹_›, (Option.some.inj taken).symm⟩

theorem inv_changed {s t : System} {dir : Directory}
    (seen : ∀ scan ∈ s.scans, scan.1 ∈ s.mtimes) (other : dir.mtime ≠ s.space.spoolDirLastMtime)
    (taken : s.changed dir = some t) : Inv t := by
  obtain ⟨fresh, rfl⟩ := changed_cases taken
  refine ⟨List.mem_append_right _ (List.mem_singleton.mpr rfl), ?_, ?_, ?_⟩
  · exact fun scan member => List.mem_append_left _ (seen scan member)
  · intro scan member here
    have old := seen scan member
    rw [here] at old
    exact absurd old fresh
  · exact fun same => absurd same.symm other

theorem unsafe_changed {s t : System} {dir : Directory}
    (seen : ∀ scan ∈ s.scans, scan.1 ∈ s.mtimes) (same : dir.mtime = s.space.spoolDirLastMtime)
    (taken : s.changed dir = some t) : ¬ Safe t := by
  obtain ⟨fresh, rfl⟩ := changed_cases taken
  intro safe
  obtain ⟨size, member⟩ := safe.marked same.symm
  exact fresh (seen _ member)

theorem step_keeps (s : System) (l : Label) (t : System) (inv : Inv s) (sound : Sound s l)
    (taken : step s l = some t) : Inv t := by
  cases l with
  | available access =>
    rw [← Option.some.inj taken]
    exact inv_asked inv sound
  | change dir => exact inv_changed inv.seen sound taken
  | complete size renamed =>
    cases renamed with
    | some dir =>
      exact inv_changed (s := { s with space := s.space.completed size })
        inv.seen sound taken
    | none =>
      rw [← Option.some.inj taken]
      refine ⟨inv.present, inv.seen, inv.latest, fun same => ⟨(inv.current same).1, ?_⟩⟩
      intro beyond
      refine UInt64.not_le.mp fun small => ?_
      exact absurd (sound same small) (UInt64.not_le.mpr beyond)

theorem step_breaks (s : System) (l : Label) (t : System) (inv : Inv s) (unsound : ¬ Sound s l)
    (taken : step s l = some t) : ¬ Safe t := by
  cases l with
  | available access =>
    simp only [Sound, Classical.not_imp, Bool.not_eq_true] at unsound
    obtain ⟨beyond, stats, other, failed⟩ := unsound
    rw [← Option.some.inj taken]
    intro safe
    rcases spaceAvailable_cases s access with ⟨room, -, -⟩ | ⟨unknown, -, -⟩ | ⟨-, same, -, -⟩ |
      ⟨-, -, -, -, asked, -⟩ | ⟨-, scans, -, -⟩
    · exact room beyond
    · rw [stats] at unknown
      cases unknown
    · exact other same
    · rw [asked] at safe
      obtain ⟨size, member⟩ := safe.marked rfl
      exact other (inv.latest _ member rfl).1.symm
    · rw [failed] at scans
      cases scans
  | change dir =>
    exact unsafe_changed inv.seen (Classical.not_not.mp unsound) taken
  | complete size renamed =>
    cases renamed with
    | some dir =>
      exact unsafe_changed (s := { s with space := s.space.completed size })
        inv.seen (Classical.not_not.mp unsound) taken
    | none =>
      simp only [Sound, Classical.not_imp, UInt64.not_le] at unsound
      obtain ⟨same, small, beyond⟩ := unsound
      rw [← Option.some.inj taken]
      intro safe
      have ok := safe.available ⟨true, true⟩ rfl rfl small
      simp [Space.spaceAvailable, Space.estimateSpoolDirSize, Space.completed, beyond, same] at ok

/-! ### Whole runs -/

theorem inv_start {uninitialized : Timespec} {dir : Directory} (maxSpoolSize : UInt64)
    (other : uninitialized ≠ dir.mtime) : Inv (.start uninitialized maxSpoolSize dir) :=
  ⟨List.mem_singleton.mpr rfl, fun _ member => absurd member List.not_mem_nil,
    fun _ member => absurd member List.not_mem_nil, fun same => absurd same other⟩

section
variable {B : Type} {I : BatcherInterface B}

structure Agrees (space : Space) (w : Writer B) : Prop where
  estimate : w.spoolSizeEstimate = space.spoolSizeEstimate.toNat
  maxSpoolSize : w.maxSpoolSize = space.maxSpoolSize.toNat

def Answers (s : System) (access : Access) (env : Environment) : Prop :=
  env.dirSize = (s.space.estimateSpoolDirSize access s.dir).2.map UInt64.toNat

theorem estimateSpoolDirSize_kept (space : Space) (access : Access) (dir : Directory) :
    (space.estimateSpoolDirSize access dir).1.spoolSizeEstimate = space.spoolSizeEstimate ∧
      (space.estimateSpoolDirSize access dir).1.maxSpoolSize = space.maxSpoolSize := by
  unfold Space.estimateSpoolDirSize
  split
  · exact ⟨rfl, rfl⟩
  · split
    · exact ⟨rfl, rfl⟩
    · exact ⟨rfl, rfl⟩

theorem spaceAvailable_agrees {s : System} {access : Access} {env : Environment} {w : Writer B}
    (agrees : Agrees s.space w) (answers : Answers s access env) :
    Agrees (s.asked access).space (SantaSpoolWriter.spaceAvailable env w).1 ∧
      ((s.space.spaceAvailable access s.dir).2 ≠ .errno →
        (SantaSpoolWriter.spaceAvailable env w).2 = (s.space.spaceAvailable access s.dir).2) := by
  have beyond : w.maxSpoolSize < w.spoolSizeEstimate ↔
      s.space.maxSpoolSize < s.space.spoolSizeEstimate := by
    rw [agrees.estimate, agrees.maxSpoolSize]
    exact UInt64.lt_iff_toNat_lt.symm
  unfold System.asked Space.spaceAvailable SantaSpoolWriter.spaceAvailable
  rw [answers]
  by_cases full : s.space.maxSpoolSize < s.space.spoolSizeEstimate
  · rw [if_pos full, if_pos (beyond.mpr full)]
    obtain ⟨sameEstimate, sameMax⟩ := estimateSpoolDirSize_kept s.space access s.dir
    cases measured : s.space.estimateSpoolDirSize access s.dir with
    | mk space answer =>
      rw [measured] at sameEstimate sameMax
      simp only at sameEstimate sameMax
      have agreesMax := agrees.maxSpoolSize.trans (congrArg UInt64.toNat sameMax.symm)
      cases answer with
      | none =>
        exact ⟨⟨agrees.estimate.trans (congrArg UInt64.toNat sameEstimate.symm), agreesMax⟩,
          fun known => absurd rfl known⟩
      | some estimate =>
        refine ⟨⟨rfl, agreesMax⟩, fun _ => ?_⟩
        simp only [Option.map_some, agreesMax, UInt64.lt_iff_toNat_lt]
  · rw [if_neg full, if_neg (fun h => full (beyond.mp h))]
    exact ⟨agrees, fun _ => rfl⟩

def Asks (s t : System) (access : Access) : Prop := t = s ∨ t = s.asked access

theorem asks_run {s t : System} {access : Access} (asks : Asks s t access) :
    ∃ ls, (∀ l ∈ ls, l = .available access) ∧ Runs.run step s ls = some t := by
  rcases asks with rfl | rfl
  · exact ⟨[], fun _ member => absurd member List.not_mem_nil, rfl⟩
  · exact ⟨[.available access], fun _ member => List.mem_singleton.mp member, rfl⟩

theorem initialize_asks {s : System} {access : Access} {env : Environment} {w w' : Writer B}
    {status : StatusCode} (agrees : Agrees s.space w) (answers : Answers s access env)
    (h : initializeCurrentSpoolStateIfNeeded I env w = (w', status)) :
    ∃ t, Asks s t access ∧ Agrees t.space w' := by
  unfold initializeCurrentSpoolStateIfNeeded at h
  split at h
  · obtain ⟨rfl, -⟩ := Prod.mk.inj h
    exact ⟨s, Or.inl rfl, agrees⟩
  split at h
  · obtain ⟨rfl, -⟩ := Prod.mk.inj h
    exact ⟨s, Or.inl rfl, agrees⟩
  split at h
  · obtain ⟨rfl, -⟩ := Prod.mk.inj h
    exact ⟨s, Or.inl rfl, agrees⟩
  obtain ⟨asked, -⟩ := spaceAvailable_agrees agrees answers
  refine ⟨s.asked access, Or.inr rfl, ?_⟩
  split at h
  · rename_i m available
    rw [available] at asked
    split at h
    · obtain ⟨rfl, -⟩ := Prod.mk.inj h
      exact ⟨asked.estimate, asked.maxSpoolSize⟩
    · obtain ⟨rfl, -⟩ := Prod.mk.inj h
      exact ⟨asked.estimate, asked.maxSpoolSize⟩
  · rename_i m status' _ available
    rw [available] at asked
    obtain ⟨rfl, -⟩ := Prod.mk.inj h
    exact asked

theorem write_takes {s : System} {access : Access} {env : Environment} {w w' : Writer B}
    {bytes : Bytes} {status : StatusCode} (agrees : Agrees s.space w)
    (answers : Answers s access env) (h : write I env w bytes = some (w', status)) :
    ∃ ls t, (∀ l ∈ ls, l = .available access) ∧ Runs.run step s ls = some t ∧
      Agrees t.space w' := by
  have writes : ∀ {m m' : Writer B} {t : System}, Agrees t.space m →
      writeBatcher I env m bytes = some (m', status) → Agrees t.space m' := by
    intro m m' t agrees written
    obtain ⟨_, -, same⟩ := Option.map_eq_some_iff.mp written
    obtain ⟨rfl, -⟩ := Prod.mk.inj same
    exact ⟨agrees.estimate, agrees.maxSpoolSize⟩
  suffices takes : ∃ t, Asks s t access ∧ Agrees t.space w' by
    obtain ⟨t, asks, kept⟩ := takes
    obtain ⟨ls, labels, ends⟩ := asks_run asks
    exact ⟨ls, t, labels, ends, kept⟩
  unfold write at h
  split at h
  · split at h
    · split at h
      · rename_i m initialized
        obtain ⟨t, asks, kept⟩ := initialize_asks agrees answers initialized
        exact ⟨t, asks, writes kept h⟩
      · rename_i m initialized
        obtain ⟨t, asks, kept⟩ := initialize_asks agrees answers initialized
        obtain ⟨rfl, -⟩ := Prod.mk.inj (Option.some.inj h)
        exact ⟨t, asks, kept.estimate, kept.maxSpoolSize⟩
      · rename_i m _ _ _ initialized
        obtain ⟨t, asks, kept⟩ := initialize_asks agrees answers initialized
        obtain ⟨rfl, -⟩ := Prod.mk.inj (Option.some.inj h)
        exact ⟨t, asks, kept⟩
    · obtain ⟨rfl, -⟩ := Prod.mk.inj (Option.some.inj h)
      exact ⟨s, Or.inl rfl, agrees⟩
  · exact ⟨s, Or.inl rfl, writes agrees h⟩

theorem complete_takes {s : System} {env : Environment} {w w' : Writer B} {status : StatusCode}
    {dir : Directory} (agrees : Agrees s.space w) (fresh : dir.mtime ∉ s.mtimes)
    (fits : w'.spoolSizeEstimate < 2 ^ 64) (h : complete I env w = some (w', status)) :
    ∃ ls t, (∀ l ∈ ls, ∃ size, l = .complete size (if env.renames then some dir else none)) ∧
      Runs.run step s ls = some t ∧ Agrees t.space w' := by
  obtain ⟨⟨m, answer⟩, completed, same⟩ := Option.map_eq_some_iff.mp h
  obtain ⟨rfl, -⟩ := Prod.mk.inj same
  have unchanged : Agrees s.space m → ∃ ls t,
      (∀ l ∈ ls, ∃ size, l = .complete size (if env.renames then some dir else none)) ∧
        Runs.run step s ls = some t ∧
          Agrees t.space { m with spaceCheckFailureSinceLastFlush := false } := fun kept =>
    ⟨[], s, fun _ member => absurd member List.not_mem_nil, rfl, kept.estimate, kept.maxSpoolSize⟩
  unfold completeCurrentSpoolState at completed
  split at completed
  · obtain ⟨rfl, -⟩ := Prod.mk.inj (Option.some.inj completed)
    exact unchanged agrees
  obtain ⟨⟨batcher, sizeEstimate, contents⟩, -, result⟩ := Option.map_eq_some_iff.mp completed
  cases sizeEstimate with
  | error failed =>
    obtain ⟨rfl, -⟩ := Prod.mk.inj result
    exact unchanged ⟨agrees.estimate, agrees.maxSpoolSize⟩
  | ok size =>
    have grown : m.spoolSizeEstimate = w.spoolSizeEstimate + size ∧
        m.maxSpoolSize = w.maxSpoolSize := by
      simp only at result
      split at result
      · obtain ⟨rfl, -⟩ := Prod.mk.inj result
        exact ⟨rfl, rfl⟩
      · obtain ⟨rfl, -⟩ := Prod.mk.inj result
        exact ⟨rfl, rfl⟩
    have kept : Agrees (s.space.completed (UInt64.ofNat size)) m := by
      refine ⟨?_, grown.2.trans agrees.maxSpoolSize⟩
      simp only at fits
      rw [grown.1, agrees.estimate] at fits ⊢
      have small : size < 2 ^ 64 := by omega
      rw [Space.completed, UInt64.toNat_add, UInt64.toNat_ofNat_of_lt' small,
        Nat.mod_eq_of_lt fits]
    cases renames : env.renames with
    | true =>
      refine ⟨[.complete (UInt64.ofNat size) (some dir)],
        { s with
          space := s.space.completed (UInt64.ofNat size)
          dir := dir
          mtimes := s.mtimes ++ [dir.mtime] }, ?_, ?_, kept.estimate, kept.maxSpoolSize⟩
      · exact fun l member => ⟨_, List.mem_singleton.mp member⟩
      · simp only [Runs.run, step, System.changed, fresh, if_false, Option.bind_some]
    | false =>
      refine ⟨[.complete (UInt64.ofNat size) none],
        { s with space := s.space.completed (UInt64.ofNat size) }, ?_, rfl,
        kept.estimate, kept.maxSpoolSize⟩
      exact fun l member => ⟨_, List.mem_singleton.mp member⟩

theorem flush_takes {s : System} {access : Access} {env : Environment} {w w' : Writer B}
    {status : StatusCode} {dir : Directory} (agrees : Agrees s.space w)
    (answers : Answers s access env) (fresh : dir.mtime ∉ s.mtimes)
    (fits : w'.spoolSizeEstimate < 2 ^ 64) (h : flush I env w = some (w', status)) :
    ∃ asked t ls u, (∀ l ∈ asked, l = .available access) ∧ Runs.run step s asked = some t ∧
      (∀ l ∈ ls, ∃ size, l = .complete size (if env.renames then some dir else none)) ∧
      Runs.run step t ls = some u ∧ Agrees u.space w' := by
  unfold flush at h
  split at h
  · split at h
    · rename_i m initialized
      obtain ⟨t, asks, kept⟩ := initialize_asks agrees answers initialized
      have unseen : dir.mtime ∉ t.mtimes := by
        rcases asks with rfl | rfl
        · exact fresh
        · exact fresh
      obtain ⟨asked, available, ends⟩ := asks_run asks
      obtain ⟨ls, u, labels, takes, done⟩ := complete_takes kept unseen fits h
      exact ⟨asked, t, ls, u, available, ends, labels, takes, done⟩
    · rename_i m _ _ initialized
      obtain ⟨t, asks, kept⟩ := initialize_asks agrees answers initialized
      obtain ⟨asked, available, ends⟩ := asks_run asks
      obtain ⟨rfl, -⟩ := Prod.mk.inj (Option.some.inj h)
      exact ⟨asked, t, [], t, available, ends, fun _ member => absurd member List.not_mem_nil,
        rfl, kept⟩
  · obtain ⟨ls, u, labels, takes, done⟩ := complete_takes agrees fresh fits h
    exact ⟨[], s, ls, u, fun _ member => absurd member List.not_mem_nil, rfl, labels, takes, done⟩

end
end SantaSpoolSpace
