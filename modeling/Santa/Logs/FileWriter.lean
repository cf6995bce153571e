import Mathlib.Algebra.Group.Nat.Defs
import Santa.Library.Runs
import Santa.Library.Vectors

/-!
The writer of the log file. Records are copied into a buffer, which is handed to write(2) when it
has reached the batch size or a flush is asked for. A record for which there is no room makes the
buffer grow to twice its capacity, once, however large the record is.
-/
namespace SantaFileWriter

abbrev Bytes := List UInt8

/-- More elements than this make a vector of bytes throw. -/
def maxSize : Nat := 2 ^ 63 - 1

structure File where
  buffer : GrowingVector UInt8
  batchSizeBytes : UInt64
  bufferOffset : Nat

inductive Fault where
  | lengthError
  | outsideBuffer
  deriving DecidableEq, Repr

def File.new (batchSizeBytes maxExpectedWriteSizeBytes : UInt64) : Except Fault File :=
  let size := (batchSizeBytes + maxExpectedWriteSizeBytes).toNat
  if maxSize < size then .error .lengthError
  else .ok ⟨.filled size 0, batchSizeBytes, 0⟩

def File.shouldFlush (f : File) : Bool := decide (f.bufferOffset ≥ f.batchSizeBytes.toNat)

/- The sizes of two vectors are added, which stays below 2^64. -/
def File.ensureCapacitySerialized (f : File) (additionalBytes : Nat) : Except Fault File :=
  if f.bufferOffset + additionalBytes > f.buffer.capacity then
    if maxSize < f.buffer.capacity * 2 then .error .lengthError
    else .ok { f with buffer := f.buffer.resize (f.buffer.capacity * 2) 0 }
  else .ok f

def File.copyDataSerialized (f : File) (bytes : Bytes) : Except Fault File :=
  match f.ensureCapacitySerialized bytes.length with
  | .error fault => .error fault
  | .ok f => match f.buffer.writeAt f.bufferOffset bytes with
    | none => .error .outsideBuffer
    | some buffer => .ok { f with buffer := buffer, bufferOffset := f.bufferOffset + bytes.length }

def File.flushSerialized (f : File) : File × Bytes :=
  if f.bufferOffset > 0 then
    ({ f with bufferOffset := 0 }, f.buffer.contents.take f.bufferOffset)
  else (f, [])

def File.write (f : File) (bytes : Bytes) : Except Fault (File × Bytes) :=
  match f.copyDataSerialized bytes with
  | .error fault => .error fault
  | .ok f => .ok (if f.shouldFlush then f.flushSerialized else (f, []))

/-! ### The writer in a run -/

/-- `handed` are the bytes handed to write(2); `records` the records written so far. `overran` is
    set by a copy that left the buffer, after which the program is not defined. -/
structure System where
  file : File
  handed : Bytes
  records : List Bytes
  overran : Bool

/-- A flush is asked for, or the timer's turn has come. -/
inductive Label where
  | write (bytes : Bytes)
  | flush

def System.start (file : File) : System := ⟨file, [], [], false⟩

/-- A vector that throws ends the program. -/
def step (s : System) (l : Label) : Option System :=
  if s.overran then none
  else match l with
  | .write bytes => match s.file.write bytes with
      | .ok (file, handed) =>
          some ⟨file, s.handed ++ handed, s.records ++ [bytes], false⟩
      | .error .outsideBuffer =>
          some { s with records := s.records ++ [bytes], overran := true }
      | .error .lengthError => none
  | .flush =>
      let (file, handed) := s.file.flushSerialized
      some { s with file := file, handed := s.handed ++ handed }

/-- No copy has left the buffer, and the records are in order, each once, in what was handed over
    and what is still in the buffer. -/
structure Safe (s : System) : Prop where
  inside : s.overran = false
  whole : s.handed ++ s.file.buffer.contents.take s.file.bufferOffset = s.records.flatten

/-- A record fits into the buffer or into one that is twice as large. -/
def Fits (s : System) : Label → Prop
  | .write bytes => s.file.bufferOffset + bytes.length ≤ 2 * s.file.buffer.capacity
  | .flush => True

instance (s : System) (l : Label) : Decidable (Fits s l) := by
  cases l with
  | write bytes => exact inferInstanceAs (Decidable (_ ≤ _))
  | flush => exact inferInstanceAs (Decidable True)

/-! ### One step -/

structure Inv (s : System) : Prop where
  safe : Safe s
  full : s.file.buffer.size = s.file.buffer.capacity
  offset : s.file.bufferOffset ≤ s.file.buffer.size

theorem ensureCapacity_ok {f f' : File} {additionalBytes : Nat}
    (full : f.buffer.size = f.buffer.capacity) (offset : f.bufferOffset ≤ f.buffer.size)
    (grown : f.ensureCapacitySerialized additionalBytes = .ok f') :
    f'.bufferOffset = f.bufferOffset ∧ f'.batchSizeBytes = f.batchSizeBytes ∧
      f'.buffer.size = f'.buffer.capacity ∧ f.bufferOffset ≤ f'.buffer.size ∧
      f'.buffer.contents.take f.bufferOffset = f.buffer.contents.take f.bufferOffset ∧
      (f.bufferOffset + additionalBytes ≤ f'.buffer.size ↔
        f.bufferOffset + additionalBytes ≤ 2 * f.buffer.capacity) := by
  unfold File.ensureCapacitySerialized at grown
  split at grown
  · rename_i more
    split at grown
    · cases grown
    · obtain rfl := Except.ok.inj grown
      have kept : f.bufferOffset ≤ f.buffer.capacity * 2 := by omega
      have room : (f.buffer.resize (f.buffer.capacity * 2) 0).capacity = f.buffer.capacity * 2 := by
        simp only [GrowingVector.resize]
        split <;> omega
      refine ⟨rfl, rfl, ?_, ?_, GrowingVector.resize_take _ _ offset kept, ?_⟩
      · rw [GrowingVector.size_resize, room]
      · rw [GrowingVector.size_resize]
        exact kept
      · rw [GrowingVector.size_resize, Nat.mul_comm]
  · rename_i room
    obtain rfl := Except.ok.inj grown
    refine ⟨rfl, rfl, full, offset, rfl, ?_⟩
    rw [full]
    omega

theorem flush_whole (f : File) :
    f.flushSerialized.2 ++
        f.flushSerialized.1.buffer.contents.take f.flushSerialized.1.bufferOffset =
      f.buffer.contents.take f.bufferOffset ∧
    f.flushSerialized.1.buffer = f.buffer ∧ f.flushSerialized.1.bufferOffset ≤ f.bufferOffset := by
  unfold File.flushSerialized
  split
  · exact ⟨List.append_nil _, rfl, Nat.zero_le _⟩
  · exact ⟨rfl, rfl, Nat.le_refl _⟩

theorem copyData_cases {f : File} {bytes : Bytes} (full : f.buffer.size = f.buffer.capacity)
    (offset : f.bufferOffset ≤ f.buffer.size) :
    (∃ f', f.copyDataSerialized bytes = .ok f' ∧
      f.bufferOffset + bytes.length ≤ 2 * f.buffer.capacity ∧
      f'.buffer.size = f'.buffer.capacity ∧ f'.bufferOffset ≤ f'.buffer.size ∧
      f'.buffer.contents.take f'.bufferOffset =
        f.buffer.contents.take f.bufferOffset ++ bytes) ∨
    (f.copyDataSerialized bytes = .error .outsideBuffer ∧
      ¬ f.bufferOffset + bytes.length ≤ 2 * f.buffer.capacity) ∨
    f.copyDataSerialized bytes = .error .lengthError := by
  unfold File.copyDataSerialized
  cases grown : f.ensureCapacitySerialized bytes.length with
  | error fault =>
    have thrown : fault = .lengthError := by
      unfold File.ensureCapacitySerialized at grown
      split at grown
      · split at grown
        · exact (Except.error.inj grown).symm
        · cases grown
      · cases grown
    rw [thrown]
    exact Or.inr (Or.inr rfl)
  | ok g =>
    obtain ⟨sameOffset, -, full', offset', kept, room⟩ := ensureCapacity_ok full offset grown
    simp only [sameOffset]
    cases written : g.buffer.writeAt f.bufferOffset bytes with
    | none =>
      have outside := GrowingVector.writeAt_none_iff.mp written
      rw [← room]
      exact Or.inr (Or.inl ⟨rfl, Nat.not_le.mpr outside⟩)
    | some buffer =>
      obtain ⟨size, capacity, contents⟩ := GrowingVector.writeAt_some written
      have inside : f.bufferOffset + bytes.length ≤ g.buffer.size := by
        refine Nat.not_lt.mp fun outside => ?_
        rw [GrowingVector.writeAt_none_iff.mpr outside] at written
        cases written
      refine Or.inl ⟨_, rfl, room.mp inside, ?_, ?_, ?_⟩
      · rw [size, capacity, full']
      · rw [size]
        exact inside
      · rw [contents, kept]

theorem inv_flush {s : System} (inv : Inv s) :
    Inv { s with file := s.file.flushSerialized.1,
                 handed := s.handed ++ s.file.flushSerialized.2 } := by
  obtain ⟨whole, buffer, offset⟩ := flush_whole s.file
  refine ⟨⟨inv.safe.inside, ?_⟩, ?_, ?_⟩
  · rw [List.append_assoc, whole]
    exact inv.safe.whole
  · simp only [buffer]
    exact inv.full
  · simp only [buffer]
    exact Nat.le_trans offset inv.offset

theorem inv_written {s : System} (inv : Inv s) {f : File} {bytes : Bytes}
    (full : f.buffer.size = f.buffer.capacity) (offset : f.bufferOffset ≤ f.buffer.size)
    (contents : f.buffer.contents.take f.bufferOffset =
      s.file.buffer.contents.take s.file.bufferOffset ++ bytes) :
    Inv ⟨f, s.handed, s.records ++ [bytes], false⟩ := by
  refine ⟨⟨rfl, ?_⟩, full, offset⟩
  rw [contents, ← List.append_assoc, inv.safe.whole, List.flatten_append, List.flatten_singleton]

theorem step_cases {s t : System} {l : Label} (inv : Inv s) (taken : step s l = some t) :
    (Fits s l ∧ Inv t) ∨ (¬ Fits s l ∧ t.overran = true) := by
  unfold step at taken
  rw [if_neg (by rw [inv.safe.inside]; exact Bool.false_ne_true)] at taken
  cases l with
  | flush =>
    rw [← Option.some.inj taken]
    exact Or.inl ⟨trivial, inv_flush inv⟩
  | write bytes =>
    rcases @copyData_cases _ bytes inv.full inv.offset with
      ⟨f, copied, fits, full, offset, contents⟩ | ⟨outside, large⟩ | thrown
    · have before := inv_written inv full offset contents
      simp only [File.write, copied] at taken
      rw [← Option.some.inj taken]
      refine Or.inl ⟨fits, ?_⟩
      split
      · exact inv_flush before
      · simp only [List.append_nil]
        exact before
    · simp only [File.write, outside] at taken
      rw [← Option.some.inj taken]
      exact Or.inr ⟨large, rfl⟩
    · simp only [File.write, thrown] at taken
      cases taken

/-! ### Whole runs -/

theorem inv_start {batchSizeBytes maxExpectedWriteSizeBytes : UInt64} {file : File}
    (created : File.new batchSizeBytes maxExpectedWriteSizeBytes = .ok file) :
    Inv (.start file) := by
  simp only [File.new] at created
  split at created
  · cases created
  · obtain rfl := Except.ok.inj created
    refine ⟨⟨rfl, rfl⟩, ?_, Nat.zero_le _⟩
    exact (GrowingVector.size_filled _ _).trans (GrowingVector.capacity_filled _ _).symm

/-- For every configuration, the runs in which each record fits are those that stay safe. -/
theorem safe_iff_fits {batchSizeBytes maxExpectedWriteSizeBytes : UInt64} {file : File}
    (created : File.new batchSizeBytes maxExpectedWriteSizeBytes = .ok file) (ls : List Label) :
    Runs.Always step Safe (.start file) ls ↔ Runs.Meets step Fits (.start file) ls := by
  refine Runs.always_iff_meets Inv (fun _ inv => inv.safe) ?_ ?_ (inv_start created) ls
  · intro s l t inv fits taken
    rcases step_cases inv taken with ⟨_, kept⟩ | ⟨large, _⟩
    · exact kept
    · exact absurd fits large
  · intro s l t inv large taken safe
    rcases step_cases inv taken with ⟨fits, _⟩ | ⟨_, overran⟩
    · exact large fits
    · rw [safe.inside] at overran
      cases overran

def smallFile : File := ⟨.filled 3 0, 2, 0⟩

def flushedRecords : List Label := [.write [1, 2, 3, 4], .write [5], .flush]

theorem small_records_safe : Runs.Always step Safe (.start smallFile) flushedRecords := by
  have created : File.new 2 1 = .ok smallFile := rfl
  exact (safe_iff_fits created flushedRecords).mpr (by decide)

theorem copyData_thrown {f : File} {bytes : Bytes}
    (thrown : f.copyDataSerialized bytes = .error .lengthError) :
    maxSize < f.buffer.capacity * 2 := by
  unfold File.copyDataSerialized File.ensureCapacitySerialized at thrown
  split at thrown
  · rename_i fault grown
    split at grown
    · split at grown
      · assumption
      · cases grown
    · cases grown
  · split at thrown
    · cases thrown
    · cases thrown

/-- A record of more than twice the capacity is copied past the end of the buffer. -/
theorem large_record_overruns {s : System} (inv : Inv s) {bytes : Bytes}
    (large : ¬ Fits s (.write bytes)) (small : s.file.buffer.capacity * 2 ≤ maxSize) :
    ¬ Runs.Always step Safe s [.write bytes] := by
  intro always
  rcases @copyData_cases _ bytes inv.full inv.offset with
    ⟨_, _, fits, _⟩ | ⟨outside, _⟩ | thrown
  · exact large fits
  · have taken : step s (.write bytes) =
        some { s with records := s.records ++ [bytes], overran := true } := by
      rw [step, if_neg (by rw [inv.safe.inside]; exact Bool.false_ne_true)]
      simp only [File.write, outside]
    cases (always.2 _ taken).inside
  · exact Nat.not_lt.mpr small (copyData_thrown thrown)

def daemonFile : File := ⟨.filled 135168 0, 131072, 0⟩

/-- One byte more than twice the daemon's buffer, and one byte for a buffer of none. -/
theorem one_byte_more_overruns :
    (File.new 131072 4096 = .ok daemonFile ∧
      ¬ Runs.Always step Safe (.start daemonFile) [.write (List.replicate 270337 0)]) ∧
    (File.new 0 0 = .ok ⟨.filled 0 0, 0, 0⟩ ∧
      ¬ Runs.Always step Safe (.start ⟨.filled 0 0, 0, 0⟩) [.write [7]]) := by
  have created : File.new 131072 4096 = .ok daemonFile := rfl
  have none : File.new 0 0 = .ok ⟨.filled 0 0, 0, 0⟩ := rfl
  refine ⟨⟨created, large_record_overruns (inv_start created) ?_ (by decide)⟩,
    none, large_record_overruns (inv_start none) (by decide) (by decide)⟩
  intro fits
  have size : (List.replicate 270337 (0 : UInt8)).length = 270337 := List.length_replicate
  simp only [Fits, size] at fits
  exact absurd fits (by decide)

end SantaFileWriter
