import Santa.Library.Frames
import Santa.Logs.SpoolWriter

/-!
The frames of a stream batch, as they are written and as the command that prints log files reads
them back: a magic number, the hash of the record, its length as a varint, and its bytes. The hash
is of eight bytes.
-/
namespace SantaStreamFrames
open SantaSpoolWriter (Bytes Format Stream streamBatcher fine byteCount intMax kStreamBatcherMagic
  littleEndian32 varintBytes varint32)
open Frames

/-! ### Reading -/

inductive ReadError where
  | outOfRange (message : String)
  | internal (message : String)
  deriving DecidableEq, Repr

def readRaw (size : Nat) (input : Bytes) : Option (Bytes × Bytes) :=
  if size ≤ input.length then some (input.take size, input.drop size) else none

def readLittleEndian32 (input : Bytes) : Option (Nat × Bytes) :=
  match input with
  | a :: b :: c :: d :: rest =>
      some (a.toNat + 2 ^ 8 * b.toNat + 2 ^ 16 * c.toNat + 2 ^ 24 * d.toNat, rest)
  | _ => none

def readVarint : Nat → Bytes → Option (Nat × Bytes)
  | 0, _ => none
  | _, [] => none
  | fuel + 1, byte :: rest =>
      if byte.toNat < 128 then some (byte.toNat, rest)
      else (readVarint fuel rest).map fun (n, rest) => (byte.toNat - 128 + 128 * n, rest)

/-- Ten bytes at most; the number is cut to 32 bits. -/
def readVarint32 (input : Bytes) : Option (Nat × Bytes) :=
  (readVarint 10 input).map fun (n, rest) => (n % 2 ^ 32, rest)

/-- The bytes of the next message and what follows. A hash of zero is not checked. -/
def next (f : Format) (input : Bytes) : Except ReadError (Bytes × Bytes) :=
  match readLittleEndian32 input with
  | none => .error (.outOfRange "No more data")
  | some (magic, input) =>
      if magic ≠ kStreamBatcherMagic then .error (.internal "Invalid magic value")
      else match readRaw 8 input with
      | none => .error (.internal "Failed to parse hash data")
      | some (expectedHash, input) => match readVarint32 input with
        | none => .error (.internal "Failed to parse message length")
        | some (messageLength, input) => match readRaw messageLength input with
          | none => .error (.internal "Failed to read message into buffer")
          | some (msgBuf, input) =>
              if expectedHash ≠ List.replicate 8 0 ∧ f.xxhash64 msgBuf ≠ expectedHash then
                .error (.internal "Message corruption detected")
              else .ok (msgBuf, input)

def readFile (f : Format) (input : Bytes) : List Bytes × Option ReadError :=
  readAll (next f) (input.length + 1) input

/-! ### Writing -/

def coded (f : Format) (records : List Bytes) : Option (Option Stream) :=
  records.foldlM
    (fun output bytes => ((streamBatcher f).write fine output bytes).map Prod.fst)
    ((streamBatcher f).initializeBatch fine none).1

def bytesWritten (f : Format) (records : List Bytes) : Bytes :=
  (((coded f records).bind id).map Stream.codedOutput).getD []

def batchSize (f : Format) (records : List Bytes) : Option Nat :=
  (coded f records).bind fun output =>
    ((streamBatcher f).completeBatch fine output).bind fun (_, size, _) => size.toOption

def Short (bytes : Bytes) : Prop := bytes.length < 2 ^ 31

instance : DecidablePred Short := fun bytes => inferInstanceAs (Decidable (bytes.length < 2 ^ 31))

theorem coded_eq (f : Format) {records : List Bytes} (short : ∀ bytes ∈ records, Short bytes) :
    coded f records = some (some ⟨writeAll f.frame records, none⟩) := by
  have from_output : ∀ records : List Bytes, (∀ bytes ∈ records, Short bytes) → ∀ before : Bytes,
      records.foldlM
        (fun output bytes => ((streamBatcher f).write fine output bytes).map Prod.fst)
        (some (⟨before, none⟩ : Stream)) =
          some (some ⟨before ++ writeAll f.frame records, none⟩) := by
    intro records
    induction records with
    | nil =>
      intro _ before
      rw [writeAll, List.map_nil, List.flatten_nil, List.append_nil]
      rfl
    | cons bytes records ih =>
      intro short before
      have small : ¬ intMax < bytes.length := Nat.not_lt.mpr
        (Nat.le_of_lt_succ (short bytes List.mem_cons_self))
      have wrote : ((streamBatcher f).write fine (some ⟨before, none⟩) bytes).map Prod.fst =
          some (some ⟨before ++ f.frame bytes, none⟩) := by
        simp only [streamBatcher, if_neg small, Option.map_some]
        rfl
      rw [List.foldlM_cons, wrote, writeAll_cons, ← List.append_assoc]
      exact ih (fun b member => short b (List.mem_cons_of_mem bytes member)) _
  exact from_output records short []

/-! ### Round trips -/

theorem readLittleEndian32_magic (rest : Bytes) :
    readLittleEndian32 (littleEndian32 kStreamBatcherMagic ++ rest) =
      some (kStreamBatcherMagic, rest) := rfl

theorem readRaw_append (bytes rest : Bytes) :
    readRaw bytes.length (bytes ++ rest) = some (bytes, rest) := by
  rw [readRaw, if_pos (by rw [List.length_append]; exact Nat.le_add_right _ _), List.take_left',
    List.drop_left']
  · rfl
  · rfl

theorem readVarint_varintBytes {fuel fuel' n : Nat} (small : n < 128 ^ fuel)
    (positive : 0 < fuel) (more : fuel ≤ fuel') (rest : Bytes) :
    readVarint fuel' (varintBytes fuel n ++ rest) = some (n, rest) := by
  induction fuel generalizing fuel' n with
  | zero => cases positive
  | succ fuel ih =>
    obtain ⟨left, rfl⟩ : ∃ left, fuel' = left + 1 := ⟨fuel' - 1, by omega⟩
    rw [varintBytes]
    by_cases last : n < 128
    · have byte : (UInt8.ofNat n).toNat = n := by
        rw [UInt8.toNat_ofNat']
        exact Nat.mod_eq_of_lt (by omega)
      rw [if_pos last, List.singleton_append, readVarint, byte, if_pos last]
    · have byte : (UInt8.ofNat (n % 128 + 128)).toNat = n % 128 + 128 := by
        rw [UInt8.toNat_ofNat']
        exact Nat.mod_eq_of_lt (by omega)
      have smaller : n / 128 < 128 ^ fuel := by
        rw [Nat.div_lt_iff_lt_mul (by decide), ← Nat.pow_succ]
        exact small
      have some : 0 < fuel := by
        by_contra none
        rw [Nat.eq_zero_of_not_pos none] at smaller
        omega
      rw [if_neg last, List.cons_append, readVarint, byte, if_neg (by omega),
        ih smaller some (by omega), Option.map_some]
      simp only [Option.some.injEq, Prod.mk.injEq, and_true]
      omega

theorem readVarint32_varint32 {n : Nat} (small : n < 2 ^ 32) (rest : Bytes) :
    readVarint32 (varint32 n ++ rest) = some (n, rest) := by
  have bounded : n < 128 ^ 5 := Nat.lt_trans small (by decide)
  rw [readVarint32, varint32, readVarint_varintBytes bounded (by decide) (by decide)]
  simp only [Option.map_some, Nat.mod_eq_of_lt small]

theorem next_frame {f : Format} (digest : ∀ bytes, (f.xxhash64 bytes).length = 8) :
    Reads (next f) f.frame Short := by
  intro bytes rest short
  have hash (rest : Bytes) :
      readRaw 8 (f.xxhash64 bytes ++ rest) = some (f.xxhash64 bytes, rest) := by
    rw [← digest bytes]
    exact readRaw_append _ rest
  have small : bytes.length < 2 ^ 32 := Nat.lt_trans short (by decide)
  simp only [Format.frame, List.append_assoc, next, readLittleEndian32_magic, hash,
    readVarint32_varint32 small, readRaw_append, ne_eq, not_true_eq_false, if_false, and_false]

theorem bytesWritten_eq (f : Format) {records : List Bytes}
    (short : ∀ bytes ∈ records, Short bytes) :
    bytesWritten f records = writeAll f.frame records := by
  rw [bytesWritten, coded_eq f short]
  rfl

theorem batchSize_eq (f : Format) {records : List Bytes}
    (short : ∀ bytes ∈ records, Short bytes) :
    batchSize f records = some (byteCount (writeAll f.frame records)) := by
  rw [batchSize, coded_eq f short]
  rfl

/-- The int that the count goes through is negative from 2^31 on, and a large size_t. -/
theorem byteCount_eq_iff (bytes : Bytes) :
    byteCount bytes = bytes.length ↔
      bytes.length < 2 ^ 31 ∨ (2 ^ 64 - 2 ^ 31 ≤ bytes.length ∧ bytes.length < 2 ^ 64) := by
  have low : (BitVec.ofNat 32 bytes.length).toNat = bytes.length % 2 ^ 32 := BitVec.toNat_ofNat _ _
  rw [byteCount, BitVec.toNat_signExtend, BitVec.toNat_setWidth, BitVec.msb_eq_decide, low]
  split <;> rename_i sign <;> simp only [decide_eq_true_eq] at sign <;> omega

/-! ### Batches -/

/-- The command reads the records back and finds no more, no other records give these bytes, and
    the size of the batch is their number. -/
structure Decodable (f : Format) (records : List Bytes) : Prop where
  recovered : readFile f (bytesWritten f records) = (records, some (.outOfRange "No more data"))
  unique : ∀ others : List Bytes, (∀ bytes ∈ others, Short bytes) → others ≠ records →
    bytesWritten f others ≠ bytesWritten f records
  counted : batchSize f records = some (bytesWritten f records).length

/-- Batches that an int can count; what is above 2^63 is no size of a file. -/
theorem decodable_iff {f : Format} (digest : ∀ bytes, (f.xxhash64 bytes).length = 8)
    {records : List Bytes} (short : ∀ bytes ∈ records, Short bytes) :
    Decodable f records ↔
      (writeAll f.frame records).length < 2 ^ 31 ∨
        (2 ^ 64 - 2 ^ 31 ≤ (writeAll f.frame records).length ∧
          (writeAll f.frame records).length < 2 ^ 64) := by
  have ends : next f [] = .error (.outOfRange "No more data") := rfl
  rw [← byteCount_eq_iff]
  constructor
  · intro decodable
    have counted := decodable.counted
    rw [batchSize_eq f short, bytesWritten_eq f short] at counted
    exact Option.some.inj counted
  · intro counted
    refine ⟨?_, ?_, ?_⟩
    · have enough := length_le_writeAll (SantaSpoolWriter.frame_ne_nil f) records
      rw [bytesWritten_eq f short]
      exact readAll_writeAll (next_frame digest) ends short (Nat.lt_succ_of_le enough)
    · intro others short' different same
      rw [bytesWritten_eq f short, bytesWritten_eq f short'] at same
      exact different (writeAll_injective (next_frame digest) ends short' short same)
    · rw [batchSize_eq f short, bytesWritten_eq f short, counted]

def unhashed : Format := ⟨"", fun _ => none, fun _ => List.replicate 8 0, id⟩

theorem two_records_decodable : Decodable unhashed [[1, 2], []] :=
  (decodable_iff (fun _ => rfl) (by decide)).mpr (by decide)

/-- The largest record that is accepted makes a batch whose size is not counted. -/
theorem largest_record_uncounted :
    (∀ bytes ∈ [List.replicate (2 ^ 31 - 1) 0], Short bytes) ∧
      ¬ Decodable unhashed [List.replicate (2 ^ 31 - 1) 0] := by
  have short : ∀ bytes ∈ [List.replicate (2 ^ 31 - 1) (0 : UInt8)], Short bytes := by
    intro bytes member
    rw [List.mem_singleton.mp member, Short, List.length_replicate]
    decide
  have size : (writeAll unhashed.frame [List.replicate (2 ^ 31 - 1) 0]).length =
      2 ^ 31 + 16 := by
    have digits : (varint32 (2 ^ 31 - 1)).length = 5 := by decide
    rw [writeAll_cons, Format.frame, writeAll, List.map_nil, List.flatten_nil, List.append_nil,
      List.length_append, List.length_append, List.length_append, List.length_replicate, digits]
    rfl
  refine ⟨short, fun decodable => ?_⟩
  have counted := decodable.counted
  rw [batchSize_eq unhashed short, bytesWritten_eq unhashed short] at counted
  rcases (byteCount_eq_iff _).mp (Option.some.inj counted) with below | above
  · rw [size] at below
    exact absurd below (by decide)
  · rw [size] at above
    exact absurd above.1 (by decide)

end SantaStreamFrames
