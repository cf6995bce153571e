import Mathlib.Algebra.Group.Nat.Defs
import Mathlib.Data.List.Basic
import Santa.Library.Runs

/-!
The writer of the telemetry spool. Records go through a batcher into a file of the tmp
directory, which Flush completes and renames into the spool directory. One batcher
keeps its records in memory until then, the other writes each of them to a stack of
streams over the open file. What the file system answers to a call is any; a null
stream that is written to ends the program.
-/
namespace SantaSpoolWriter

abbrev Bytes := List UInt8

inductive StatusCode where
  | ok
  | internal
  | resourceExhausted
  | dataLoss
  | errno
  deriving DecidableEq, Repr

/-- The errors of the system: those that an exhausted resource is reported with, such as ENOSPC,
    EDQUOT, EMFILE and ENFILE, and the others. -/
inductive Errno where
  | exhausted
  | other
  deriving DecidableEq, Repr

def errnoToStatus : Errno → StatusCode
  | .exhausted => .resourceExhausted
  | .other => .errno

@[simp] theorem errnoToStatus_ne_ok (errno : Errno) : errnoToStatus errno ≠ .ok := by
  cases errno with
  | exhausted => exact nofun
  | other => exact nofun

/-- The system's answers during one call: whether the directories are there or are made, the
    size of the spool directory, whether a file is opened, a compressed stream created and the
    file renamed, at which byte of the file a write fails, if one does, and the error of the call
    that fails. -/
structure Environment where
  directories : Bool
  dirSize : Option Nat
  opens : Bool
  creates : Bool
  failsAt : Option Nat
  renames : Bool
  errno : Errno
  deriving DecidableEq, Repr

/-- What a completed file holds. `missing` is not in the program; it records the bytes of the
    batch that no write got into the file. -/
structure Contents where
  written : Bytes
  missing : Bytes
  deriving DecidableEq, Repr

def Contents.cut (bytes : Bytes) : Option Nat → Contents
  | none => ⟨bytes, []⟩
  | some n => ⟨bytes.take n, bytes.drop n⟩

/-- `none` is a null pointer dereferenced. -/
structure BatcherInterface (B : Type) where
  shouldInitializeBeforeWrite : Bool
  needToOpenFile : B → Bool
  initializeBatch : Environment → B → B × StatusCode
  write : Environment → B → Bytes → Option (B × StatusCode)
  completeBatch : Environment → B → Option (B × Except StatusCode Nat × Contents)

/-! ### The batchers -/

structure Any where
  typeUrl : String
  value : Bytes
  deriving DecidableEq, Repr

structure Format where
  typeUrl : String
  serializeToString : List Any → Option Bytes
  xxhash64 : Bytes → Bytes
  compress : Bytes → Bytes

def writeBuffer (env : Environment) (msg : Bytes) : Contents × StatusCode :=
  match env.failsAt with
  | none => (⟨msg, []⟩, .ok)
  | some n => (.cut msg (some n), if n < msg.length then errnoToStatus env.errno else .ok)

def Format.any (f : Format) (bytes : Bytes) : Any := ⟨f.typeUrl, bytes⟩

/- The cache is the batcher's only state; the status of WriteBuffer is not looked at. -/
def anyBatcher (f : Format) : BatcherInterface (List Any) where
  shouldInitializeBeforeWrite := false
  needToOpenFile := fun cache => !cache.isEmpty
  initializeBatch := fun _ cache => (cache, .ok)
  write := fun _ cache bytes => some (cache ++ [f.any bytes], .ok)
  completeBatch := fun env cache =>
    match f.serializeToString cache with
    | none => some (cache, .error .internal, ⟨[], []⟩)
    | some msg =>
        let (contents, _) := writeBuffer env msg
        some ([], .ok msg.length, contents)

def kStreamBatcherMagic : Nat := 0x21544E53
def intMax : Nat := 2 ^ 31 - 1

def littleEndian32 (n : Nat) : Bytes :=
  [UInt8.ofNat n, UInt8.ofNat (n / 2 ^ 8), UInt8.ofNat (n / 2 ^ 16), UInt8.ofNat (n / 2 ^ 24)]

/-- Seven bits a byte, the lowest first; five bytes are enough for 32 bits. -/
def varintBytes : Nat → Nat → Bytes
  | 0, _ => []
  | fuel + 1, n =>
      if n < 128 then [UInt8.ofNat n]
      else UInt8.ofNat (n % 128 + 128) :: varintBytes fuel (n / 128)

def varint32 (n : Nat) : Bytes := varintBytes 5 n

def Format.frame (f : Format) (bytes : Bytes) : Bytes :=
  littleEndian32 kStreamBatcherMagic ++ f.xxhash64 bytes ++ varint32 bytes.length ++ bytes

/-- The stack of streams: what went into the top one, and the byte of the file at which a write
    of the bottom one failed. A failed stream drops what follows. -/
structure Stream where
  codedOutput : Bytes
  failedAt : Option Nat
  deriving DecidableEq, Repr

/-- `ByteCount` is an int, which becomes a size_t. -/
def byteCount (bytes : Bytes) : Nat := ((BitVec.ofNat 32 bytes.length).signExtend 64).toNat

/- The uncompressed batcher is the one whose `compress` changes nothing. -/
def streamBatcher (f : Format) : BatcherInterface (Option Stream) where
  shouldInitializeBeforeWrite := true
  needToOpenFile := fun _ => true
  initializeBatch := fun env output =>
    if env.creates then (some ⟨[], none⟩, .ok) else (output, .internal)
  write := fun env output bytes =>
    if intMax < bytes.length then some (output, .internal)
    else output.map fun stream =>
      (some ⟨stream.codedOutput ++ f.frame bytes, stream.failedAt.or env.failsAt⟩, .ok)
  completeBatch := fun env output =>
    output.map fun stream =>
      (none, .ok (byteCount stream.codedOutput),
        .cut (f.compress stream.codedOutput) (stream.failedAt.or env.failsAt))

/-! ### The writer -/

structure File where
  name : Nat
  contents : Contents
  deriving DecidableEq, Repr

/- Files are named by the writer's sequence number; its own number, the same in all names, is
   left out. `tmp` is the name of the file that is open. -/
structure Writer (B : Type) where
  batcher : B
  tmp : Option Nat
  sequenceNumber : Nat
  spaceCheckFailureSinceLastFlush : Bool
  spoolSizeEstimate : Nat
  maxSpoolSize : Nat
  spool : List File

def Writer.new {B : Type} (batcher : B) (maxSpoolSize : Nat) : Writer B :=
  ⟨batcher, none, 0, false, maxSpoolSize + 1, maxSpoolSize, []⟩

section
variable {B : Type} (I : BatcherInterface B)

def spaceAvailable (env : Environment) (w : Writer B) : Writer B × StatusCode :=
  if w.maxSpoolSize < w.spoolSizeEstimate then
    match env.dirSize with
    | none => (w, errnoToStatus env.errno)
    | some size =>
        ({ w with spoolSizeEstimate := size },
          if w.maxSpoolSize < size then .resourceExhausted else .ok)
  else (w, .ok)

def initializeCurrentSpoolStateIfNeeded (env : Environment) (w : Writer B) :
    Writer B × StatusCode :=
  if w.tmp.isSome then (w, .ok)
  else if !I.needToOpenFile w.batcher then (w, .ok)
  else if !env.directories then (w, errnoToStatus env.errno)
  else
    match spaceAvailable env w with
    | (w, .ok) =>
        let fname := w.sequenceNumber
        let w := { w with sequenceNumber := fname + 1 }
        if !env.opens then (w, errnoToStatus env.errno)
        else
          let (batcher, status) := I.initializeBatch env w.batcher
          ({ w with tmp := some fname, batcher := batcher }, status)
    | (w, status) => (w, status)

/-- A file that has the name already is replaced. -/
def renameFile (w : Writer B) (file : File) : Writer B :=
  { w with spool := w.spool.filter (fun other => other.name ≠ file.name) ++ [file] }

def completeCurrentSpoolState (env : Environment) (w : Writer B) :
    Option (Writer B × StatusCode) :=
  match w.tmp with
  | none => some (w, .ok)
  | some fname =>
      (I.completeBatch env w.batcher).map fun (batcher, sizeEstimate, contents) =>
        let w := { w with batcher := batcher, tmp := none }
        match sizeEstimate with
        | .error status => (w, status)
        | .ok size =>
            let w := { w with spoolSizeEstimate := w.spoolSizeEstimate + size }
            if env.renames then (renameFile w ⟨fname, contents⟩, .ok)
            else (w, errnoToStatus env.errno)

def writeBatcher (env : Environment) (w : Writer B) (bytes : Bytes) :
    Option (Writer B × StatusCode) :=
  (I.write env w.batcher bytes).map fun (batcher, status) => ({ w with batcher := batcher }, status)

def write (env : Environment) (w : Writer B) (bytes : Bytes) : Option (Writer B × StatusCode) :=
  if I.shouldInitializeBeforeWrite then
    if !w.spaceCheckFailureSinceLastFlush then
      match initializeCurrentSpoolStateIfNeeded I env w with
      | (w, .ok) => writeBatcher I env w bytes
      | (w, .resourceExhausted) =>
          some ({ w with spaceCheckFailureSinceLastFlush := true }, .resourceExhausted)
      | (w, status) => some (w, status)
    else some (w, .dataLoss)
  else writeBatcher I env w bytes

def complete (env : Environment) (w : Writer B) : Option (Writer B × StatusCode) :=
  (completeCurrentSpoolState I env w).map fun (w, status) =>
    ({ w with spaceCheckFailureSinceLastFlush := false }, status)

def flush (env : Environment) (w : Writer B) : Option (Writer B × StatusCode) :=
  if !I.shouldInitializeBeforeWrite then
    match initializeCurrentSpoolStateIfNeeded I env w with
    | (w, .ok) => complete I env w
    | (w, status) => some (w, status)
  else complete I env w

/-- The writer, the records whose Write returned OK, and those of them before the last Flush that
    returned OK. -/
structure System (B : Type) where
  writer : Writer B
  acked : List Bytes
  due : List Bytes

def System.start (batcher : B) (maxSpoolSize : Nat) : System B :=
  ⟨.new batcher maxSpoolSize, [], []⟩

inductive Label where
  | write (env : Environment) (bytes : Bytes)
  | flush (env : Environment)

def step (s : System B) : Label → Option (System B)
  | .write env bytes =>
      (write I env s.writer bytes).map fun (w, status) =>
        ⟨w, if status = .ok then s.acked ++ [bytes] else s.acked, s.due⟩
  | .flush env =>
      (flush I env s.writer).map fun (w, status) =>
        ⟨w, s.acked, if status = .ok then s.acked else s.due⟩

/-- Every record that is due is in one file of the spool, once and whole, and no file there lacks
    bytes of its batch. -/
def Safe (encode : List Bytes → Bytes) (s : System B) : Prop :=
  (∀ file ∈ s.writer.spool, file.contents.missing = []) ∧
    ∃ batches : List (List Bytes), batches.flatten = s.due ∧
      s.writer.spool.map (fun file => file.contents.written) = batches.map encode

end

/-! ### What the writer needs of a batcher -/

/-- The records a batcher has since its last batch, whether it has none, the bytes that it is to
    put into the file, and where that is cut short; and how its operations act on these. -/
structure Spec {B : Type} (I : BatcherInterface B) (encode : List Bytes → Bytes) where
  Holds : B → List Bytes → Prop
  empty : B → Bool
  bytes : B → Option Bytes
  failsAt : Environment → B → Option Nat
  none_empty : ∀ {b records}, Holds b records → empty b = true → records = []
  none_idle : ∀ {b records}, Holds b records → I.needToOpenFile b = false → records = []
  early : I.shouldInitializeBeforeWrite = true → ∀ b, I.needToOpenFile b = true
  init_late : I.shouldInitializeBeforeWrite = false → ∀ env b, I.initializeBatch env b = (b, .ok)
  init_early : ∀ env {b}, Holds b [] → Holds (I.initializeBatch env b).1 []
  write : ∀ {env b records bytes b' status}, Holds b records →
    I.write env b bytes = some (b', status) →
      Holds b' (if status = .ok then records ++ [bytes] else records)
  completed : ∀ {env b records b' size contents}, Holds b records →
    I.completeBatch env b = some (b', .ok size, contents) →
      Holds b' [] ∧ bytes b = some (encode records) ∧
        contents = .cut (encode records) (failsAt env b)
  kept : ∀ {env b records b' status contents}, Holds b records →
    I.completeBatch env b = some (b', .error status, contents) →
      I.shouldInitializeBeforeWrite = false ∧ status ≠ .ok ∧ Holds b' records

def anyEncode (f : Format) (records : List Bytes) : Bytes :=
  (f.serializeToString (records.map f.any)).getD []

def streamEncode (f : Format) (records : List Bytes) : Bytes :=
  f.compress (records.map f.frame).flatten

def anySpec (f : Format) : Spec (anyBatcher f) (anyEncode f) where
  Holds cache records := cache = records.map f.any
  empty cache := cache.isEmpty
  bytes cache := f.serializeToString cache
  failsAt env _ := env.failsAt
  none_empty := by
    intro cache records holds empty
    rw [holds] at empty
    simpa using empty
  none_idle := by
    intro cache records holds idle
    rw [holds] at idle
    simpa [anyBatcher] using idle
  early := by
    intro early
    cases early
  init_late := fun _ _ _ => rfl
  init_early := fun _ _ holds => holds
  write := by
    intro env cache records bytes cache' status holds h
    obtain ⟨same, ok⟩ := Prod.mk.inj (Option.some.inj h)
    rw [← ok, ← same, holds]
    simp
  completed := by
    intro env cache records cache' size contents holds h
    simp only [anyBatcher] at h
    split at h
    · cases h
    · rename_i msg serialized
      rw [Option.some.injEq, Prod.mk.injEq, Prod.mk.injEq] at h
      obtain ⟨cleared, _, written⟩ := h
      have encoded : anyEncode f records = msg := by
        rw [anyEncode, ← holds, serialized]
        rfl
      refine ⟨cleared.symm, by rw [serialized, encoded], ?_⟩
      rw [encoded, ← written]
      cases fails : env.failsAt with
      | none => simp [writeBuffer, fails, Contents.cut]
      | some n => simp [writeBuffer, fails]
  kept := by
    intro env cache records cache' status contents holds h
    simp only [anyBatcher] at h
    split at h
    · rw [Option.some.injEq, Prod.mk.injEq, Prod.mk.injEq] at h
      obtain ⟨same, failed, _⟩ := h
      rw [Except.error.injEq] at failed
      rw [← same, ← failed]
      exact ⟨rfl, by decide, holds⟩
    · cases h

theorem frame_ne_nil (f : Format) (bytes : Bytes) : f.frame bytes ≠ [] := by
  simp [Format.frame, littleEndian32]

def streamSpec (f : Format) : Spec (streamBatcher f) (streamEncode f) where
  Holds output records :=
    match output with
    | none => records = []
    | some stream => stream.codedOutput = (records.map f.frame).flatten
  empty output :=
    match output with
    | none => true
    | some stream => stream.codedOutput.isEmpty
  bytes output := output.map fun stream => f.compress stream.codedOutput
  failsAt env output := output.elim env.failsAt fun stream => stream.failedAt.or env.failsAt
  none_empty := by
    intro output records holds empty
    cases output with
    | none => exact holds
    | some stream =>
      simp only at holds empty
      rw [holds, List.isEmpty_iff] at empty
      cases records with
      | nil => rfl
      | cons bytes rest =>
        rw [List.map_cons, List.flatten_cons, List.append_eq_nil_iff] at empty
        exact absurd empty.1 (frame_ne_nil f bytes)
  none_idle := by
    intro output records holds idle
    cases idle
  early := fun _ _ => rfl
  init_late := by
    intro late
    cases late
  init_early := by
    intro env output holds
    cases creates : env.creates with
    | true => simp [streamBatcher, creates]
    | false =>
      have same : (streamBatcher f).initializeBatch env output = (output, .internal) := by
        simp [streamBatcher, creates]
      rw [same]
      exact holds
  write := by
    intro env output records bytes output' status holds h
    simp only [streamBatcher] at h
    split at h
    · obtain ⟨same, failed⟩ := Prod.mk.inj (Option.some.inj h)
      rw [← same, ← failed]
      exact holds
    · obtain ⟨stream, there, same⟩ := Option.map_eq_some_iff.mp h
      obtain ⟨same, ok⟩ := Prod.mk.inj same
      rw [there] at holds
      rw [← same, ← ok]
      simp only at holds
      simp [holds]
  completed := by
    intro env output records output' size contents holds h
    obtain ⟨stream, there, same⟩ := Option.map_eq_some_iff.mp h
    rw [Prod.mk.injEq, Prod.mk.injEq] at same
    obtain ⟨closed, _, written⟩ := same
    rw [there] at holds
    simp only at holds
    rw [there, ← closed, ← written, streamEncode, ← holds]
    exact ⟨rfl, rfl, rfl⟩
  kept := by
    intro env output records output' status contents holds h
    obtain ⟨stream, there, same⟩ := Option.map_eq_some_iff.mp h
    rw [Prod.mk.injEq, Prod.mk.injEq] at same
    cases same.2.1

section
variable {B : Type} {I : BatcherInterface B} {encode : List Bytes → Bytes}

def HasSpace (w : Writer B) (env : Environment) : Prop :=
  w.spoolSizeEstimate ≤ w.maxSpoolSize ∨ ∃ size, env.dirSize = some size ∧ size ≤ w.maxSpoolSize

def HasFile (I : BatcherInterface B) (w : Writer B) (env : Environment) : Prop :=
  w.tmp ≠ none ∨ (I.shouldInitializeBeforeWrite = false ∧ I.needToOpenFile w.batcher = true ∧
    env.directories = true ∧ HasSpace w env ∧ env.opens = true)

/-- A file that Flush completes is renamed, unless it has no records, and goes into the spool only
    with all its bytes. -/
def Undamaged (spec : Spec I encode) (s : System B) : Label → Prop
  | .write _ _ => True
  | .flush env => HasFile I s.writer env → ∀ bytes, spec.bytes s.writer.batcher = some bytes →
      (spec.empty s.writer.batcher = false → env.renames = true) ∧
        (env.renames = true → ∀ n, spec.failsAt env s.writer.batcher = some n → bytes.length ≤ n)

/-! ### Opening a file -/

/-- Nothing but the space estimate and the sequence number changes, or a file is opened. -/
structure Kept (w w' : Writer B) : Prop where
  batcher : w'.batcher = w.batcher
  tmp : w'.tmp = w.tmp
  spool : w'.spool = w.spool
  number : w.sequenceNumber ≤ w'.sequenceNumber

theorem spaceAvailable_kept (env : Environment) (w : Writer B) :
    Kept w (spaceAvailable env w).1 ∧ (spaceAvailable env w).1.sequenceNumber = w.sequenceNumber ∧
      ((spaceAvailable env w).2 = .ok → HasSpace w env) := by
  unfold spaceAvailable
  split
  · split
    · exact ⟨⟨rfl, rfl, rfl, Nat.le_refl _⟩, rfl, fun ok => absurd ok (errnoToStatus_ne_ok _)⟩
    · rename_i size measured
      refine ⟨⟨rfl, rfl, rfl, Nat.le_refl _⟩, rfl, ?_⟩
      intro ok
      refine Or.inr ⟨size, measured, ?_⟩
      by_contra full
      simp only [Nat.not_le] at full
      rw [if_pos full] at ok
      cases ok
  · rename_i room
    exact ⟨⟨rfl, rfl, rfl, Nat.le_refl _⟩, rfl, fun _ => Or.inl (Nat.le_of_not_lt room)⟩

theorem initialize_cases {env : Environment} {w w' : Writer B} {status : StatusCode}
    (h : initializeCurrentSpoolStateIfNeeded I env w = (w', status)) :
    (Kept w w' ∧ (status = .ok → w.tmp ≠ none ∨ I.needToOpenFile w.batcher = false)) ∨
    (w.tmp = none ∧ w'.tmp = some w.sequenceNumber ∧ w'.spool = w.spool ∧
      w'.sequenceNumber = w.sequenceNumber + 1 ∧
      (w'.batcher, status) = I.initializeBatch env w.batcher ∧
      I.needToOpenFile w.batcher = true ∧ env.directories = true ∧ HasSpace w env ∧
      env.opens = true) := by
  have same : Kept w w := ⟨rfl, rfl, rfl, Nat.le_refl _⟩
  unfold initializeCurrentSpoolStateIfNeeded at h
  split at h
  · rename_i isOpen
    obtain ⟨rfl, rfl⟩ := Prod.mk.inj h
    exact Or.inl ⟨same, fun _ => Or.inl (Option.isSome_iff_ne_none.mp isOpen)⟩
  rename_i closed
  split at h
  · rename_i idle
    obtain ⟨rfl, rfl⟩ := Prod.mk.inj h
    rw [Bool.not_eq_true'] at idle
    exact Or.inl ⟨same, fun _ => Or.inr idle⟩
  rename_i needed
  split at h
  · obtain ⟨rfl, rfl⟩ := Prod.mk.inj h
    exact Or.inl ⟨same, fun ok => absurd ok (errnoToStatus_ne_ok _)⟩
  rename_i directories
  obtain ⟨kept, number, space⟩ := spaceAvailable_kept env w
  split at h
  · rename_i m available
    rw [available] at kept number space
    simp only at kept number space h
    split at h
    · obtain ⟨rfl, rfl⟩ := Prod.mk.inj h
      exact Or.inl ⟨⟨kept.batcher, kept.tmp, kept.spool, by simp only; omega⟩,
        fun ok => absurd ok (errnoToStatus_ne_ok _)⟩
    · rename_i opened
      obtain ⟨rfl, rfl⟩ := Prod.mk.inj h
      rw [Bool.not_eq_true', Bool.not_eq_false] at needed directories opened
      refine Or.inr ⟨?_, ?_, kept.spool, ?_, ?_, needed, directories, space trivial, opened⟩
      · simpa using closed
      · simp only [number]
      · simp only [number]
      · simp only [kept.batcher]
  · rename_i m status' failed available
    rw [available] at kept
    obtain ⟨rfl, rfl⟩ := Prod.mk.inj h
    exact Or.inl ⟨kept, fun ok => absurd ok failed⟩

/-! ### The invariant -/

structure Inv (spec : Spec I encode) (s : System B) : Prop where
  safe : Safe encode s
  pending : ∃ records, spec.Holds s.writer.batcher records ∧ s.acked = s.due ++ records ∧
    (I.shouldInitializeBeforeWrite = true → s.writer.tmp = none → records = [])
  named : ∀ file ∈ s.writer.spool, file.name < s.writer.sequenceNumber
  fresh : ∀ fname, s.writer.tmp = some fname → fname < s.writer.sequenceNumber ∧
    ∀ file ∈ s.writer.spool, file.name ≠ fname

theorem inv_kept {spec : Spec I encode} {w w' : Writer B} {acked due : List Bytes}
    (inv : Inv spec ⟨w, acked, due⟩) (kept : Kept w w') : Inv spec ⟨w', acked, due⟩ := by
  obtain ⟨records, holds, split, none⟩ := inv.pending
  refine ⟨?_, ⟨records, ?_, split, ?_⟩, ?_, ?_⟩
  · simp only [Safe, kept.spool]
    exact inv.safe
  · simp only [kept.batcher]
    exact holds
  · simp only [kept.tmp]
    exact none
  · intro file member
    simp only [kept.spool] at member
    exact Nat.lt_of_lt_of_le (inv.named file member) kept.number
  · intro fname isOpen
    simp only [kept.tmp] at isOpen
    obtain ⟨below, other⟩ := inv.fresh fname isOpen
    simp only [kept.spool]
    exact ⟨Nat.lt_of_lt_of_le below kept.number, other⟩

theorem inv_initialized {spec : Spec I encode} {env : Environment} {w w' : Writer B}
    {status : StatusCode} {acked due : List Bytes} (inv : Inv spec ⟨w, acked, due⟩)
    (h : initializeCurrentSpoolStateIfNeeded I env w = (w', status)) :
    Inv spec ⟨w', acked, due⟩ := by
  rcases initialize_cases h with ⟨kept, _⟩ | ⟨closed, opened, spool, number, batcher, _⟩
  · exact inv_kept inv kept
  · obtain ⟨records, holds, split, none⟩ := inv.pending
    have same : w'.batcher = (I.initializeBatch env w.batcher).1 := congrArg Prod.fst batcher
    refine ⟨?_, ⟨records, ?_, split, ?_⟩, ?_, ?_⟩
    · simp only [Safe, spool]
      exact inv.safe
    · simp only [same]
      cases early : I.shouldInitializeBeforeWrite with
      | true =>
        rw [none early closed] at holds ⊢
        exact spec.init_early env holds
      | false =>
        rw [spec.init_late early env w.batcher]
        exact holds
    · intro _ reset
      rw [show w'.tmp = some w.sequenceNumber from opened] at reset
      cases reset
    · intro file member
      simp only [spool, number] at member ⊢
      exact Nat.lt_succ_of_lt (inv.named file member)
    · intro fname isOpen
      simp only [opened, Option.some.injEq] at isOpen
      simp only [spool, number, ← isOpen]
      exact ⟨Nat.lt_succ_self _, fun file member => Nat.ne_of_lt (inv.named file member)⟩

theorem inv_writeBatcher {spec : Spec I encode} {env : Environment} {w w' : Writer B}
    {bytes : Bytes} {status : StatusCode} {acked due : List Bytes}
    (inv : Inv spec ⟨w, acked, due⟩)
    (isOpen : I.shouldInitializeBeforeWrite = true → w.tmp ≠ none)
    (h : writeBatcher I env w bytes = some (w', status)) :
    Inv spec ⟨w', if status = .ok then acked ++ [bytes] else acked, due⟩ := by
  obtain ⟨⟨batcher, answer⟩, written, same⟩ := Option.map_eq_some_iff.mp h
  obtain ⟨rfl, rfl⟩ := Prod.mk.inj same
  obtain ⟨records, holds, split, _⟩ := inv.pending
  refine ⟨inv.safe, ⟨_, spec.write holds written, ?_, ?_⟩, inv.named, inv.fresh⟩
  · simp only at split ⊢
    rw [split]
    by_cases ok : answer = .ok
    · rw [if_pos ok, if_pos ok, List.append_assoc]
    · rw [if_neg ok, if_neg ok]
  · intro early closed
    exact absurd closed (isOpen early)

theorem inv_write {spec : Spec I encode} {env : Environment} {w w' : Writer B} {bytes : Bytes}
    {status : StatusCode} {acked due : List Bytes} (inv : Inv spec ⟨w, acked, due⟩)
    (h : write I env w bytes = some (w', status)) :
    Inv spec ⟨w', if status = .ok then acked ++ [bytes] else acked, due⟩ := by
  unfold write at h
  split at h
  · rename_i early
    split at h
    · split at h
      · rename_i m initialized
        refine inv_writeBatcher (inv_initialized inv initialized) ?_ h
        intro _
        rcases initialize_cases initialized with ⟨kept, file⟩ | ⟨_, opened, _⟩
        · rcases file rfl with isOpen | idle
          · rw [kept.tmp]
            exact isOpen
          · rw [spec.early early] at idle
            cases idle
        · rw [opened]
          exact Option.some_ne_none _
      · rename_i m initialized
        obtain ⟨rfl, rfl⟩ := Prod.mk.inj (Option.some.inj h)
        have kept := inv_initialized inv initialized
        exact ⟨kept.safe, kept.pending, kept.named, kept.fresh⟩
      · rename_i m failed notOk _ initialized
        obtain ⟨rfl, rfl⟩ := Prod.mk.inj (Option.some.inj h)
        rw [if_neg notOk]
        exact inv_initialized inv initialized
    · obtain ⟨rfl, rfl⟩ := Prod.mk.inj (Option.some.inj h)
      exact inv
  · rename_i late
    exact inv_writeBatcher inv (fun early => absurd early late) h

theorem safe_rename {w : Writer B} {acked due records : List Bytes} {fname : Nat}
    {contents : Contents} (safe : Safe encode ⟨w, acked, due⟩)
    (fresh : ∀ file ∈ w.spool, file.name ≠ fname) (whole : contents = ⟨encode records, []⟩) :
    Safe encode ⟨renameFile w ⟨fname, contents⟩, acked, due ++ records⟩ := by
  have spool : (renameFile w ⟨fname, contents⟩).spool = w.spool ++ [⟨fname, contents⟩] := by
    rw [renameFile, List.filter_eq_self.mpr]
    intro file member
    exact decide_eq_true (fresh file member)
  obtain ⟨complete, batches, flat, same⟩ := safe
  refine ⟨?_, batches ++ [records], ?_, ?_⟩
  · intro file member
    simp only [spool] at member
    rcases List.mem_append.mp member with old | new
    · exact complete file old
    · rw [List.mem_singleton.mp new, whole]
  · rw [List.flatten_append, flat, List.flatten_singleton]
  · have before : w.spool.map (fun file => file.contents.written) = batches.map encode := same
    rw [spool, List.map_append, List.map_append, before, whole]
    rfl

theorem cut_whole {bytes : Bytes} {failsAt : Option Nat}
    (whole : ∀ n, failsAt = some n → bytes.length ≤ n) :
    Contents.cut bytes failsAt = ⟨bytes, []⟩ := by
  cases failsAt with
  | none => rfl
  | some n =>
    have all := whole n rfl
    rw [Contents.cut, List.take_of_length_le all, List.drop_of_length_le all]

theorem inv_complete {spec : Spec I encode} {env : Environment} {w w' : Writer B}
    {status : StatusCode} {acked due : List Bytes} (inv : Inv spec ⟨w, acked, due⟩)
    (idle : w.tmp = none → I.shouldInitializeBeforeWrite = true ∨
      I.needToOpenFile w.batcher = false)
    (undamaged : w.tmp ≠ none → ∀ bytes, spec.bytes w.batcher = some bytes →
      (spec.empty w.batcher = false → env.renames = true) ∧
        (env.renames = true → ∀ n, spec.failsAt env w.batcher = some n → bytes.length ≤ n))
    (h : complete I env w = some (w', status)) :
    Inv spec ⟨w', acked, if status = .ok then acked else due⟩ := by
  obtain ⟨⟨m, answer⟩, completed, same⟩ := Option.map_eq_some_iff.mp h
  obtain ⟨rfl, rfl⟩ := Prod.mk.inj same
  suffices kept : Inv spec ⟨m, acked, if answer = .ok then acked else due⟩ from
    ⟨kept.safe, kept.pending, kept.named, kept.fresh⟩
  obtain ⟨records, holds, split, none⟩ := inv.pending
  simp only at split none holds
  unfold completeCurrentSpoolState at completed
  split at completed
  · rename_i closed
    obtain ⟨rfl, rfl⟩ := Prod.mk.inj (Option.some.inj completed)
    have nothing : records = [] := by
      rcases idle closed with early | idle
      · exact none early closed
      · exact spec.none_idle holds idle
    rw [nothing, List.append_nil] at split
    rw [if_pos rfl]
    rw [← split] at inv
    exact inv
  rename_i fname isOpen
  obtain ⟨below, fresh⟩ := inv.fresh fname isOpen
  obtain ⟨⟨batcher, size, contents⟩, batch, result⟩ := Option.map_eq_some_iff.mp completed
  cases size with
  | error failed =>
    obtain ⟨late, notOk, still⟩ := spec.kept holds batch
    obtain ⟨rfl, rfl⟩ := Prod.mk.inj result
    rw [if_neg notOk]
    refine ⟨inv.safe, ⟨records, still, split, ?_⟩, inv.named, ?_⟩
    · intro early
      rw [late] at early
      cases early
    · intro fname reset
      cases reset
  | ok size =>
    obtain ⟨cleared, bytes, contained⟩ := spec.completed holds batch
    obtain ⟨renamed, whole⟩ := undamaged (by rw [isOpen]; exact Option.some_ne_none _) _ bytes
    cases renames : env.renames with
    | true =>
      simp only [renames, if_true] at result
      obtain ⟨rfl, rfl⟩ := Prod.mk.inj result
      rw [if_pos rfl, split]
      have safe : Safe encode ⟨w, acked, due⟩ := inv.safe
      refine ⟨safe_rename safe fresh ?_, ⟨[], cleared, ?_, fun _ _ => rfl⟩, ?_, ?_⟩
      · rw [contained, cut_whole (whole renames)]
      · exact (List.append_nil _).symm
      · intro file member
        rcases List.mem_append.mp member with old | new
        · exact inv.named file (List.mem_of_mem_filter old)
        · rw [List.mem_singleton.mp new]
          exact below
      · intro fname reset
        cases reset
    | false =>
      have nothing : records = [] := by
        cases empty : spec.empty w.batcher with
        | true => exact spec.none_empty holds empty
        | false =>
          rw [renamed empty] at renames
          cases renames
      simp only [renames, Bool.false_eq_true, if_false] at result
      obtain ⟨rfl, rfl⟩ := Prod.mk.inj result
      rw [nothing] at split
      rw [if_neg (errnoToStatus_ne_ok _)]
      refine ⟨inv.safe, ⟨[], cleared, split, fun _ _ => rfl⟩, inv.named, ?_⟩
      intro fname reset
      cases reset

theorem inv_flush {spec : Spec I encode} {env : Environment} {w w' : Writer B}
    {status : StatusCode} {acked due : List Bytes} (inv : Inv spec ⟨w, acked, due⟩)
    (undamaged : Undamaged spec ⟨w, acked, due⟩ (.flush env))
    (h : flush I env w = some (w', status)) :
    Inv spec ⟨w', acked, if status = .ok then acked else due⟩ := by
  unfold flush at h
  cases early : I.shouldInitializeBeforeWrite with
  | true =>
    rw [early] at h
    exact inv_complete inv (fun _ => Or.inl early) (fun isOpen => undamaged (Or.inl isOpen)) h
  | false =>
    rw [early] at h
    simp only [Bool.not_false, if_true] at h
    split at h
    · rename_i m initialized
      have kept := inv_initialized inv initialized
      rcases initialize_cases initialized with ⟨same, file⟩ |
        ⟨_, opened, _, _, batcher, needed, directories, space, opens⟩
      · refine inv_complete kept ?_ ?_ h
        · intro closed
          rcases file rfl with isOpen | idle
          · rw [same.tmp] at closed
            exact absurd closed isOpen
          · rw [same.batcher]
            exact Or.inr idle
        · rw [same.tmp, same.batcher]
          exact fun isOpen => undamaged (Or.inl isOpen)
      · have unchanged : m.batcher = w.batcher := by
          rw [spec.init_late early env w.batcher] at batcher
          exact congrArg Prod.fst batcher
        refine inv_complete kept ?_ ?_ h
        · intro closed
          rw [opened] at closed
          cases closed
        · rw [unchanged]
          exact fun _ => undamaged (Or.inr ⟨early, needed, directories, space, opens⟩)
    · rename_i m failed notOk initialized
      obtain ⟨rfl, rfl⟩ := Prod.mk.inj (Option.some.inj h)
      rw [if_neg notOk]
      exact inv_initialized inv initialized

theorem step_keeps {spec : Spec I encode} (s : System B) (l : Label) (t : System B)
    (inv : Inv spec s) (undamaged : Undamaged spec s l) (h : step I s l = some t) :
    Inv spec t := by
  cases l with
  | write env bytes =>
    obtain ⟨⟨w, status⟩, written, same⟩ := Option.map_eq_some_iff.mp h
    rw [← same]
    exact inv_write inv written
  | flush env =>
    obtain ⟨⟨w, status⟩, flushed, same⟩ := Option.map_eq_some_iff.mp h
    rw [← same]
    exact inv_flush inv undamaged flushed

theorem inv_start (spec : Spec I encode) {b : B} (holds : spec.Holds b [])
    (maxSpoolSize : Nat) : Inv spec (.start b maxSpoolSize) := by
  refine ⟨⟨fun _ member => absurd member List.not_mem_nil, [], rfl, rfl⟩,
    ⟨[], holds, rfl, fun _ _ => rfl⟩, fun _ member => absurd member List.not_mem_nil, ?_⟩
  intro fname isOpen
  cases isOpen

/-- The general form: any batcher that does what the writer needs of it. -/
theorem kept_by_writer (spec : Spec I encode) {b : B} (holds : spec.Holds b [])
    (maxSpoolSize : Nat) (ls : List Label)
    (undamaged : Runs.Meets (step I) (Undamaged spec) (.start b maxSpoolSize) ls) :
    Runs.Always (step I) (Safe encode) (.start b maxSpoolSize) ls :=
  Runs.always_mono (fun _ inv => inv.safe)
    (Runs.always_of_meets step_keeps (inv_start spec holds maxSpoolSize) undamaged)

end

/-- With either batcher, in a run where no file with records fails to be renamed and no file goes
    into the spool short of bytes, every record that is due is there, once and whole. -/
theorem due_records_spooled (f : Format) (maxSpoolSize : Nat) (ls : List Label) :
    (Runs.Meets (step (anyBatcher f)) (Undamaged (anySpec f)) (.start [] maxSpoolSize) ls →
      Runs.Always (step (anyBatcher f)) (Safe (anyEncode f)) (.start [] maxSpoolSize) ls) ∧
    (Runs.Meets (step (streamBatcher f)) (Undamaged (streamSpec f)) (.start none maxSpoolSize) ls →
      Runs.Always (step (streamBatcher f)) (Safe (streamEncode f)) (.start none maxSpoolSize) ls) :=
  ⟨kept_by_writer (anySpec f) rfl maxSpoolSize ls,
    kept_by_writer (b := none) (streamSpec f) rfl maxSpoolSize ls⟩

def plain : Format := ⟨"", fun records => some (records.flatMap Any.value), fun _ => [], id⟩

def fine : Environment := ⟨true, some 0, true, true, none, true, .other⟩

def recordFlushed : List Label := [.write fine [7], .flush fine]

theorem record_spooled :
    Runs.Always (step (anyBatcher plain)) (Safe (anyEncode plain)) (.start [] 9) recordFlushed ∧
      Runs.Always (step (streamBatcher plain)) (Safe (streamEncode plain)) (.start none 9)
        recordFlushed := by
  refine ⟨(due_records_spooled plain 9 recordFlushed).1 ?_,
    (due_records_spooled plain 9 recordFlushed).2 ?_⟩
  · intro s first
    refine ⟨trivial, fun t second => ⟨?_, trivial⟩⟩
    exact fun _ _ _ => ⟨fun _ => rfl, fun _ _ fails => by cases fails⟩
  · intro s first
    refine ⟨trivial, fun t second => ⟨?_, trivial⟩⟩
    rw [← Option.some.inj first]
    exact fun _ _ _ => ⟨fun _ => rfl, fun _ _ fails => by cases fails⟩

def failing : Environment := { fine with failsAt := some 0 }

/-- Both batchers lose a record whose bytes could not be written, and Flush returns OK. -/
theorem failed_write_unnoticed :
    (¬ ∀ f maxSpoolSize ls,
      Runs.Always (step (anyBatcher f)) (Safe (anyEncode f)) (.start [] maxSpoolSize) ls) ∧
    (¬ ∀ f maxSpoolSize ls, Runs.Always (step (streamBatcher f)) (Safe (streamEncode f))
      (.start none maxSpoolSize) ls) := by
  refine ⟨?_, ?_⟩
  · intro always
    have short : (Runs.run (step (anyBatcher plain)) (.start [] 9)
        [.write fine [7], .flush failing]).map (fun s => s.writer.spool) =
          some [⟨0, ⟨[], [7]⟩⟩] := by decide +kernel
    obtain ⟨last, ends, spool⟩ := Option.map_eq_some_iff.mp short
    have whole := (Runs.always_last (always plain 9 _) ends).1
    rw [spool] at whole
    cases whole _ List.mem_cons_self
  · intro always
    have short : (Runs.run (step (streamBatcher plain)) (.start none 9)
        [.write fine [7], .flush failing]).map (fun s => s.writer.spool) =
          some [⟨0, ⟨[], [83, 78, 84, 33, 1, 7]⟩⟩] := by decide +kernel
    obtain ⟨last, ends, spool⟩ := Option.map_eq_some_iff.mp short
    have whole := (Runs.always_last (always plain 9 _) ends).1
    rw [spool] at whole
    cases whole _ List.mem_cons_self

end SantaSpoolWriter
