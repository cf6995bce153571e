import Mathlib.Algebra.GroupWithZero.Nat
import Mathlib.Data.List.Basic
import Santa.Library.Runs

/-!
The body of an upload of telemetry files: form data, the files one after the other, and a closing
boundary, written to a stream as it has room. The events of the stream drive it. A read of a file
and a write to the stream may be short; a file is at the place where the next read begins.
-/
namespace SantaMultipartUpload

abbrev Bytes := List UInt8

def kChunkSize : Nat := 256 * 1024

def bytesOf (text : String) : Bytes := text.toUTF8.toList

structure FileHandle where
  contents : Bytes
  offset : Nat
  deriving DecidableEq, Repr

def FileHandle.rest (fd : FileHandle) : Bytes := fd.contents.drop fd.offset

/-- A read gives one byte and at most `more` others, fewer at the end of the file. -/
def FileHandle.readDataUpToLength (fd : FileHandle) (length more : Nat) : Bytes × FileHandle :=
  let data := fd.rest.take (min length (more + 1))
  (data, { fd with offset := fd.offset + data.length })

/-! ### The form -/

def partWithValue (boundary name value : String) : String :=
  "--" ++ boundary ++ "\r\n" ++ "Content-Disposition: form-data; name=\"" ++ name ++ "\"\r\n" ++
    "\r\n" ++ value ++ "\r\n"

def partWithFilename (boundary name filename : String) : String :=
  "--" ++ boundary ++ "\r\n" ++ "Content-Disposition: form-data; name=\"" ++ name ++
    "\"; filename=\"" ++ filename ++ "\"\r\n" ++ "\r\n"

def formDataOf (boundary : String) (formParts : List (String × String))
    (filesContentType : Option String) (fileName : String) : Bytes :=
  formParts.flatMap (fun (key, value) =>
    bytesOf (partWithValue boundary key (if key = "key" then value ++ fileName else value))) ++
  bytesOf (partWithValue boundary "Content-Type"
    (filesContentType.getD "application/octet-stream")) ++
  bytesOf (partWithFilename boundary "file" "upload")

def closingBoundaryOf (boundary : String) : Bytes := bytesOf ("\r\n--" ++ boundary ++ "--\r\n")

structure Upload where
  formData : Option Bytes
  closingBoundary : Bytes
  fds : List FileHandle
  currentFileIndex : Nat
  contentLength : UInt64
  deriving DecidableEq, Repr

/-- The handles are at the start of their files. The boundary is a random UUID. -/
def initWithFormParts (boundary : String) (formParts : List (String × String))
    (files : List Bytes) (filesTotalSize : UInt64) (filesContentType : Option String)
    (fileName : String) : Option Upload :=
  if files = [] ∨ fileName = "" then none
  else
    let formData := formDataOf boundary formParts filesContentType fileName
    if formData.length > kChunkSize then none
    else
      let closingBoundary := closingBoundaryOf boundary
      some ⟨some formData, closingBoundary, files.map (⟨·, 0⟩), 0,
        UInt64.ofNat formData.length + filesTotalSize + UInt64.ofNat closingBoundary.length⟩

/-! ### The stream -/

inductive StreamError where
  | outputStream
  | file
  | posix
  deriving DecidableEq, Repr

inductive Report where
  | failedToReadFromFile
  | failedToWriteFormData (error : Option StreamError)
  | streamError (error : StreamError)
  deriving DecidableEq, Repr

structure Stream where
  upload : Upload
  sent : Bytes
  closed : Bool
  logged : List Report
  deriving DecidableEq, Repr

def Stream.start (upload : Upload) : Stream := ⟨upload, [], false, []⟩

/-- A write fails, or as many bytes are written as there is room for. -/
def Stream.write (s : Stream) (bytes : Bytes) : Option Nat → Stream × Option Nat
  | none => (s, none)
  | some room => ({ s with sent := s.sent ++ bytes.take room }, some (min room bytes.length))

/-- The error of the stream after a write. A short write is none. -/
def streamError : Option Nat → Option StreamError
  | none => some .outputStream
  | some _ => none

def Stream.close (s : Stream) : Option StreamError → Stream
  | some error => { s with closed := true, logged := s.logged ++ [.streamError error] }
  | none => { s with closed := true }

def Stream.closeWithError (s : Stream) (error : Option StreamError) (closing : Option Nat) :
    Stream :=
  match error with
  | some error => s.close (some error)
  | none =>
      let (s, written) := s.write s.upload.closingBoundary closing
      s.close (if written ≠ some s.upload.closingBoundary.length then streamError written else none)

/-- The system's answers to an event: for each file how much more than a byte a read gives, if it
    does not fail; how much more than a byte the stream has room for, if the write does not fail;
    the room after that write; whether a file can be put back. -/
structure Answers where
  reads : Nat → Option Nat
  write : Option Nat
  closing : Option Nat
  seeks : Bool

def Stream.setFile (s : Stream) (fd : FileHandle) : Stream :=
  { s with upload := { s.upload with fds := s.upload.fds.set s.upload.currentFileIndex fd } }

def Stream.nextFile (s : Stream) : Stream :=
  { s with upload := { s.upload with currentFileIndex := s.upload.currentFileIndex + 1 } }

/- There is always a current file; an array raises an exception otherwise. -/
def writeNextFileChunk (a : Answers) (s : Stream) : Option Stream :=
  match s.upload.fds[s.upload.currentFileIndex]? with
  | none => none
  | some fd => match a.reads s.upload.currentFileIndex with
    | none =>
        let s := { s with logged := s.logged ++ [Report.failedToReadFromFile] }
        some (s.closeWithError (some .file) a.closing)
    | some more =>
        let data := (fd.readDataUpToLength kChunkSize more).1
        let fd := (fd.readDataUpToLength kChunkSize more).2
        if data.length = 0 then
          if s.upload.currentFileIndex + 1 < s.upload.fds.length then
            writeNextFileChunk a (s.setFile fd).nextFile
          else some ((s.setFile fd).closeWithError none (a.write.map (· + 1)))
        else match (s.setFile fd).write data (a.write.map (· + 1)) with
          | (s, none) => some (s.closeWithError (some .outputStream) a.closing)
          | (s, some bytesWritten) =>
              if bytesWritten = data.length then some s
              else if a.seeks then
                some (s.setFile { fd with offset := fd.offset - (data.length - bytesWritten) })
              else some (s.closeWithError (some .posix) a.closing)
termination_by s.upload.fds.length - s.upload.currentFileIndex
decreasing_by
  simp only [Stream.nextFile, Stream.setFile, List.length_set]
  omega

inductive Label where
  | hasSpaceAvailable (a : Answers)
  | errorOccurred
  | endEncountered (closing : Option Nat)

def handleEvent (s : Stream) : Label → Option Stream
  | .hasSpaceAvailable a => match s.upload.formData with
    | some formData => match s.write formData (a.write.map (· + 1)) with
      | (s, written) =>
          if written ≠ some formData.length then
            let s := { s with
              logged := s.logged ++ [Report.failedToWriteFormData (streamError written)] }
            some (s.closeWithError (streamError written) a.closing)
          else some { s with upload := { s.upload with formData := none } }
    | none => writeNextFileChunk a s
  | .errorOccurred => some (s.closeWithError (some .outputStream) none)
  | .endEncountered closing => some (s.closeWithError none closing)

/-- A stream that is closed has no delegate any more. -/
def step (s : Stream) (l : Label) : Option Stream := if s.closed then none else handleEvent s l

/-! ### What is sent -/

def remaining (u : Upload) : Bytes :=
  u.formData.getD [] ++ (u.fds.drop u.currentFileIndex).flatMap FileHandle.rest

structure Plan where
  body : Bytes
  closingBoundary : Bytes
  contentLength : UInt64

def Plan.Whole (plan : Plan) (sent : Bytes) : Prop :=
  sent = plan.body ++ plan.closingBoundary ∧ sent.length = plan.contentLength.toNat

/-- A stream that was closed without an error reported has sent everything once, as many bytes as
    advertised. -/
def Safe (plan : Plan) (s : Stream) : Prop :=
  s.closed = true → s.logged = [] → plan.Whole s.sent

/-- The event ends the upload: nothing remains, no read fails, and the write of the closing
    boundary finds room for one byte and `more`. -/
structure Closes (a : Answers) (u : Upload) (more : Nat) : Prop where
  form : u.formData = none
  empty : remaining u = []
  reads : ∀ i, u.currentFileIndex ≤ i → i < u.fds.length → a.reads i ≠ none
  write : a.write = some more

def Fits (plan : Plan) (room : Nat) : Prop :=
  plan.closingBoundary.length ≤ room ∧ plan.body.length + plan.closingBoundary.length < 2 ^ 64

/-- The closing boundary fits into the stream where it is written, and nothing remains when the
    stream ends. -/
def Sound (plan : Plan) (s : Stream) : Label → Prop
  | .hasSpaceAvailable a => ∀ more, Closes a s.upload more → Fits plan (more + 1)
  | .errorOccurred => True
  | .endEncountered closing => ∀ room, closing = some room →
      remaining s.upload = [] ∧ Fits plan room

/-! ### One event -/

theorem close_error (s : Stream) (error : StreamError) (closing : Option Nat) :
    s.closeWithError (some error) closing =
      { s with closed := true, logged := s.logged ++ [.streamError error] } := rfl

theorem close_failed (s : Stream) : s.closeWithError none none =
    { s with closed := true, logged := s.logged ++ [.streamError .outputStream] } := rfl

theorem close_written (s : Stream) (room : Nat) : s.closeWithError none (some room) =
    { s with sent := s.sent ++ s.upload.closingBoundary.take room, closed := true } := by
  have unreported : ∀ n length : Nat,
      (if some n ≠ some length then streamError (some n) else none) = none :=
    fun _ _ => ite_self _
  exact congrArg (Stream.close _) (unreported _ _)

/-- The stream is open and nothing was reported; what was sent and what remains is the body. -/
structure Open (plan : Plan) (s : Stream) : Prop where
  isOpen : s.closed = false
  silent : s.logged = []
  sent : s.sent ++ remaining s.upload = plan.body
  index : s.upload.currentFileIndex < s.upload.fds.length
  closingBoundary : s.upload.closingBoundary = plan.closingBoundary

theorem read_split (fd : FileHandle) (length more : Nat) {n : Nat}
    (within : n ≤ (fd.readDataUpToLength length more).1.length) :
    (fd.readDataUpToLength length more).1.take n ++
      ({ fd with offset := fd.offset + n } : FileHandle).rest = fd.rest := by
  simp only [FileHandle.readDataUpToLength, List.length_take] at within ⊢
  rw [List.take_take, Nat.min_eq_left (by omega), FileHandle.rest, FileHandle.rest,
    ← List.drop_drop, List.take_append_drop]

theorem read_empty {fd : FileHandle} {more : Nat}
    (empty : (fd.readDataUpToLength kChunkSize more).1.length = 0) : fd.rest = [] := by
  simp only [FileHandle.readDataUpToLength, List.length_take, kChunkSize] at empty
  exact List.length_eq_zero_iff.mp (by omega)

theorem read_offset (fd : FileHandle) (length more : Nat) :
    (fd.readDataUpToLength length more).2 =
      { fd with offset := fd.offset + (fd.readDataUpToLength length more).1.length } := rfl

theorem remaining_current {u : Upload} {fd : FileHandle} (form : u.formData = none)
    (current : u.fds[u.currentFileIndex]? = some fd) :
    remaining u = fd.rest ++ (u.fds.drop (u.currentFileIndex + 1)).flatMap FileHandle.rest := by
  obtain ⟨inside, here⟩ := List.getElem?_eq_some_iff.mp current
  rw [remaining, form, List.drop_eq_getElem_cons inside, here, List.flatMap_cons]
  rfl

theorem remaining_setFile {s : Stream} {fd : FileHandle} (form : s.upload.formData = none)
    (index : s.upload.currentFileIndex < s.upload.fds.length) :
    remaining (s.setFile fd).upload =
      fd.rest ++ (s.upload.fds.drop (s.upload.currentFileIndex + 1)).flatMap FileHandle.rest := by
  have current : (s.setFile fd).upload.fds[(s.setFile fd).upload.currentFileIndex]? = some fd := by
    simp only [Stream.setFile]
    rw [List.getElem?_set_self index]
  rw [remaining_current (u := (s.setFile fd).upload) form current]
  simp only [Stream.setFile]
  rw [List.drop_set_of_lt (Nat.lt_succ_self _)]

/-- An event of room leaves the stream open, closes it with a report, or ends the upload with what
    there was room for of the closing boundary. -/
inductive Outcome (plan : Plan) (a : Answers) (s t : Stream) : Prop where
  | goesOn (isOpen : Open plan t) (unfinished : ∀ more, ¬ Closes a s.upload more)
  | reported (closed : t.closed = true) (logged : t.logged ≠ [])
      (unfinished : ∀ more, ¬ Closes a s.upload more)
  | ends (more : Nat) (closes : Closes a s.upload more) (closed : t.closed = true)
      (logged : t.logged = []) (sent : t.sent = s.sent ++ plan.closingBoundary.take (more + 1))

theorem reported_close {plan : Plan} {a : Answers} {s : Stream} (m : Stream) (error : StreamError)
    (closing : Option Nat) (unfinished : ∀ more, ¬ Closes a s.upload more) :
    Outcome plan a s (m.closeWithError (some error) closing) := by
  rw [close_error]
  exact .reported rfl (List.append_ne_nil_of_right_ne_nil _ (List.cons_ne_nil _ _)) unfinished

theorem nextFile_same {a : Answers} {s : Stream} {fd fd' : FileHandle} {more : Nat}
    (form : s.upload.formData = none)
    (current : s.upload.fds[s.upload.currentFileIndex]? = some fd) (atEnd : fd.rest = [])
    (read : a.reads s.upload.currentFileIndex ≠ none) :
    remaining (s.setFile fd').nextFile.upload = remaining s.upload ∧
      (Closes a (s.setFile fd').nextFile.upload more ↔ Closes a s.upload more) := by
  have same : remaining (s.setFile fd').nextFile.upload = remaining s.upload := by
    rw [remaining_current form current, atEnd, List.nil_append, remaining]
    simp only [Stream.nextFile, Stream.setFile, form]
    rw [List.drop_set_of_lt (Nat.lt_succ_self _)]
    rfl
  refine ⟨same, fun closes => ⟨form, same ▸ closes.empty, fun i above below => ?_, closes.write⟩,
    fun closes => ⟨form, same ▸ closes.empty, fun i above below => ?_, closes.write⟩⟩
  · rcases Nat.eq_or_lt_of_le above with here | later
    · rw [← here]
      exact read
    · exact closes.reads i later (by simpa [Stream.nextFile, Stream.setFile] using below)
  · exact closes.reads i (Nat.le_of_succ_le above)
      (by simpa [Stream.nextFile, Stream.setFile] using below)

theorem open_sent {plan : Plan} {s t : Stream} {fd : FileHandle} {more n : Nat}
    (isOpen : Open plan s) (form : s.upload.formData = none)
    (current : s.upload.fds[s.upload.currentFileIndex]? = some fd)
    (within : n ≤ (fd.readDataUpToLength kChunkSize more).1.length)
    (upload : t.upload = (s.setFile { fd with offset := fd.offset + n }).upload)
    (sent : t.sent = s.sent ++ (fd.readDataUpToLength kChunkSize more).1.take n)
    (closed : t.closed = s.closed) (logged : t.logged = s.logged) : Open plan t := by
  refine ⟨closed.trans isOpen.isOpen, logged.trans isOpen.silent, ?_, ?_, ?_⟩
  · rw [sent, upload, remaining_setFile form isOpen.index, List.append_assoc, ← List.append_assoc
      ((fd.readDataUpToLength kChunkSize more).1.take n), read_split fd kChunkSize more within,
      ← remaining_current form current]
    exact isOpen.sent
  · rw [upload]
    simpa only [Stream.setFile, List.length_set] using isOpen.index
  · rw [upload]
    exact isOpen.closingBoundary

theorem setFile_again {s t : Stream} {fd fd' : FileHandle}
    (same : t.upload = (s.setFile fd).upload) :
    (t.setFile fd').upload = (s.setFile fd').upload := by
  simp only [Stream.setFile, same, List.set_set]

theorem data_outcome {plan : Plan} {a : Answers} {s : Stream} {fd : FileHandle} {more : Nat}
    (isOpen : Open plan s) (form : s.upload.formData = none)
    (current : s.upload.fds[s.upload.currentFileIndex]? = some fd)
    (read : a.reads s.upload.currentFileIndex = some more)
    (some_read : (fd.readDataUpToLength kChunkSize more).1.length ≠ 0) :
    ∃ t, writeNextFileChunk a s = some t ∧ Outcome plan a s t := by
  have unfinished : ∀ room, ¬ Closes a s.upload room := by
    intro room closes
    have nothing := closes.empty
    rw [remaining_current form current, ← read_split fd kChunkSize more (Nat.le_refl _),
      List.take_length, List.append_eq_nil_iff, List.append_eq_nil_iff] at nothing
    rw [nothing.1.1] at some_read
    exact some_read rfl
  have kept : ∀ n, n ≤ (fd.readDataUpToLength kChunkSize more).1.length → ∀ t : Stream,
      t.upload = (s.setFile { fd with offset := fd.offset + n }).upload →
      t.sent = s.sent ++ (fd.readDataUpToLength kChunkSize more).1.take n →
      t.closed = s.closed → t.logged = s.logged → Outcome plan a s t :=
    fun n within t upload sent closed logged =>
      .goesOn (open_sent isOpen form current within upload sent closed logged) unfinished
  rw [writeNextFileChunk, current]
  simp only [read]
  rw [if_neg some_read]
  cases a.write with
  | none => exact ⟨_, rfl, reported_close _ _ _ unfinished⟩
  | some room =>
    simp only [Option.map_some, Stream.write]
    generalize written : min (room + 1) (fd.readDataUpToLength kChunkSize more).1.length = n
    have within : n ≤ (fd.readDataUpToLength kChunkSize more).1.length := by omega
    have taken : (fd.readDataUpToLength kChunkSize more).1.take (room + 1) =
        (fd.readDataUpToLength kChunkSize more).1.take n := by
      rw [← written, List.take_eq_take_iff]
      omega
    by_cases perfect : n = (fd.readDataUpToLength kChunkSize more).1.length
    · rw [if_pos perfect]
      refine ⟨_, rfl, kept n within _ ?_ ?_ rfl rfl⟩
      · rw [perfect]
        rfl
      · exact congrArg (s.sent ++ ·) taken
    · rw [if_neg perfect]
      cases a.seeks with
      | false => exact ⟨_, rfl, reported_close _ _ _ unfinished⟩
      | true =>
        refine ⟨_, rfl, kept n within _ ?_ ?_ rfl rfl⟩
        · have back : fd.offset + (fd.readDataUpToLength kChunkSize more).1.length -
              ((fd.readDataUpToLength kChunkSize more).1.length - n) = fd.offset + n := by omega
          rw [read_offset]
          simp only [back]
          exact setFile_again rfl
        · exact congrArg (s.sent ++ ·) taken

theorem last_outcome {plan : Plan} {a : Answers} {s : Stream} {fd : FileHandle} {more : Nat}
    (isOpen : Open plan s) (form : s.upload.formData = none)
    (current : s.upload.fds[s.upload.currentFileIndex]? = some fd)
    (read : a.reads s.upload.currentFileIndex = some more)
    (atEnd : (fd.readDataUpToLength kChunkSize more).1.length = 0)
    (last : ¬ s.upload.currentFileIndex + 1 < s.upload.fds.length) :
    ∃ t, writeNextFileChunk a s = some t ∧ Outcome plan a s t := by
  rw [writeNextFileChunk, current]
  simp only [read]
  rw [if_pos atEnd, if_neg last]
  cases write : a.write with
  | none =>
    refine ⟨_, rfl, ?_⟩
    rw [Option.map_none, close_failed]
    refine .reported rfl (List.append_ne_nil_of_right_ne_nil _ (List.cons_ne_nil _ _)) ?_
    intro more closes
    rw [closes.write] at write
    cases write
  | some room =>
    refine ⟨_, rfl, ?_⟩
    rw [Option.map_some, close_written]
    refine .ends room ⟨form, ?_, ?_, write⟩ rfl isOpen.silent ?_
    · rw [remaining_current form current, read_empty atEnd,
        List.drop_eq_nil_of_le (by omega), List.flatMap_nil]
      rfl
    · intro i above below
      have index := isOpen.index
      obtain rfl : i = s.upload.currentFileIndex := by omega
      rw [read]
      exact Option.some_ne_none _
    · exact congrArg (fun boundary => s.sent ++ List.take (room + 1) boundary)
        isOpen.closingBoundary

theorem chunk_outcome {plan : Plan} {a : Answers} {s : Stream} (isOpen : Open plan s)
    (form : s.upload.formData = none) :
    ∃ t, writeNextFileChunk a s = some t ∧ Outcome plan a s t := by
  induction left : s.upload.fds.length - s.upload.currentFileIndex generalizing s with
  | zero =>
    have index := isOpen.index
    omega
  | succ n ih =>
    obtain ⟨fd, current⟩ : ∃ fd, s.upload.fds[s.upload.currentFileIndex]? = some fd :=
      ⟨_, List.getElem?_eq_getElem isOpen.index⟩
    cases read : a.reads s.upload.currentFileIndex with
    | none =>
      rw [writeNextFileChunk, current]
      simp only [read]
      refine ⟨_, rfl, reported_close _ _ _ fun more closes => ?_⟩
      exact closes.reads _ (Nat.le_refl _) isOpen.index read
    | some more =>
      by_cases atEnd : (fd.readDataUpToLength kChunkSize more).1.length = 0
      · by_cases another : s.upload.currentFileIndex + 1 < s.upload.fds.length
        · have reads : a.reads s.upload.currentFileIndex ≠ none := by
            rw [read]
            exact Option.some_ne_none _
          have same := fun room =>
            @nextFile_same a s fd (fd.readDataUpToLength kChunkSize more).2 room
              form current (read_empty atEnd) reads
          rw [writeNextFileChunk, current]
          simp only [read]
          rw [if_pos atEnd, if_pos another]
          obtain ⟨t, chunk, outcome⟩ := ih
            (s := (s.setFile (fd.readDataUpToLength kChunkSize more).2).nextFile)
            ⟨isOpen.isOpen, isOpen.silent, (congrArg (s.sent ++ ·) (same 0).1).trans isOpen.sent,
              by simpa [Stream.nextFile, Stream.setFile] using another, isOpen.closingBoundary⟩
            form (by simp only [Stream.nextFile, Stream.setFile, List.length_set]; omega)
          refine ⟨t, chunk, ?_⟩
          cases outcome with
          | goesOn isOpen unfinished =>
            exact .goesOn isOpen fun room closes => unfinished room ((same room).2.mpr closes)
          | reported closed logged unfinished =>
            exact .reported closed logged fun room closes =>
              unfinished room ((same room).2.mpr closes)
          | ends room closes closed logged sent =>
            exact .ends room ((same room).2.mp closes) closed logged sent
        · exact last_outcome isOpen form current read atEnd another
      · exact data_outcome isOpen form current read atEnd

/-! ### Whole runs -/

theorem whole_iff {plan : Plan} {sent rest : Bytes} {room : Nat} (body : sent ++ rest = plan.body)
    (advertised : plan.contentLength.toNat =
      (plan.body.length + plan.closingBoundary.length) % 2 ^ 64) :
    plan.Whole (sent ++ plan.closingBoundary.take room) ↔ rest = [] ∧ Fits plan room := by
  have lengths : sent.length + rest.length = plan.body.length := by
    rw [← body, List.length_append]
  constructor
  · rintro ⟨whole, counted⟩
    have length : (sent ++ plan.closingBoundary.take room).length =
        plan.body.length + plan.closingBoundary.length := by
      rw [whole, List.length_append]
    rw [counted, advertised] at length
    have below : plan.body.length + plan.closingBoundary.length < 2 ^ 64 := by
      rw [← length]
      exact Nat.mod_lt _ (Nat.two_pow_pos 64)
    have same := congrArg List.length whole
    rw [List.length_append, List.length_append, List.length_take] at same
    refine ⟨List.length_eq_zero_iff.mp (by omega), by omega, below⟩
  · rintro ⟨rfl, room, below⟩
    rw [List.append_nil] at body
    rw [List.take_of_length_le room, body]
    refine ⟨rfl, ?_⟩
    rw [List.length_append, advertised, Nat.mod_eq_of_lt below]

theorem close_reported {s : Stream} {error : Option StreamError} {closing : Option Nat}
    (logged : s.logged ≠ []) :
    (s.closeWithError error closing).closed = true ∧
      (s.closeWithError error closing).logged ≠ [] := by
  cases error with
  | some error => exact ⟨rfl, List.append_ne_nil_of_left_ne_nil logged _⟩
  | none =>
    cases closing with
    | none => exact ⟨rfl, List.append_ne_nil_of_left_ne_nil logged _⟩
    | some room =>
      rw [close_written]
      exact ⟨rfl, logged⟩

theorem form_outcome {plan : Plan} {a : Answers} {s t : Stream} {formData : Bytes}
    (isOpen : Open plan s) (form : s.upload.formData = some formData)
    (taken : handleEvent s (.hasSpaceAvailable a) = some t) :
    Open plan t ∨ t.closed = true ∧ t.logged ≠ [] := by
  simp only [handleEvent, form] at taken
  split at taken
  · rw [← Option.some.inj taken]
    exact Or.inr (close_reported (List.append_ne_nil_of_right_ne_nil _ (List.cons_ne_nil _ _)))
  · rename_i written
    rw [← Option.some.inj taken]
    cases write : a.write with
    | none =>
      rw [write] at written
      exact absurd (by simp [Stream.write]) written
    | some room =>
      rw [write] at written
      simp only [Option.map_some, Stream.write, ne_eq, Option.some.injEq, Classical.not_not]
        at written
      refine Or.inl ⟨isOpen.isOpen, isOpen.silent, ?_, isOpen.index, isOpen.closingBoundary⟩
      have sent := isOpen.sent
      rw [remaining, form] at sent
      simp only [Option.map_some, Stream.write, remaining, Option.getD_none, List.nil_append]
      rw [List.take_of_length_le (by omega), List.append_assoc]
      exact sent

/-- An event leaves the stream open, or closes it with a report, and is sound; or it closes it
    without one, and is sound just where everything was sent. -/
theorem step_cases {plan : Plan} {s t : Stream} {l : Label} (isOpen : Open plan s)
    (advertised : plan.contentLength.toNat =
      (plan.body.length + plan.closingBoundary.length) % 2 ^ 64)
    (taken : step s l = some t) :
    (Open plan t ∧ Sound plan s l) ∨ (t.closed = true ∧ t.logged ≠ [] ∧ Sound plan s l) ∨
      (t.closed = true ∧ t.logged = [] ∧ (Sound plan s l ↔ plan.Whole t.sent)) := by
  have reports : ∀ logged : List Report, ∀ report, logged ++ [report] ≠ [] := fun _ _ =>
    List.append_ne_nil_of_right_ne_nil _ (List.cons_ne_nil _ _)
  rw [step, isOpen.isOpen, if_neg Bool.false_ne_true] at taken
  cases l with
  | errorOccurred =>
    rw [← Option.some.inj taken]
    exact Or.inr (Or.inl ⟨rfl, reports _ _, trivial⟩)
  | endEncountered closing =>
    rw [← Option.some.inj taken]
    cases closing with
    | none =>
      rw [close_failed]
      exact Or.inr (Or.inl ⟨rfl, reports _ _, fun room other => by cases other⟩)
    | some room =>
      rw [close_written, isOpen.closingBoundary]
      refine Or.inr (Or.inr ⟨rfl, isOpen.silent, ?_⟩)
      rw [whole_iff isOpen.sent advertised]
      exact ⟨fun sound => sound room rfl, fun fits other same => by
        cases same
        exact fits⟩
  | hasSpaceAvailable a =>
    cases form : s.upload.formData with
    | some formData =>
      have sound : Sound plan s (.hasSpaceAvailable a) := fun more closes => by
        rw [closes.form] at form
        cases form
      rcases form_outcome isOpen form taken with isOpen | ⟨closed, logged⟩
      · exact Or.inl ⟨isOpen, sound⟩
      · exact Or.inr (Or.inl ⟨closed, logged, sound⟩)
    | none =>
      obtain ⟨u, chunk, outcome⟩ := chunk_outcome (a := a) isOpen form
      simp only [handleEvent, form, chunk, Option.some.injEq] at taken
      subst u
      cases outcome with
      | goesOn isOpen unfinished =>
        exact Or.inl ⟨isOpen, fun more closes => absurd closes (unfinished more)⟩
      | reported closed logged unfinished =>
        exact Or.inr (Or.inl ⟨closed, logged, fun more closes => absurd closes (unfinished more)⟩)
      | ends more closes closed logged sent =>
        refine Or.inr (Or.inr ⟨closed, logged, ?_⟩)
        rw [sent, whole_iff isOpen.sent advertised, and_iff_right closes.empty]
        refine ⟨fun sound => sound more closes, fun fits other again => ?_⟩
        have same := closes.write.symm.trans again.write
        cases same
        exact fits

def Inv (plan : Plan) (s : Stream) : Prop := Open plan s ∨ s.closed = true ∧ Safe plan s

theorem Inv.safe {plan : Plan} {s : Stream} (inv : Inv plan s) : Safe plan s := by
  rcases inv with isOpen | ⟨-, safe⟩
  · intro closed
    rw [isOpen.isOpen] at closed
    cases closed
  · exact safe

theorem closed_stays {s t : Stream} {l : Label} (closed : s.closed = true)
    (taken : step s l = some t) : False := by
  rw [step, if_pos closed] at taken
  cases taken

theorem runs_whole {plan : Plan} {s : Stream} (isOpen : Open plan s)
    (advertised : plan.contentLength.toNat =
      (plan.body.length + plan.closingBoundary.length) % 2 ^ 64) (ls : List Label) :
    Runs.Always step (Safe plan) s ls ↔ Runs.Meets step (Sound plan) s ls := by
  refine Runs.always_iff_meets (Inv plan) (fun _ inv => inv.safe) ?_ ?_ (Or.inl isOpen) ls
  · rintro s l t (isOpen | ⟨closed, -⟩) sound taken
    · rcases step_cases isOpen advertised taken with ⟨isOpen, -⟩ | ⟨closed, logged, -⟩ |
        ⟨closed, -, whole⟩
      · exact Or.inl isOpen
      · exact Or.inr ⟨closed, fun _ silent => absurd silent logged⟩
      · exact Or.inr ⟨closed, fun _ _ => whole.mp sound⟩
    · exact (closed_stays closed taken).elim
  · rintro s l t (isOpen | ⟨closed, -⟩) unsound taken
    · rcases step_cases isOpen advertised taken with ⟨-, sound⟩ | ⟨-, -, sound⟩ |
        ⟨closed, logged, whole⟩
      · exact absurd sound unsound
      · exact absurd sound unsound
      · exact fun safe => unsound (whole.mpr (safe closed logged))
    · exact (closed_stays closed taken).elim

def planOf (boundary : String) (formParts : List (String × String)) (files : List Bytes)
    (filesContentType : Option String) (fileName : String) (contentLength : UInt64) : Plan :=
  ⟨formDataOf boundary formParts filesContentType fileName ++ files.flatten,
    closingBoundaryOf boundary, contentLength⟩

theorem rest_at_start (files : List Bytes) :
    (files.map fun contents => (⟨contents, 0⟩ : FileHandle)).flatMap FileHandle.rest =
      files.flatten := by
  induction files with
  | nil => rfl
  | cons contents files ih =>
    rw [List.map_cons, List.flatMap_cons, List.flatten_cons, ih]
    rfl

theorem open_start {boundary : String} {formParts : List (String × String)} {files : List Bytes}
    {filesTotalSize : UInt64} {filesContentType : Option String} {fileName : String}
    {upload : Upload} (created : initWithFormParts boundary formParts files filesTotalSize
      filesContentType fileName = some upload)
    (total : filesTotalSize.toNat = (files.map List.length).sum) :
    let plan := planOf boundary formParts files filesContentType fileName upload.contentLength
    Open plan (.start upload) ∧ plan.contentLength.toNat =
      (plan.body.length + plan.closingBoundary.length) % 2 ^ 64 := by
  unfold initWithFormParts at created
  split at created
  · cases created
  rename_i given
  simp only at created
  split at created
  · cases created
  obtain rfl := Option.some.inj created
  refine ⟨⟨rfl, rfl, ?_, ?_, rfl⟩, ?_⟩
  · simp only [Stream.start, remaining, planOf, List.drop_zero, rest_at_start, Option.getD_some,
      List.nil_append]
  · have some_file : files ≠ [] := fun none => given (Or.inl none)
    simpa [Stream.start] using List.length_pos_iff.mpr some_file
  · simp only [planOf, UInt64.toNat_add, UInt64.toNat_ofNat', total, List.length_append,
      List.length_flatten]
    omega

/-- For every form and all files: the runs that send the body whole, unless an error is reported,
    are those in which the closing boundary fits into the stream where it is written. -/
theorem whole_iff_sound {boundary : String} {formParts : List (String × String)}
    {files : List Bytes} {filesTotalSize : UInt64} {filesContentType : Option String}
    {fileName : String} {upload : Upload}
    (created : initWithFormParts boundary formParts files filesTotalSize filesContentType
      fileName = some upload)
    (total : filesTotalSize.toNat = (files.map List.length).sum) (ls : List Label) :
    let plan := planOf boundary formParts files filesContentType fileName upload.contentLength
    Runs.Always step (Safe plan) (.start upload) ls ↔
      Runs.Meets step (Sound plan) (.start upload) ls :=
  runs_whole (open_start created total).1 (open_start created total).2 ls

def plenty : Answers := ⟨fun _ => some 0, some kChunkSize, none, true⟩

def scarce : Answers := { plenty with write := some 0 }

theorem two_files_whole :
    ∃ upload, initWithFormParts "b" [("key", "k")] [[1, 2], [3]] 3 none "f" = some upload ∧
      Runs.Always step (Safe (planOf "b" [("key", "k")] [[1, 2], [3]] none "f"
        upload.contentLength)) (.start upload)
        [.hasSpaceAvailable plenty, .hasSpaceAvailable plenty] := by
  have created : (initWithFormParts "b" [("key", "k")] [[1, 2], [3]] 3 none "f").isSome = true := by
    decide +kernel
  obtain ⟨upload, created⟩ := Option.isSome_iff_exists.mp created
  have fits : Fits (planOf "b" [("key", "k")] [[1, 2], [3]] none "f" upload.contentLength)
      (kChunkSize + 1) := by
    have lengths : (closingBoundaryOf "b").length = 9 ∧
        (formDataOf "b" [("key", "k")] none "f" ++ [[1, 2], [3]].flatten).length < 1000 := by
      decide +kernel
    exact ⟨Nat.le_of_lt (by simp only [planOf, lengths.1]; decide),
      by simp only [planOf, lengths.1]; omega⟩
  refine ⟨upload, created, (whole_iff_sound created (by decide) _).mpr ?_⟩
  have sound : ∀ s, Sound (planOf "b" [("key", "k")] [[1, 2], [3]] none "f"
      upload.contentLength) s (.hasSpaceAvailable plenty) := by
    intro s more closes
    cases closes.write
    exact fits
  exact fun t _ => ⟨sound _, fun u _ => ⟨sound _, trivial⟩⟩

/-- With one empty file, where the stream has room for one byte of the closing boundary, the
    stream is closed without a report and the others are not sent. -/
theorem short_boundary_unreported :
    ∃ upload, initWithFormParts "b" [] [[]] 0 none "f" = some upload ∧
      ¬ Runs.Always step (Safe (planOf "b" [] [[]] none "f" upload.contentLength))
        (.start upload) [.hasSpaceAvailable plenty, .hasSpaceAvailable scarce] := by
  have short : ((initWithFormParts "b" [] [[]] 0 none "f").bind fun upload =>
      (Runs.run step (.start upload) [.hasSpaceAvailable plenty, .hasSpaceAvailable scarce]).map
        fun s => (s.closed, s.logged, s.sent.length, upload.contentLength.toNat)) =
      some (true, [], 158, 166) := by
    decide +kernel
  obtain ⟨upload, created, short⟩ := Option.bind_eq_some_iff.mp short
  obtain ⟨s, ends, short⟩ := Option.map_eq_some_iff.mp short
  simp only [Prod.mk.injEq] at short
  obtain ⟨closed, logged, sent, advertised⟩ := short
  refine ⟨upload, created, fun always => ?_⟩
  have counted := (Runs.always_last always ends closed logged).2
  simp only [planOf, sent, advertised] at counted
  exact absurd counted (by decide)

end SantaMultipartUpload
