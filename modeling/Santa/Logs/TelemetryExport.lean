import Mathlib.Algebra.Group.Nat.Defs
import Mathlib.Logic.Function.Basic
import Santa.Library.Runs
import Santa.Logs.SpoolWriter

/-!
The export of telemetry. One call of ExportTelemetrySerialized runs at a time. It takes
files from the spool reader, hands those of one type to the sync service with a reply
block, waits for the block, and acknowledges to the reader what the tracker has. The
block may be called at any time, from any thread and more than once, and its steps fall
between those of the loop.
-/
namespace SantaTelemetryExport
open SantaSpoolWriter (Bytes kStreamBatcherMagic)

inductive ExportLogType where
  | unknown
  | uncompressedStream
  | gzipStream
  | zstdStream
  deriving DecidableEq, Repr

/- A name in the spool directory stands for one file, which does not change. -/
structure File where
  path : String
  regular : Bool
  contents : Bytes
  deriving DecidableEq, Repr

structure Answers where
  opens : Bool
  fstat : Bool
  reads : Bool
  deriving DecidableEq, Repr

def magicOf : Bytes → Option Nat
  | [a, b, c, d] => some (a.toNat + b.toNat * 2 ^ 8 + c.toNat * 2 ^ 16 + d.toNat * 2 ^ 24)
  | _ => none

def getLogType (reads : Bool) (contents : Bytes) : ExportLogType :=
  match magicOf (if reads then contents.take 4 else []) with
  | none => .unknown
  | some magic =>
      if magic = kStreamBatcherMagic then .uncompressedStream
      else if magic = 0xfd2fb528 then .zstdStream
      else if magic % 2 ^ 16 = 0x8b1f then .gzipStream
      else .unknown

theorem getLogType_frame (f : SantaSpoolWriter.Format) (bytes rest : Bytes) :
    getLogType true (f.frame bytes ++ rest) = .uncompressedStream := by
  have magic : (f.frame bytes ++ rest).take 4 =
      SantaSpoolWriter.littleEndian32 kStreamBatcherMagic := by
    simp only [SantaSpoolWriter.Format.frame, List.append_assoc]
    exact List.take_left' rfl
  rw [getLogType, if_pos rfl, magic]
  decide

def getContentTypeAndExtension : ExportLogType → Option (String × String)
  | .uncompressedStream => some ("application/octet-stream", "stream")
  | .gzipStream => some ("application/gzip", "gz")
  | .zstdStream => some ("application/zstd", "zst")
  | .unknown => none

/- `others` is not in the program; it has the files whose type was not that of the batch. -/
structure Batch where
  curLogType : ExportLogType
  pathsToHandles : List String
  totalBytesOpened : Nat
  processAnotherBatch : Bool
  others : List String
  deriving DecidableEq, Repr

def Batch.empty : Batch := ⟨.unknown, [], 0, false, []⟩

def Answers.readable (a : Answers) : Bool := a.opens && a.fstat && a.reads

def accepts (file : File) (a : Answers) : Bool :=
  a.opens && a.fstat && file.regular && getLogType a.reads file.contents != .unknown

def Batch.add (b : Batch) (file : File) (logType : ExportLogType) : Batch :=
  if b.curLogType = .unknown ∨ b.curLogType = logType then
    { b with
      curLogType := logType
      pathsToHandles := b.pathsToHandles.insert file.path
      totalBytesOpened := b.totalBytesOpened + file.contents.length }
  else { b with processAnotherBatch := true, others := file.path :: b.others }

/-- One call of exportTelemetryFiles, and how far its reply block has come: the answer that it
    was executed with, whether it has stored the answer, and which files it has yet to
    acknowledge. -/
structure Export where
  call : Nat
  files : List String
  contentType : String
  fileExtension : String
  totalSize : Nat
  executed : Option Bool
  stored : Bool
  unacknowledged : List String
  completed : Bool
  deriving DecidableEq, Repr

def Export.executes (e : Export) (success : Bool) : Export :=
  { e with
    executed := some success
    unacknowledged := if success then e.files else [] }

def Export.failed (e : Export) : Export :=
  { e with executed := some false, stored := true, completed := true }

/-- Where the loop is. A batch is drained when the tracker's files have gone to the reader. -/
inductive Phase where
  | idle
  | filling (b : Batch)
  | filled (b : Batch)
  | waiting (b : Batch) (sent : Nat)
  | timedOut (b : Batch) (sent : Nat)
  | draining (b : Batch) (sent : Option Nat)
  | drained (b : Batch) (sent : Nat)
  deriving DecidableEq, Repr

def Phase.afterDrain (b : Batch) : Option Nat → Phase
  | none => .idle
  | some n => .drained b n

/- The last eight are not in the program. They record the files deleted, those that could once
   not be opened or read, those that were handed out and not acknowledged since, whether one of
   these was handed out again, and those that an export has left undone and that have not been
   handed out since; the files that the call found in the spool or that came during it, the
   files handed out in the pass and the steps of the call. -/
structure System where
  spool : List File
  unackedMessages : String → Bool
  fileState : String → Option Bool
  phase : Phase
  maxOpenedFiles : Nat
  maxFileUploadSizeBytes : Nat
  call : Nat
  replyBlockSuccess : Nat → Bool
  batches : Nat
  exports : Nat → Option Export
  passes : Nat
  deleted : List File
  unreadable : String → Bool
  outstanding : String → Bool
  twice : Bool
  owed : String → Bool
  found : Nat
  handed : Nat
  moves : Nat

def System.start : System where
  spool := []
  unackedMessages := fun _ => false
  fileState := fun _ => none
  phase := .idle
  maxOpenedFiles := 0
  maxFileUploadSizeBytes := 0
  call := 0
  replyBlockSuccess := fun _ => true
  batches := 0
  exports := fun _ => none
  passes := 0
  deleted := []
  unreadable := fun _ => false
  outstanding := fun _ => false
  twice := false
  owed := fun _ => false
  found := 0
  handed := 0
  moves := 0

namespace System

/-! ### The tracker -/

def track (s : System) (path : String) : System :=
  { s with fileState := Function.update s.fileState path (some ((s.fileState path).getD false)) }

def ackCompleted (s : System) (path : String) : System :=
  { s with fileState := Function.update s.fileState path (some true) }

/-! ### The loop -/

def startExport (s : System) (maxFiles maxBytes : Nat) : System :=
  { s with
    phase := .filling .empty
    maxOpenedFiles := maxFiles
    maxFileUploadSizeBytes := maxBytes
    call := s.call + 1
    replyBlockSuccess := Function.update s.replyBlockSuccess (s.call + 1) true
    passes := 1
    found := s.spool.length
    handed := 0
    moves := 0 }

def nextFileToExport (s : System) (path : String) : System :=
  { s with
    unackedMessages := Function.update s.unackedMessages path true
    outstanding := Function.update s.outstanding path true
    twice := s.twice || s.outstanding path
    owed := Function.update s.owed path false
    handed := s.handed + 1 }

def isFull (s : System) (b : Batch) : Bool :=
  s.maxOpenedFiles ≤ b.pathsToHandles.length || s.maxFileUploadSizeBytes ≤ b.totalBytesOpened

def openFile (s : System) (b : Batch) (file : File) (a : Answers) : System :=
  let s := s.nextFileToExport file.path
  if accepts file a = false then
    { s.ackCompleted file.path with
      unreadable :=
        Function.update s.unreadable file.path (s.unreadable file.path || !a.readable) }
  else
    let s := s.track file.path
    let b := b.add file (getLogType a.reads file.contents)
    if s.isFull b then { s with phase := .filled { b with processAnotherBatch := true } }
    else { s with phase := .filling b }

/-- Without files the tracker is drained and the loop ends. A batch whose type has no content
    type fails an assertion. -/
def exportFiles (s : System) (b : Batch) : Option System :=
  if b.pathsToHandles = [] then some { s with phase := .draining b none }
  else (getContentTypeAndExtension b.curLogType).map fun (contentType, fileExtension) =>
    { s with
      phase := .waiting b s.batches
      batches := s.batches + 1
      exports := Function.update s.exports s.batches
        (some ⟨s.call, b.pathsToHandles, contentType, fileExtension, b.totalBytesOpened, none,
          false, [], false⟩) }

def leftUndone (s : System) (b : Batch) (sent : Option Nat) : List String :=
  if (sent.bind s.exports).bind (·.executed) = some true then b.others
  else b.pathsToHandles ++ b.others

/-- FilesExported, and AckMessage for each of the files. A file that cannot be removed stays
    unacknowledged. -/
def filesExported (s : System) (removes : String → Bool) : System :=
  let gone := fun (f : File) => decide (s.fileState f.path = some true) && removes f.path
  let acked := fun path => s.fileState path = some false ∨
    (s.fileState path = some true ∧ removes path = true)
  { s with
    spool := s.spool.filter (fun f => !gone f)
    unackedMessages := fun path => if acked path then false else s.unackedMessages path
    fileState := fun _ => none
    deleted := s.deleted ++ s.spool.filter gone
    outstanding := fun path => if acked path then false else s.outstanding path }

def drain (s : System) (b : Batch) (sent : Option Nat) (removes : String → Bool) : System :=
  let undone := s.leftUndone b sent
  { s.filesExported removes with
    phase := .afterDrain b sent
    owed := fun path => decide (path ∈ undone) || s.owed path }

def loop (s : System) (b : Batch) : System :=
  if s.replyBlockSuccess s.call && b.processAnotherBatch then
    { s with phase := .filling .empty, passes := s.passes + 1, handed := 0 }
  else { s with phase := .idle }

/-! ### The reply block -/

/-- The semaphore lets one execution through; the others have nothing to do. -/
def replyStarts (s : System) (n : Nat) (e : Export) (success : Bool) : System :=
  if e.executed = none then
    { s with exports := Function.update s.exports n (some (e.executes success)) }
  else s

def replyStores (s : System) (n : Nat) (e : Export) (success : Bool) : System :=
  { s with
    replyBlockSuccess := Function.update s.replyBlockSuccess e.call success
    exports := Function.update s.exports n (some { e with stored := true }) }

def replyAcks (s : System) (n : Nat) (e : Export) (path : String) : System :=
  { s.ackCompleted path with
    exports := Function.update s.exports n
      (some { e with unacknowledged := e.unacknowledged.erase path }) }

def replySignals (s : System) (n : Nat) (e : Export) : System :=
  { s with exports := Function.update s.exports n (some { e with completed := true }) }

/-- The loop's own call of the block, with `false`, which has no file to acknowledge. -/
def callsReplyBlock (s : System) (n : Nat) (e : Export) : System :=
  if e.executed = none then
    { s with
      replyBlockSuccess := Function.update s.replyBlockSuccess e.call false
      exports := Function.update s.exports n (some e.failed) }
  else s

end System

/-- The steps of the loop, those of the reply block of an export, and a file that comes. -/
inductive Label where
  | addFile (file : File)
  | start (config : Bool) (maxFiles maxBytes : Nat)
  | nextFile (file : File) (a : Answers)
  | noFile (iterates : Bool)
  | exportFiles
  | completed
  | timeOut
  | giveUp
  | drain (removes : String → Bool)
  | loop
  | replyStarts (n : Nat) (success : Bool)
  | replyStores (n : Nat)
  | replyAcks (n : Nat) (path : String)
  | replySignals (n : Nat)

def System.moved (s : System) : System := { s with moves := s.moves + 1 }

def move (s : System) : Phase → Label → Option System
  | .filling b, .nextFile file a =>
      if file ∈ s.spool ∧ s.unackedMessages file.path = false then some (s.openFile b file a)
      else none
  | .filling b, .noFile iterates =>
      if iterates = true ∧ s.spool.any (fun f => !s.unackedMessages f.path) then none
      else some { s with phase := .filled b }
  | .filled b, .exportFiles => s.exportFiles b
  | .waiting b n, .completed =>
      (s.exports n).bind fun e =>
        if e.completed then some { s with phase := .draining b (some n) } else none
  | .waiting b n, .timeOut =>
      (s.exports n).bind fun e =>
        if e.completed then none else some { s with phase := .timedOut b n }
  | .timedOut b n, .giveUp =>
      (s.exports n).map fun e => { s.callsReplyBlock n e with phase := .draining b (some n) }
  | .draining b sent, .drain removes => some (s.drain b sent removes)
  | .drained b _, .loop => some (s.loop b)
  | _, _ => none

def replyStep (s : System) (n : Nat) (e : Export) : Label → Option System
  | .replyStarts _ success => some (s.replyStarts n e success)
  | .replyStores _ =>
      match e.executed with
      | some success => if e.stored then none else some (s.replyStores n e success)
      | none => none
  | .replyAcks _ path =>
      if e.stored = true ∧ path ∈ e.unacknowledged then some (s.replyAcks n e path) else none
  | .replySignals _ =>
      if e.stored = true ∧ e.unacknowledged = [] ∧ e.completed = false then
        some (s.replySignals n e)
      else none
  | _ => none

def Label.export? : Label → Option Nat
  | .replyStarts n _ => some n
  | .replyStores n => some n
  | .replyAcks n _ => some n
  | .replySignals n => some n
  | _ => none

def step (s : System) (l : Label) : Option System :=
  match l with
  | .addFile file =>
      if file.path ∈ (s.spool ++ s.deleted).map File.path then none
      else some { s with spool := s.spool ++ [file], found := s.found + 1 }
  | .start config maxFiles maxBytes =>
      if s.phase = .idle then some (if config then s.startExport maxFiles maxBytes else s) else none
  | l =>
      match l.export? with
      | some n => (s.exports n).bind fun e => replyStep s n e l
      | none => (move s s.phase l).map System.moved

/-! ### What the program owes -/

def System.acknowledging (s : System) : Bool :=
  match s.phase with
  | .draining _ (some n) => (s.exports n).any fun e => !e.unacknowledged.isEmpty
  | _ => false

def System.storing (s : System) : Bool :=
  match s.phase with
  | .drained _ n => (s.exports n).any fun e => !e.stored
  | _ => false

/-- The loop does not drain the tracker into which a reply block of the batch still puts files,
    nor look at the answer that such a block has yet to store. -/
def Unraced (s : System) : Label → Prop
  | .drain _ => s.acknowledging = false
  | .loop => s.storing = false
  | _ => True

instance (s : System) (l : Label) : Decidable (Unraced s l) := by
  cases l <;> unfold Unraced <;> infer_instance

/-- The file was in a batch whose reply block was executed with `true`. -/
def Exported (s : System) (path : String) : Prop :=
  ∃ n e, s.exports n = some e ∧ e.executed = some true ∧ path ∈ e.files

/-- A file of a supported type that could be opened and read has been exported. -/
def Accounted (s : System) (f : File) : Prop :=
  f.regular = true → getLogType true f.contents ≠ .unknown →
    s.unreadable f.path = true ∨ Exported s f.path

def Offered (s : System) (path : String) : Prop :=
  path ∈ s.spool.map File.path ∧ s.unackedMessages path = false

structure Safe (s : System) : Prop where
  deleted : ∀ f ∈ s.deleted, Accounted s f
  kept : ∀ path, s.owed path = true → Offered s path
  once : s.twice = false
  ends : s.moves ≤ (s.found + 1) * (s.found + 6)
  goesOn : s.phase ≠ .idle → ∃ l, l ≠ .noFile false ∧ (move s s.phase l).isSome = true

/-! ### The steps one by one -/

inductive Replies (s : System) (n : Nat) (e : Export) : System → Prop where
  | starts (success : Bool) : Replies s n e (s.replyStarts n e success)
  | stores (success : Bool) (answered : e.executed = some success) (unstored : ¬ e.stored = true) :
      Replies s n e (s.replyStores n e success)
  | acks (path : String) (member : path ∈ e.unacknowledged) : Replies s n e (s.replyAcks n e path)
  | signals (stored : e.stored = true) (none : e.unacknowledged = []) :
      Replies s n e (s.replySignals n e)

theorem replies_of_step {s t : System} {n : Nat} {e : Export} {l : Label}
    (taken : replyStep s n e l = some t) : Replies s n e t := by
  cases l with
  | replyStarts m success =>
    obtain rfl := Option.some.inj taken
    exact .starts success
  | replyStores m =>
    simp only [replyStep] at taken
    cases answered : e.executed with
    | none =>
      rw [answered] at taken
      cases taken
    | some success =>
      simp only [answered] at taken
      obtain ⟨unstored, taken⟩ := Option.ite_none_left_eq_some.mp taken
      obtain rfl := Option.some.inj taken
      exact .stores success answered unstored
  | replyAcks m path =>
    obtain ⟨⟨-, member⟩, taken⟩ := Option.ite_none_right_eq_some.mp taken
    obtain rfl := Option.some.inj taken
    exact .acks path member
  | replySignals m =>
    obtain ⟨⟨stored, none, -⟩, taken⟩ := Option.ite_none_right_eq_some.mp taken
    obtain rfl := Option.some.inj taken
    exact .signals stored none
  | _ => cases taken

inductive Moves (s : System) : Label → System → Prop where
  | nextFile (b : Batch) (file : File) (a : Answers) (phase : s.phase = .filling b)
      (member : file ∈ s.spool) (free : s.unackedMessages file.path = false) :
      Moves s (.nextFile file a) (s.openFile b file a)
  | noFile (b : Batch) (iterates : Bool) (phase : s.phase = .filling b) :
      Moves s (.noFile iterates) { s with phase := .filled b }
  | exportFiles (b : Batch) (phase : s.phase = .filled b) (t : System)
      (taken : s.exportFiles b = some t) : Moves s .exportFiles t
  | completed (b : Batch) (n : Nat) (e : Export) (phase : s.phase = .waiting b n)
      (here : s.exports n = some e) (completed : e.completed = true) :
      Moves s .completed { s with phase := .draining b (some n) }
  | timeOut (b : Batch) (n : Nat) (phase : s.phase = .waiting b n) :
      Moves s .timeOut { s with phase := .timedOut b n }
  | giveUp (b : Batch) (n : Nat) (e : Export) (phase : s.phase = .timedOut b n)
      (here : s.exports n = some e) :
      Moves s .giveUp { s.callsReplyBlock n e with phase := .draining b (some n) }
  | drain (b : Batch) (sent : Option Nat) (removes : String → Bool)
      (phase : s.phase = .draining b sent) : Moves s (.drain removes) (s.drain b sent removes)
  | loop (b : Batch) (n : Nat) (phase : s.phase = .drained b n) : Moves s .loop (s.loop b)

theorem moves_of_move {s t : System} {l : Label} (taken : move s s.phase l = some t) :
    Moves s l t := by
  unfold move at taken
  split at taken
  case h_1 b file a phase =>
    obtain ⟨⟨member, free⟩, taken⟩ := Option.ite_none_right_eq_some.mp taken
    obtain rfl := Option.some.inj taken
    exact .nextFile b file a phase member free
  case h_2 b iterates phase =>
    obtain ⟨-, taken⟩ := Option.ite_none_left_eq_some.mp taken
    obtain rfl := Option.some.inj taken
    exact .noFile b iterates phase
  case h_3 b phase => exact .exportFiles b phase t taken
  case h_4 b n phase =>
    obtain ⟨e, here, taken⟩ := Option.bind_eq_some_iff.mp taken
    obtain ⟨completed, taken⟩ := Option.ite_none_right_eq_some.mp taken
    obtain rfl := Option.some.inj taken
    exact .completed b n e phase here completed
  case h_5 b n phase =>
    obtain ⟨e, -, taken⟩ := Option.bind_eq_some_iff.mp taken
    obtain ⟨-, taken⟩ := Option.ite_none_left_eq_some.mp taken
    obtain rfl := Option.some.inj taken
    exact .timeOut b n phase
  case h_6 b n phase =>
    obtain ⟨e, here, rfl⟩ := Option.map_eq_some_iff.mp taken
    exact .giveUp b n e phase here
  case h_7 b sent removes phase =>
    obtain rfl := Option.some.inj taken
    exact .drain b sent removes phase
  case h_8 b n phase =>
    obtain rfl := Option.some.inj taken
    exact .loop b n phase
  case h_9 => cases taken

def Known (s : System) (path : String) : Prop :=
  path ∈ (s.spool ++ s.deleted).map File.path

theorem step_cases {s t : System} {l : Label} (taken : step s l = some t) :
    (∃ file, l = .addFile file ∧ ¬ Known s file.path ∧
        t = { s with spool := s.spool ++ [file], found := s.found + 1 }) ∨
      (∃ config maxFiles maxBytes, l = .start config maxFiles maxBytes ∧ s.phase = .idle ∧
        t = if config then s.startExport maxFiles maxBytes else s) ∨
      (∃ n e, s.exports n = some e ∧ Replies s n e t) ∨ ∃ u, Moves s l u ∧ t = u.moved := by
  unfold step at taken
  split at taken
  case h_1 file =>
    obtain ⟨new, taken⟩ := Option.ite_none_left_eq_some.mp taken
    exact .inl ⟨file, rfl, new, (Option.some.inj taken).symm⟩
  case h_2 config maxFiles maxBytes =>
    obtain ⟨idle, taken⟩ := Option.ite_none_right_eq_some.mp taken
    exact .inr (.inl ⟨config, maxFiles, maxBytes, rfl, idle, (Option.some.inj taken).symm⟩)
  case h_3 =>
    split at taken
    · next n _ =>
      obtain ⟨e, here, taken⟩ := Option.bind_eq_some_iff.mp taken
      exact .inr (.inr (.inl ⟨n, e, here, replies_of_step taken⟩))
    · obtain ⟨u, moved, rfl⟩ := Option.map_eq_some_iff.mp taken
      exact .inr (.inr (.inr ⟨u, moves_of_move moved, rfl⟩))

theorem exports_update {exports : Nat → Option Export} {n m : Nat} {e e' : Export}
    (there : Function.update exports n (some e') m = some e) :
    (m = n ∧ e = e') ∨ (m ≠ n ∧ exports m = some e) := by
  rw [Function.update_apply] at there
  by_cases same : m = n
  · rw [if_pos same, Option.some.injEq] at there
    exact .inl ⟨same, there.symm⟩
  · rw [if_neg same] at there
    exact .inr ⟨same, there⟩

theorem update_true {g : String → Bool} {p q : String} {v : Bool}
    (holds : Function.update g p v q = true) : (q = p ∧ v = true) ∨ g q = true := by
  rw [Function.update_apply] at holds
  by_cases same : q = p
  · rw [if_pos same] at holds
    exact .inl ⟨same, holds⟩
  · rw [if_neg same] at holds
    exact .inr holds

/-! ### Files that are accounted for -/

structure Formed (e : Export) : Prop where
  acks : ∀ path ∈ e.unacknowledged, path ∈ e.files ∧ e.executed = some true
  stored : e.stored = true → e.executed ≠ none
  completed : e.completed = true → e.stored = true ∧ e.unacknowledged = []

structure Advances (e e' : Export) : Prop where
  formed : Formed e'
  files : e'.files = e.files
  answer : ∀ success, e.executed = some success → e'.executed = some success

def Phase.collects : Phase → Option Batch
  | .filling b => some b
  | .filled b => some b
  | _ => none

/-- What holds whatever the order of the steps. -/
structure Base (s : System) : Prop where
  formed : ∀ n e, s.exports n = some e → Formed e
  unused : ∀ n, s.batches ≤ n → s.exports n = none
  names : ∀ f ∈ s.spool, ∀ g ∈ s.spool, f.path = g.path → f = g
  tracked : ∀ path, s.fileState path ≠ none → Known s path
  files : ∀ n e, s.exports n = some e → ∀ path ∈ e.files, Known s path
  opened : ∀ b, s.phase.collects = some b → ∀ path ∈ b.pathsToHandles, Known s path
  acked : ∀ f ∈ s.spool, s.fileState f.path = some true → Accounted s f
  deleted : ∀ f ∈ s.deleted, Accounted s f
  outstanding : ∀ path, s.outstanding path = true → s.unackedMessages path = true
  once : s.twice = false

theorem base_start : Base .start := by
  constructor <;> simp [System.start, Phase.collects]

theorem Formed.untouched {e : Export} (h : Formed e) (waits : e.executed = none) :
    e.unacknowledged = [] := by
  rw [List.eq_nil_iff_forall_not_mem]
  intro path member
  have answered := (h.acks path member).2
  rw [waits] at answered
  cases answered

theorem Accounted.later {s t : System} {f : File} (h : Accounted s f)
    (unreadable : s.unreadable f.path = true → t.unreadable f.path = true)
    (exported : Exported s f.path → Exported t f.path) : Accounted t f := by
  intro regular supported
  exact (h regular supported).imp unreadable exported

theorem exported_update {s : System} {n : Nat} {e' : Export} {path : String}
    (adv : ∀ e, s.exports n = some e → Advances e e') (h : Exported s path) :
    ∃ m d, Function.update s.exports n (some e') m = some d ∧ d.executed = some true ∧
      path ∈ d.files := by
  obtain ⟨m, d, there, answered, member⟩ := h
  by_cases same : m = n
  · subst m
    have adv := adv d there
    exact ⟨n, e', Function.update_self .., adv.answer true answered, adv.files ▸ member⟩
  · exact ⟨m, d, (Function.update_of_ne same ..).trans there, answered, member⟩

theorem Base.advance {s : System} {n : Nat} {e e' : Export} (h : Base s)
    (here : s.exports n = some e) (adv : Advances e e') :
    Base { s with exports := Function.update s.exports n (some e') } where
  formed m d there := by
    obtain ⟨-, rfl⟩ | ⟨-, there⟩ := exports_update there
    · exact adv.formed
    · exact h.formed m d there
  unused m unused := by
    have other : m ≠ n := by
      rintro rfl
      rw [h.unused m unused] at here
      cases here
    exact (Function.update_of_ne other ..).trans (h.unused m unused)
  names := h.names
  tracked := h.tracked
  files m d there path member := by
    obtain ⟨-, rfl⟩ | ⟨-, there⟩ := exports_update there
    · exact h.files n e here path (adv.files ▸ member)
    · exact h.files m d there path member
  opened := h.opened
  acked f member acked :=
    (h.acked f member acked).later id (exported_update fun d there => by
      obtain rfl := Option.some.inj (here.symm.trans there)
      exact adv)
  deleted f member :=
    (h.deleted f member).later id (exported_update fun d there => by
      obtain rfl := Option.some.inj (here.symm.trans there)
      exact adv)
  outstanding := h.outstanding
  once := h.once

theorem Base.ackCompleted {s : System} {path : String} (h : Base s) (known : Known s path)
    (accounted : ∀ f ∈ s.spool, f.path = path → Accounted s f) :
    Base (s.ackCompleted path) where
  formed := h.formed
  unused := h.unused
  names := h.names
  tracked q tracked := by
    by_cases same : q = path
    · exact same ▸ known
    · exact h.tracked q (by simpa [System.ackCompleted, same] using tracked)
  files := h.files
  opened := h.opened
  acked f member acked := by
    by_cases same : f.path = path
    · exact accounted f member same
    · exact h.acked f member (by simpa [System.ackCompleted, same] using acked)
  deleted := h.deleted
  outstanding := h.outstanding
  once := h.once

theorem Base.track {s : System} {path : String} (h : Base s) (known : Known s path) :
    Base (s.track path) where
  formed := h.formed
  unused := h.unused
  names := h.names
  tracked q tracked := by
    by_cases same : q = path
    · exact same ▸ known
    · exact h.tracked q (by simpa [System.track, same] using tracked)
  files := h.files
  opened := h.opened
  acked f member acked := by
    refine h.acked f member ?_
    by_cases same : f.path = path
    · cases before : s.fileState path with
      | none => simp [System.track, same, before] at acked
      | some v => simpa [System.track, same, before] using acked
    · simpa [System.track, same] using acked
  deleted := h.deleted
  outstanding := h.outstanding
  once := h.once

theorem Base.flags {s : System} (h : Base s) (flags : Nat → Bool) :
    Base { s with replyBlockSuccess := flags } :=
  ⟨h.formed, h.unused, h.names, h.tracked, h.files, h.opened, h.acked, h.deleted, h.outstanding,
    h.once⟩

theorem Base.moved {s : System} (h : Base s) : Base s.moved :=
  ⟨h.formed, h.unused, h.names, h.tracked, h.files, h.opened, h.acked, h.deleted, h.outstanding,
    h.once⟩

theorem Base.goto {s : System} (h : Base s) (phase : Phase)
    (opened : ∀ b, phase.collects = some b → ∀ path ∈ b.pathsToHandles, Known s path) :
    Base { s with phase := phase } :=
  ⟨h.formed, h.unused, h.names, h.tracked, h.files, opened, h.acked, h.deleted, h.outstanding,
    h.once⟩

/-! The steps of the reply block. -/

theorem advances_starts {e : Export} (h : Formed e) (waits : e.executed = none) (success : Bool) :
    Advances e (e.executes success) where
  formed := {
    acks := by
      intro path member
      cases success with
      | false => exact absurd member List.not_mem_nil
      | true => exact ⟨member, rfl⟩
    stored := fun _ => Option.some_ne_none success
    completed := by
      intro completed
      exact absurd waits (h.stored (h.completed completed).1) }
  files := rfl
  answer := by simp [waits]

theorem advances_stores {e : Export} {success : Bool} (h : Formed e)
    (answered : e.executed = some success) : Advances e { e with stored := true } where
  formed := {
    acks := h.acks
    stored := by simp [answered]
    completed := fun completed => ⟨rfl, (h.completed completed).2⟩ }
  files := rfl
  answer := fun _ => id

theorem advances_acks {e : Export} (h : Formed e) (path : String) :
    Advances e { e with unacknowledged := e.unacknowledged.erase path } where
  formed := {
    acks := fun q member => h.acks q (List.mem_of_mem_erase member)
    stored := h.stored
    completed := by
      intro completed
      obtain ⟨stored, none⟩ := h.completed completed
      exact ⟨stored, by simp [none]⟩ }
  files := rfl
  answer := fun _ => id

theorem advances_signals {e : Export} (h : Formed e) (stored : e.stored = true)
    (none : e.unacknowledged = []) : Advances e { e with completed := true } where
  formed := ⟨h.acks, h.stored, fun _ => ⟨stored, none⟩⟩
  files := rfl
  answer := fun _ => id

theorem advances_gives_up {e : Export} (h : Formed e) (waits : e.executed = none) :
    Advances e e.failed where
  formed := {
    acks := by simp [Export.failed, h.untouched waits]
    stored := fun _ => Option.some_ne_none false
    completed := fun _ => ⟨rfl, h.untouched waits⟩ }
  files := rfl
  answer := by simp [waits]

theorem Base.replyAcks {s : System} {n : Nat} {e : Export} {path : String} (h : Base s)
    (here : s.exports n = some e) (member : path ∈ e.unacknowledged) :
    Base (s.replyAcks n e path) := by
  obtain ⟨sent, answered⟩ := (h.formed n e here).acks path member
  have acked : Base (s.ackCompleted path) := by
    refine h.ackCompleted (h.files n e here path sent) ?_
    rintro f - rfl - -
    exact .inr ⟨n, e, here, answered, sent⟩
  exact acked.advance here (advances_acks (h.formed n e here) path)

theorem base_reply {s t : System} {n : Nat} {e : Export} (h : Base s)
    (here : s.exports n = some e) (taken : Replies s n e t) : Base t := by
  have formed := h.formed n e here
  cases taken with
  | starts success =>
    unfold System.replyStarts
    by_cases waits : e.executed = none
    · rw [if_pos waits]
      exact h.advance here (advances_starts formed waits success)
    · rw [if_neg waits]
      exact h
  | stores success answered =>
    exact (h.advance here (advances_stores formed answered)).flags _
  | acks path member => exact h.replyAcks here member
  | signals stored none => exact h.advance here (advances_signals formed stored none)

theorem Base.callsReplyBlock {s : System} {n : Nat} {e : Export} (h : Base s)
    (here : s.exports n = some e) : Base (s.callsReplyBlock n e) := by
  unfold System.callsReplyBlock
  by_cases waits : e.executed = none
  · rw [if_pos waits]
    exact (h.advance here (advances_gives_up (h.formed n e here) waits)).flags _
  · rw [if_neg waits]
    exact h

/-! The steps of the loop. -/

theorem Known.of_spool {s : System} {f : File} (member : f ∈ s.spool) : Known s f.path :=
  List.mem_map_of_mem (List.mem_append_left _ member)

theorem unsupported_of_refused {f : File} {a : Answers} (refused : accepts f a = false)
    (readable : a.readable = true) :
    f.regular = false ∨ getLogType true f.contents = .unknown := by
  simp only [Answers.readable, Bool.and_eq_true] at readable
  obtain ⟨⟨opens, fstat⟩, reads⟩ := readable
  simpa [accepts, opens, fstat, reads, or_iff_not_imp_left] using refused

theorem Base.nextFileToExport {s : System} {path : String} (h : Base s)
    (free : s.unackedMessages path = false) : Base (s.nextFileToExport path) where
  formed := h.formed
  unused := h.unused
  names := h.names
  tracked := h.tracked
  files := h.files
  opened := h.opened
  acked := h.acked
  deleted := h.deleted
  outstanding q outstanding := by
    obtain ⟨rfl, -⟩ | outstanding := update_true outstanding
    · exact Function.update_self ..
    · by_cases same : q = path
      · exact same ▸ Function.update_self ..
      · exact (Function.update_of_ne same ..).trans (h.outstanding q outstanding)
  once := by
    have back : s.outstanding path = false := by
      by_contra outstanding
      rw [Bool.not_eq_false] at outstanding
      rw [h.outstanding path outstanding] at free
      cases free
    simp [System.nextFileToExport, h.once, back]

theorem openFile_refused {s : System} {b : Batch} {file : File} {a : Answers}
    (refused : accepts file a = false) :
    s.openFile b file a =
      { (s.nextFileToExport file.path).ackCompleted file.path with
        unreadable :=
          Function.update s.unreadable file.path (s.unreadable file.path || !a.readable) } :=
  if_pos refused

theorem openFile_accepted {s : System} {b : Batch} {file : File} {a : Answers}
    (accepted : accepts file a = true) :
    ∃ phase, s.openFile b file a =
        { (s.nextFileToExport file.path).track file.path with phase := phase } ∧
      (phase = .filling (b.add file (getLogType a.reads file.contents)) ∨
        phase = .filled { b.add file (getLogType a.reads file.contents) with
          processAnotherBatch := true }) := by
  have taken : ¬ accepts file a = false := by simp [accepted]
  simp only [System.openFile, if_neg taken]
  by_cases full : (s.nextFileToExport file.path).isFull
      (b.add file (getLogType a.reads file.contents)) = true
  · exact ⟨_, if_pos full, .inr rfl⟩
  · exact ⟨_, if_neg full, .inl rfl⟩

theorem mem_add {b : Batch} {file : File} {logType : ExportLogType} {path : String}
    (member : path ∈ (b.add file logType).pathsToHandles) :
    path = file.path ∨ path ∈ b.pathsToHandles := by
  unfold Batch.add at member
  split at member
  · exact List.mem_insert_iff.mp member
  · exact .inr member

theorem Base.readFailed {s : System} (h : Base s) (path : String) (failed : Bool) :
    Base { s with
      unreadable := Function.update s.unreadable path (s.unreadable path || failed) } := by
  have later : ∀ q, s.unreadable q = true →
      Function.update s.unreadable path (s.unreadable path || failed) q = true := by
    intro q unreadable
    by_cases same : q = path
    · subst q
      simp [unreadable]
    · exact (Function.update_of_ne same ..).trans unreadable
  exact ⟨h.formed, h.unused, h.names, h.tracked, h.files, h.opened,
    fun f member acked => (h.acked f member acked).later (later f.path) id,
    fun f member => (h.deleted f member).later (later f.path) id, h.outstanding, h.once⟩

theorem Base.openFile {s : System} {b : Batch} {file : File} {a : Answers} (h : Base s)
    (phase : s.phase = .filling b) (member : file ∈ s.spool)
    (free : s.unackedMessages file.path = false) : Base (s.openFile b file a) := by
  have handed := h.nextFileToExport free
  have known : Known s file.path := .of_spool member
  cases accepted : accepts file a with
  | false =>
    rw [openFile_refused accepted]
    refine (handed.readFailed file.path (!a.readable)).ackCompleted known ?_
    intro f there same regular supported
    obtain rfl := h.names f there file member same
    left
    cases readable : a.readable with
    | false => simp
    | true =>
      obtain irregular | unsupported := unsupported_of_refused accepted readable
      · rw [irregular] at regular
        cases regular
      · exact absurd unsupported supported
  | true =>
    obtain ⟨next, eq, places⟩ := openFile_accepted (s := s) (b := b) accepted
    rw [eq]
    refine (handed.track known).goto next ?_
    intro b' collects path there
    have added : path ∈ (b.add file (getLogType a.reads file.contents)).pathsToHandles := by
      obtain rfl | rfl := places <;> obtain rfl := Option.some.inj collects <;> exact there
    obtain rfl | before := mem_add added
    · exact known
    · exact h.opened b (by rw [phase, Phase.collects]) path before

theorem Base.exportFiles {s t : System} {b : Batch} (h : Base s) (phase : s.phase = .filled b)
    (taken : s.exportFiles b = some t) : Base t := by
  unfold System.exportFiles at taken
  by_cases none : b.pathsToHandles = []
  · rw [if_pos none] at taken
    obtain rfl := Option.some.inj taken
    exact h.goto _ (by simp [Phase.collects])
  rw [if_neg none, Option.map_eq_some_iff] at taken
  obtain ⟨⟨contentType, fileExtension⟩, -, rfl⟩ := taken
  have opened := h.opened b (by rw [phase, Phase.collects])
  have unused := h.unused s.batches (Nat.le_refl _)
  have fresh : ∀ e e', s.exports s.batches = some e → Advances e e' := by
    intro e e' there
    rw [unused] at there
    cases there
  refine ⟨?_, ?_, h.names, h.tracked, ?_, by simp [Phase.collects], ?_, ?_, h.outstanding,
    h.once⟩
  · intro n e there
    obtain ⟨-, rfl⟩ | ⟨-, there⟩ := exports_update there
    · exact ⟨by simp, by simp, by simp⟩
    · exact h.formed n e there
  · intro n unused
    have unused : s.batches + 1 ≤ n := unused
    exact (Function.update_of_ne (by omega) ..).trans (h.unused n (by omega))
  · intro n e there
    obtain ⟨-, rfl⟩ | ⟨-, there⟩ := exports_update there
    · exact opened
    · exact h.files n e there
  · intro f member acked
    exact (h.acked f member acked).later id (exported_update fun e => fresh e _)
  · exact fun f member => (h.deleted f member).later id (exported_update fun e => fresh e _)

theorem known_filesExported {s : System} {removes : String → Bool} {path : String}
    (known : Known s path) : Known (s.filesExported removes) path := by
  obtain ⟨f, member, rfl⟩ := List.mem_map.mp known
  refine List.mem_map.mpr ⟨f, ?_, rfl⟩
  simp only [System.filesExported, List.mem_append, List.mem_filter]
  obtain there | gone := List.mem_append.mp member
  · by_cases removed : (decide (s.fileState f.path = some true) && removes f.path) = true
    · exact .inr (.inr ⟨there, removed⟩)
    · exact .inl ⟨there, by rw [eq_false_of_ne_true removed, Bool.not_false]⟩
  · exact .inr (.inl gone)

theorem Base.filesExported {s : System} (h : Base s) (removes : String → Bool) :
    Base (s.filesExported removes) where
  formed := h.formed
  unused := h.unused
  names f there g there' same :=
    h.names f (List.mem_of_mem_filter there) g (List.mem_of_mem_filter there') same
  tracked path tracked := absurd rfl tracked
  files n e there path member := known_filesExported (h.files n e there path member)
  opened b collects path member := known_filesExported (h.opened b collects path member)
  acked f member acked := by
    have empty : (none : Option Bool) = some true := acked
    cases empty
  deleted f member := by
    obtain before | gone := List.mem_append.mp member
    · exact h.deleted f before
    · obtain ⟨there, removed⟩ := List.mem_filter.mp gone
      exact h.acked f there (of_decide_eq_true (Bool.and_eq_true_iff.mp removed).1)
  outstanding path outstanding := by
    simp only [System.filesExported] at outstanding ⊢
    split at outstanding
    · cases outstanding
    · next kept =>
      rw [if_neg kept]
      exact h.outstanding path outstanding
  once := h.once

theorem Base.drain {s : System} {b : Batch} {sent : Option Nat} (h : Base s)
    (removes : String → Bool) : Base (s.drain b sent removes) := by
  have h := h.filesExported removes
  have opened : ∀ b', (Phase.afterDrain b sent).collects = some b' →
      ∀ path ∈ b'.pathsToHandles, Known (s.filesExported removes) path := by
    cases sent <;> simp [Phase.afterDrain, Phase.collects]
  exact ⟨h.formed, h.unused, h.names, h.tracked, h.files, opened, h.acked, h.deleted,
    h.outstanding, h.once⟩

theorem collects_empty {s : System} :
    ∀ b, Phase.collects (.filling .empty) = some b → ∀ path ∈ b.pathsToHandles, Known s path := by
  rintro b collects path member
  obtain rfl := Option.some.inj collects
  exact absurd member List.not_mem_nil

theorem Base.loop {s : System} {b : Batch} (h : Base s) : Base (s.loop b) := by
  unfold System.loop
  split
  · exact ⟨h.formed, h.unused, h.names, h.tracked, h.files, collects_empty, h.acked, h.deleted,
      h.outstanding, h.once⟩
  · exact h.goto _ (by simp [Phase.collects])

theorem base_move {s t : System} {l : Label} (h : Base s) (taken : Moves s l t) : Base t := by
  cases taken with
  | nextFile b file a phase member free => exact h.openFile phase member free
  | noFile b iterates phase =>
    refine h.goto _ ?_
    intro b' collects
    exact h.opened b' (by rw [phase]; exact collects)
  | exportFiles b phase t taken => exact h.exportFiles phase taken
  | completed b n e phase here => exact h.goto _ (by simp [Phase.collects])
  | timeOut b n phase => exact h.goto _ (by simp [Phase.collects])
  | giveUp b n e phase here => exact (h.callsReplyBlock here).goto _ (by simp [Phase.collects])
  | drain b sent removes phase => exact h.drain removes
  | loop b n phase => exact h.loop

theorem Known.addFile {s : System} {file : File} {path : String} (h : Known s path) :
    Known { s with spool := s.spool ++ [file], found := s.found + 1 } path := by
  simp only [Known, List.map_append, List.mem_append] at h ⊢
  exact h.imp .inl id

theorem Base.addFile {s : System} {file : File} (h : Base s) (new : ¬ Known s file.path) :
    Base { s with spool := s.spool ++ [file], found := s.found + 1 } where
  formed := h.formed
  unused := h.unused
  names := by
    have other : ∀ f ∈ s.spool, f.path ≠ file.path :=
      fun f there same => new (same ▸ .of_spool there)
    intro f there g there' same
    simp only [List.mem_append, List.mem_singleton] at there there'
    obtain there | rfl := there <;> obtain there' | rfl := there'
    · exact h.names f there g there' same
    · exact absurd same (other f there)
    · exact absurd same.symm (other g there')
    · rfl
  tracked path tracked := (h.tracked path tracked).addFile
  files n e there path member := (h.files n e there path member).addFile
  opened b collects path member := (h.opened b collects path member).addFile
  acked f member acked := by
    obtain there | there := List.mem_append.mp member
    · exact h.acked f there acked
    · obtain rfl := List.mem_singleton.mp there
      have acked : s.fileState f.path = some true := acked
      exact absurd (h.tracked f.path (acked ▸ Option.some_ne_none true)) new
  deleted := h.deleted
  outstanding := h.outstanding
  once := h.once

theorem Base.startExport {s : System} (h : Base s) (maxFiles maxBytes : Nat) :
    Base (s.startExport maxFiles maxBytes) :=
  ⟨h.formed, h.unused, h.names, h.tracked, h.files, collects_empty, h.acked, h.deleted,
    h.outstanding, h.once⟩

theorem base_step {s : System} {l : Label} {t : System} (h : Base s) (taken : step s l = some t) :
    Base t := by
  obtain ⟨file, -, new, rfl⟩ | ⟨config, maxFiles, maxBytes, -, -, rfl⟩ | ⟨n, e, here, taken⟩ |
    ⟨u, moved, rfl⟩ := step_cases taken
  · exact h.addFile new
  · split
    · exact h.startExport maxFiles maxBytes
    · exact h
  · exact base_reply h here taken
  · exact (base_move h moved).moved

/-- In every run, racing or not, what is deleted has been exported, and a file is not handed out
    twice without an acknowledgement in between. -/
theorem deleted_exported (ls : List Label) :
    Runs.Always step (fun s => (∀ f ∈ s.deleted, Accounted s f) ∧ s.twice = false) .start ls :=
  Runs.always_mono (fun _ h => ⟨h.deleted, h.once⟩)
    (Runs.always_of_keep Base (fun _ _ _ => base_step) base_start ls)

end SantaTelemetryExport
