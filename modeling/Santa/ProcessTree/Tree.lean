import Mathlib.Data.Nat.Basic
import Santa.Library.RecentWindow

/-!
The process tree of santad: a map from pid and pidversion to shared process
objects, fed with fork, exec and exit events that several clients may deliver
repeatedly and out of order. Objects live at addresses, so that two holders of
one pointer see the same reference count. `none` as a result is undefined
behaviour: a null object dereferenced, or the timestamp array left.
Timestamps and pids are only compared, so unbounded Nat and Int stand for them.
-/
namespace SantaProcessTree

structure Pid where
  pid : Int
  pidversion : Nat
  deriving DecidableEq, Repr

structure Cred where
  uid : Nat
  gid : Nat
  deriving DecidableEq, Repr

structure Program where
  executable : String
  arguments : List String
  deriving DecidableEq, Repr

inductive Originator where
  | unspecified
  | login
  | cron
  deriving DecidableEq, Repr

structure OriginatorAnnotator where
  originator : Originator
  deriving DecidableEq, Repr

/-- Address of a heap object; a null pointer is `none : Option ProcessRef`. -/
abbrev ProcessRef := Nat

/- `annotations` is keyed by the annotator's class, and there is one class. -/
structure Process where
  pid : Pid
  effectiveCred : Cred
  program : Program
  annotations : Option OriginatorAnnotator
  parent : Option ProcessRef
  refcnt : Int
  tombstoned : Bool
  deriving DecidableEq, Repr

def Process.new (pid : Pid) (cred : Cred) (program : Program) (parent : Option ProcessRef) :
    Process :=
  ⟨pid, cred, program, none, parent, 0, false⟩

structure SeenTimestamps where
  entries : List Nat
  size : entries.length = 32
  deriving DecidableEq, Repr

def SeenTimestamps.zero : SeenTimestamps := ⟨List.replicate 32 0, rfl⟩

def SeenTimestamps.front (s : SeenTimestamps) : Nat := s.entries.headD 0
def SeenTimestamps.back (s : SeenTimestamps) : Nat := s.entries.getLastD 0

/-- Without an entry below the timestamp the reverse search ends at rend(), and
    the move and the write that follow leave the array. -/
def SeenTimestamps.insert (s : SeenTimestamps) (timestamp : Nat) : Option SeenTimestamps :=
  match h : RecentWindow.lastBelow s.entries timestamp with
  | none => none
  | some i => some ⟨RecentWindow.slide s.entries i timestamp, by
      rw [RecentWindow.slide_length (RecentWindow.lastBelow_some h).1, s.size]⟩

structure ProcessTree where
  annotators : List OriginatorAnnotator
  objects : ProcessRef → Process
  nextObject : ProcessRef
  map : Pid → Option (Option ProcessRef)
  removeAt : List (Nat × Pid)
  seenTimestamps : SeenTimestamps

def nullProcess : Process := .new ⟨0, 0⟩ ⟨0, 0⟩ ⟨"", []⟩ none

def ProcessTree.new (annotators : List OriginatorAnnotator) : ProcessTree :=
  ⟨annotators, fun _ => nullProcess, 0, fun _ => none, [], SeenTimestamps.zero⟩

namespace ProcessTree

def getLocked (t : ProcessTree) (target : Pid) : Option (Option ProcessRef) := t.map target

def get (t : ProcessTree) (target : Pid) : Option (Option ProcessRef) := t.getLocked target

def setEntry (t : ProcessTree) (p : Pid) (value : Option (Option ProcessRef)) : ProcessTree :=
  { t with map := fun q => if q = p then value else t.map q }

def erase (t : ProcessTree) (p : Pid) : ProcessTree := t.setEntry p none

/-- `map_.emplace` keeps an entry that is there. -/
def emplace (t : ProcessTree) (p : Pid) (r : ProcessRef) : ProcessTree :=
  match t.map p with
  | some _ => t
  | none => t.setEntry p (some (some r))

/-- `map_[p]` inserts a null pointer for a missing key. -/
def subscript (t : ProcessTree) (p : Pid) : ProcessTree × Option ProcessRef :=
  match t.map p with
  | some r => (t, r)
  | none => (t.setEntry p (some none), none)

def makeShared (t : ProcessTree) (p : Process) : ProcessTree × ProcessRef :=
  ({ t with
      objects := fun r => if r = t.nextObject then p else t.objects r
      nextObject := t.nextObject + 1 }, t.nextObject)

def update (t : ProcessTree) (r : ProcessRef) (f : Process → Process) : ProcessTree :=
  { t with objects := fun q => if q = r then f (t.objects q) else t.objects q }

/-- What Step does with an element of remove_at_ that fell out of the window. -/
def removeOrTombstone (t : ProcessTree) (p : Pid) : Option ProcessTree :=
  match t.getLocked p with
  | none => some (t.erase p)
  | some none => none
  | some (some r) =>
      if 0 < (t.objects r).refcnt then
        some (t.update r fun process => { process with tombstoned := true })
      else some (t.erase p)

def sweep (t : ProcessTree) (cutoff : Nat) : List (Nat × Pid) → Option ProcessTree
  | [] => some { t with removeAt := [] }
  | entry :: rest =>
      if entry.1 < cutoff then
        (t.removeOrTombstone entry.2).bind fun t => t.sweep cutoff rest
      else
        (t.sweep cutoff rest).map fun t => { t with removeAt := entry :: t.removeAt }

/-- Whether the timestamp is novel, and the tree after noting it. The array is
    searched only for a timestamp below its newest entry. -/
def step (t : ProcessTree) (timestamp : Nat) : Option (Bool × ProcessTree) :=
  let newCutoff := t.seenTimestamps.front
  if timestamp < newCutoff then some (false, t)
  else if timestamp < t.seenTimestamps.back ∧ timestamp ∈ t.seenTimestamps.entries then
    some (false, t)
  else
    (t.seenTimestamps.insert timestamp).bind fun seen =>
      ({ t with seenTimestamps := seen }.sweep newCutoff t.removeAt).map fun t => (true, t)

def annotateProcess (t : ProcessTree) (p : ProcessRef) (a : OriginatorAnnotator) :
    Option ProcessTree :=
  let (t, entry) := t.subscript (t.objects p).pid
  entry.map fun r => t.update r fun process =>
    { process with annotations := process.annotations.or (some a) }

def annotateFork (t : ProcessTree) (parent child : ProcessRef) : Option ProcessTree :=
  match (t.objects parent).annotations with
  | some annotation => t.annotateProcess child annotation
  | none => some t

def originatorPrograms (executable : String) : Option Originator :=
  if executable = "/usr/bin/login" then some .login
  else if executable = "/usr/sbin/cron" then some .cron
  else none

def annotateExec (t : ProcessTree) (original new : ProcessRef) : Option ProcessTree :=
  match (t.objects original).annotations with
  | some annotation => t.annotateProcess new annotation
  | none =>
      match originatorPrograms (t.objects new).program.executable with
      | some originator => t.annotateProcess new ⟨originator⟩
      | none => some t

/-- BackfillInsertChildren for one process; its recursion is the order of the calls. -/
def backfillInsert (t : ProcessTree) (parent : Option ProcessRef) (unlinked : Process) :
    Option ProcessTree :=
  let (t, proc) := t.makeShared (.new unlinked.pid unlinked.effectiveCred unlinked.program parent)
  let t := t.emplace unlinked.pid proc
  match parent with
  | none => some t
  | some parent =>
      t.annotators.foldlM (fun t _ =>
        (t.annotateFork parent proc).bind fun t =>
          if unlinked.program ≠ (t.objects parent).program then t.annotateExec parent proc
          else some t) t

def forkLocked (t : ProcessTree) (parent : ProcessRef) (newPid : Pid) :
    ProcessTree × ProcessRef :=
  let p := t.objects parent
  let (t, parentEntry) := t.subscript p.pid
  let (t, child) := t.makeShared (.new newPid p.effectiveCred p.program parentEntry)
  (t.emplace newPid child, child)

def execLocked (t : ProcessTree) (timestamp : Nat) (p : ProcessRef) (newPid : Pid)
    (program : Program) (cred : Cred) : ProcessTree × ProcessRef :=
  let process := t.objects p
  let (t, new) := t.makeShared (.new newPid cred program process.parent)
  let t := { t with removeAt := t.removeAt ++ [(timestamp, process.pid)] }
  (t.emplace newPid new, new)

def exitLocked (t : ProcessTree) (timestamp : Nat) (p : ProcessRef) : ProcessTree :=
  { t with removeAt := t.removeAt ++ [(timestamp, (t.objects p).pid)] }

def handleFork (t : ProcessTree) (timestamp : Nat) (parent : ProcessRef) (newPid : Pid) :
    Option ProcessTree :=
  (t.step timestamp).bind fun (novel, t) =>
    if novel then
      let (t, child) := t.forkLocked parent newPid
      t.annotators.foldlM (fun t _ => t.annotateFork parent child) t
    else some t

def handleExec (t : ProcessTree) (timestamp : Nat) (p : ProcessRef) (newPid : Pid)
    (program : Program) (cred : Cred) : Option ProcessTree :=
  (t.step timestamp).bind fun (novel, t) =>
    if novel then
      let (t, new) := t.execLocked timestamp p newPid program cred
      t.annotators.foldlM (fun t _ => t.annotateExec p new) t
    else some t

def handleExit (t : ProcessTree) (timestamp : Nat) (p : ProcessRef) : Option ProcessTree :=
  (t.step timestamp).map fun (novel, t) => if novel then t.exitLocked timestamp p else t

def retainOne (t : ProcessTree) (p : Pid) : Option ProcessTree :=
  match t.getLocked p with
  | none => some t
  | some none => none
  | some (some r) => some (t.update r fun process => { process with refcnt := process.refcnt + 1 })

def retainProcess (t : ProcessTree) (pids : List Pid) : Option ProcessTree :=
  pids.foldlM retainOne t

def releaseOne (t : ProcessTree) (p : Pid) : Option ProcessTree :=
  match t.getLocked p with
  | none => some t
  | some none => none
  | some (some r) =>
      let t := t.update r fun process => { process with refcnt := process.refcnt - 1 }
      if (t.objects r).refcnt = 0 ∧ (t.objects r).tombstoned then some (t.erase p) else some t

def releaseProcess (t : ProcessTree) (pids : List Pid) : Option ProcessTree :=
  pids.foldlM releaseOne t

end ProcessTree
end SantaProcessTree
