import Santa.Auth.ExecutionController

/-!
File access events and the paths they touch. A target whose path the kernel
truncated is left out. Only the file that an open, a clone or a copy reads from
is a readable target, and a target that is a name in a directory has no file.
-/
namespace SantaPathTargets
open SantaAuthCache (SantaVnode)
open SantaExec (ProcessId)

structure EsFile where
  path : String
  pathTruncated : Bool
  stDev : Nat
  stIno : Nat
  deriving DecidableEq, Repr

def EsFile.vnode (file : EsFile) : SantaVnode := ⟨file.stDev, file.stIno⟩

/-- The team ID and the signing ID are null where the process has none. -/
structure EsProcess where
  pidAndVersion : ProcessId
  codesigningFlags : BitVec 32
  isPlatformBinary : Bool
  teamId : Option String
  signingId : Option String
  cdhash : List UInt8
  executable : EsFile
  deriving DecidableEq, Repr

inductive Destination where
  | existingFile (file : EsFile)
  | newPath (dir : EsFile) (filename : String)
  deriving DecidableEq, Repr

inductive Event where
  | authClone (source targetDir : EsFile) (targetName : String)
  | authCopyfile (source : EsFile) (targetFile : Option EsFile) (targetDir : EsFile)
      (targetName : String)
  | authCreate (destination : Destination)
  | authExchangedata (file1 file2 : EsFile)
  | authLink (source targetDir : EsFile) (targetFilename : String)
  | authOpen (file : EsFile) (fflag : BitVec 32)
  | authRename (source : EsFile) (destination : Destination)
  | authTruncate (target : EsFile)
  | authUnlink (target : EsFile)
  | notifyExit
  deriving DecidableEq, Repr

def Event.isAuth : Event → Bool
  | .notifyExit => false
  | _ => true

structure FileMessage where
  process : EsProcess
  event : Event
  deriving DecidableEq, Repr

structure PathTarget where
  path : String
  isReadable : Bool
  unsafeFile : Option EsFile
  deriving DecidableEq, Repr

def fileIfNotTruncated (esFile : EsFile) (isReadable : Bool) : List PathTarget :=
  if esFile.pathTruncated then [] else [⟨esFile.path, isReadable, some esFile⟩]

def nameIfNotTruncated (dir : EsFile) (name : String) : List PathTarget :=
  if dir.pathTruncated then [] else [⟨dir.path ++ "/" ++ name, false, none⟩]

/-- A file that is created should be at a new path; another destination is ignored. -/
def pathTargets : Event → List PathTarget
  | .authClone source targetDir targetName =>
      fileIfNotTruncated source true ++ nameIfNotTruncated targetDir targetName
  | .authCreate (.newPath dir filename) => nameIfNotTruncated dir filename
  | .authCreate (.existingFile _) => []
  | .authCopyfile source (some targetFile) _ _ =>
      fileIfNotTruncated source true ++ fileIfNotTruncated targetFile false
  | .authCopyfile source none targetDir targetName =>
      fileIfNotTruncated source true ++ nameIfNotTruncated targetDir targetName
  | .authExchangedata file1 file2 =>
      fileIfNotTruncated file1 false ++ fileIfNotTruncated file2 false
  | .authLink source targetDir targetFilename =>
      fileIfNotTruncated source false ++ nameIfNotTruncated targetDir targetFilename
  | .authOpen file _ => fileIfNotTruncated file true
  | .authRename source (.existingFile file) =>
      fileIfNotTruncated source false ++ fileIfNotTruncated file false
  | .authRename source (.newPath dir filename) =>
      fileIfNotTruncated source false ++ nameIfNotTruncated dir filename
  | .authTruncate target => fileIfNotTruncated target false
  | .authUnlink target => fileIfNotTruncated target false
  | .notifyExit => []

end SantaPathTargets
