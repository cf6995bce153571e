import Santa.FileAccess.WatchItems
import Santa.FileAccess.PathTargets

/-!
Tamper resistance. Files of Santa are protected by their paths, some by the path itself and
some by its beginning. A rename is checked for the file that it moves and for a file that it
replaces, not for a path that it creates.
-/
namespace SantaTamper
open SantaExec (AuthResult Response)
open SantaPathTargets (EsFile Destination)
open SantaWatchItems (WatchItemPathType PairPathAndType)

def kProtectedFiles : List PairPathAndType :=
  [("/private/var/db/santa/rules.db", .kLiteral),
   ("/private/var/db/santa/events.db", .kLiteral),
   ("/private/var/db/santa/sync-state.plist", .kLiteral),
   ("/private/var/db/santa/state.plist", .kLiteral),
   ("/private/var/db/santa/stats-state.plist", .kLiteral),
   ("/Applications/Santa.app", .kPrefix),
   ("/Library/LaunchAgents/com.northpolesec.santa.", .kPrefix),
   ("/Library/LaunchDaemons/com.northpolesec.santa.", .kPrefix)]

def protectedBy (path : String) : PairPathAndType → Bool
  | (file, .kLiteral) => path = file
  | (file, .kPrefix) => file.toList.isPrefixOf path.toList

def isProtectedPath (path : String) : Bool := kProtectedFiles.any (protectedBy path)

def isLiteralProtectedPath (path : String) : Bool :=
  kProtectedFiles.any fun entry => entry.2 = .kLiteral && path = entry.1

/-! ### The handler -/

/-- A process is given by its pid. -/
inductive TamperEvent where
  | authUnlink (target : EsFile)
  | authRename (source : EsFile) (destination : Destination)
  | authOpen (file : EsFile) (fflag : BitVec 32)
  | authProcSuspendResume (target : Int)
  | authSignal (sig : Int) (target : Int)
  | authExec (executable : String) (args : List String)
  | other
  deriving DecidableEq, Repr

structure TamperMessage where
  process : Int
  event : TamperEvent
  deriving DecidableEq, Repr

structure Daemon where
  pid : Int
  enableAntiTamperProcessSuspendResume : Bool
  deriving DecidableEq, Repr

def FWRITE : BitVec 32 := 2

def safeCommands : List String :=
  ["blame", "help", "hostinfo", "list", "plist", "print", "procinfo"]

def containsText (text arg : String) : Bool := arg.toList.tails.any text.toList.isPrefixOf

def namesSanta (arg : String) : Bool :=
  containsText "com.northpolesec.santa.daemon" arg ||
    containsText "/Library/LaunchDaemons/com.google.santa" arg ||
    containsText "/Library/LaunchAgents/com.google.santa.plist" arg

/-- The result and whether it may be cached. The path of the executable is compared up to its
    own length. -/
def validateLaunchctlExec (executable : String) (args : List String) : AuthResult × Bool :=
  if !executable.toList.isPrefixOf "/bin/launchctl".toList then (.allow, true)
  else
    match args with
    | _ :: command :: rest =>
        if safeCommands.contains command then (.allow, false)
        else if rest.any namesSanta then (.deny, false)
        else (.allow, false)
    | _ => (.allow, false)

def decideRename (source : EsFile) : Destination → AuthResult
  | .existingFile file =>
      if isProtectedPath source.path || isProtectedPath file.path then .deny else .allow
  | .newPath _ _ => if isProtectedPath source.path then .deny else .allow

def decideOpen (file : EsFile) (fflag : BitVec 32) : AuthResult × Bool :=
  if fflag &&& FWRITE ≠ 0 ∧ isProtectedPath file.path then (.deny, true)
  else if isLiteralProtectedPath file.path then (.deny, true)
  else (.allow, false)

/-- An event of another type raises an exception. -/
def decideEvent (daemon : Daemon) (process : Int) : TamperEvent → Option (AuthResult × Bool)
  | .authUnlink target => some (if isProtectedPath target.path then .deny else .allow, true)
  | .authRename source destination => some (decideRename source destination, true)
  | .authOpen file fflag => some (decideOpen file fflag)
  | .authProcSuspendResume target =>
      some (if daemon.enableAntiTamperProcessSuspendResume ∧ target = daemon.pid then .deny
        else .allow, true)
  | .authSignal sig target =>
      some (if sig ≠ 0 ∧ target = daemon.pid ∧ process ≠ 1 then .deny else .allow, true)
  | .authExec executable args => some (validateLaunchctlExec executable args)
  | .other => none

inductive EventDisposition where
  | processed
  | dropped
  deriving DecidableEq, Repr

structure Handled where
  response : Response
  disposition : EventDisposition
  deriving DecidableEq, Repr

def handleMessage (daemon : Daemon) (m : TamperMessage) : Option Handled :=
  (decideEvent daemon m.process m.event).map fun (result, cacheable) =>
    ⟨⟨result, cacheable && result = .allow⟩, if result = .deny then .processed else .dropped⟩

/-! ### What an operation touches -/

/-- The paths that an operation removes, moves, replaces, creates by a rename or opens for
    writing. -/
def TamperEvent.touched : TamperEvent → List String
  | .authUnlink target => [target.path]
  | .authRename source (.existingFile file) => [source.path, file.path]
  | .authRename source (.newPath dir filename) => [source.path, dir.path ++ "/" ++ filename]
  | .authOpen file fflag => if fflag &&& FWRITE ≠ 0 then [file.path] else []
  | .authProcSuspendResume _ => []
  | .authSignal _ _ => []
  | .authExec _ _ => []
  | .other => []

def Denied (daemon : Daemon) (m : TamperMessage) : Prop :=
  ∃ handled, handleMessage daemon m = some handled ∧ handled.response.authResult = .deny

structure TamperResistant (daemon : Daemon) (m : TamperMessage) : Prop where
  covered : ∀ path ∈ m.event.touched, isProtectedPath path → Denied daemon m
  uncached : ∀ handled, handleMessage daemon m = some handled →
    handled.response.authResult = .deny → handled.response.cacheable = false

/-- A file that is not protected is moved to a path that is. -/
def CreatesProtected : TamperEvent → Prop
  | .authRename source (.newPath dir filename) =>
      isProtectedPath source.path = false ∧ isProtectedPath (dir.path ++ "/" ++ filename)
  | _ => False

theorem denied_iff {daemon : Daemon} {m : TamperMessage} : Denied daemon m ↔
    ∃ cacheable, decideEvent daemon m.process m.event = some (.deny, cacheable) := by
  unfold Denied handleMessage
  constructor
  · rintro ⟨handled, answered, denied⟩
    obtain ⟨⟨result, cacheable⟩, decided, rfl⟩ := Option.map_eq_some_iff.mp answered
    obtain rfl : result = .deny := denied
    exact ⟨cacheable, decided⟩
  · rintro ⟨cacheable, decided⟩
    exact ⟨_, Option.map_eq_some_iff.mpr ⟨_, decided, rfl⟩, rfl⟩

theorem denial_uncached {daemon : Daemon} {m : TamperMessage} {handled : Handled}
    (answered : handleMessage daemon m = some handled)
    (denied : handled.response.authResult = .deny) : handled.response.cacheable = false := by
  unfold handleMessage at answered
  obtain ⟨⟨result, cacheable⟩, -, rfl⟩ := Option.map_eq_some_iff.mp answered
  obtain rfl : result = .deny := denied
  exact Bool.and_false cacheable

theorem opened_denied {file : EsFile} {fflag : BitVec 32} (writes : fflag &&& FWRITE ≠ 0)
    (kept : isProtectedPath file.path) : decideOpen file fflag = (.deny, true) := by
  unfold decideOpen
  rw [if_pos ⟨writes, kept⟩]

theorem covered_iff {daemon : Daemon} {m : TamperMessage} :
    (∀ path ∈ m.event.touched, isProtectedPath path → Denied daemon m) ↔
      ¬ CreatesProtected m.event := by
  obtain ⟨process, event⟩ := m
  simp only [denied_iff]
  cases event with
  | authUnlink target => simp [TamperEvent.touched, decideEvent, CreatesProtected]
  | authRename source destination =>
    cases destination with
    | existingFile file =>
      simp only [TamperEvent.touched, decideEvent, decideRename, CreatesProtected,
        not_false_eq_true, iff_true]
      intro path touched kept
      have either : isProtectedPath source.path || isProtectedPath file.path := by
        simp only [List.mem_cons, List.not_mem_nil, or_false] at touched
        rcases touched with rfl | rfl <;> simp [kept]
      exact ⟨true, by rw [if_pos either]⟩
    | newPath dir filename =>
      cases moved : isProtectedPath source.path with
      | true => simp [TamperEvent.touched, decideEvent, decideRename, CreatesProtected, moved]
      | false => simp [TamperEvent.touched, decideEvent, decideRename, CreatesProtected, moved]
  | authOpen file fflag =>
    refine iff_of_true (fun path touched kept => ⟨true, ?_⟩) id
    simp only [TamperEvent.touched] at touched
    split at touched
    · rename_i writes
      obtain rfl := List.mem_singleton.mp touched
      exact congrArg some (opened_denied writes kept)
    · exact absurd touched List.not_mem_nil
  | authProcSuspendResume target => simp [TamperEvent.touched, CreatesProtected]
  | authSignal sig target => simp [TamperEvent.touched, CreatesProtected]
  | authExec executable args => simp [TamperEvent.touched, CreatesProtected]
  | other => simp [TamperEvent.touched, CreatesProtected]

/-- Protected paths are covered iff none is created by a rename. -/
theorem tamper_resistant_iff (daemon : Daemon) (m : TamperMessage) :
    TamperResistant daemon m ↔ ¬ CreatesProtected m.event :=
  ⟨fun resists => covered_iff.mp resists.covered,
    fun safe => ⟨covered_iff.mpr safe, fun _ answered denied => denial_uncached answered denied⟩⟩

def moveToNewPath : TamperMessage :=
  ⟨501, .authRename ⟨"/tmp/rules.db", false, 1, 7⟩
    (.newPath ⟨"/private/var/db/santa", false, 1, 8⟩ "rules.db")⟩

/-- A database of rules is put in place by a rename, after the old one is gone. -/
theorem move_allowed : ¬ TamperResistant ⟨100, true⟩ moveToNewPath := by
  intro resists
  have denied := resists.covered "/private/var/db/santa/rules.db" (by decide +kernel)
    (by decide +kernel)
  obtain ⟨handled, answered, deny⟩ := denied
  have allowed : handleMessage ⟨100, true⟩ moveToNewPath =
      some ⟨⟨.allow, true⟩, .dropped⟩ := by decide +kernel
  rw [allowed] at answered
  obtain rfl := Option.some.inj answered
  exact absurd deny (by decide)

end SantaTamper
