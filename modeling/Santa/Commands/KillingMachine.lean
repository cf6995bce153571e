import Mathlib.Algebra.Group.Nat.Defs

/-!
The kill commands. The list of pids, the audit tokens, the signing data and the
signal are separate system calls, and the process table may be any other one at
each of them: `table` gives the table at the n-th call. A task name port names the
incarnation that held the pid when it was asked for. A call may also be refused
for a reason that has nothing to do with the table.
-/
namespace SantaKillingMachine

def kCsopStatus : Nat := 0
def kCsopCDHash : Nat := 5
def kCsopIdentity : Nat := 11
def kCsopTeamID : Nat := 14
def CS_PLATFORM_BINARY : Nat := 0x04000000
def kPlatformTeamID : String := "platform"

def EPERM : Nat := 1
def ESRCH : Nat := 3
def EINVAL : Nat := 22

/-- An incarnation of a pid, with the bytes that csops writes for an operation and a
    buffer size, or none when it returns an error. -/
structure Process where
  pidversion : Int
  csops : Nat → Nat → Option (List UInt8)

structure AuditToken where
  pid : Int
  pidversion : Int
  deriving DecidableEq, Repr

structure Kernel where
  table : Nat → Int → Option Process
  refuses : Nat → Bool
  pidList : Option (List Int)
  bootSessionUUID : String
  myPid : Int

def Kernel.version (kernel : Kernel) (now : Nat) (pid : Int) : Option Int :=
  (kernel.table now pid).map (·.pidversion)

/-- A pidversion names one incarnation of a pid: the times at which the pid has it are
    an interval. -/
def Kernel.OneIncarnation (kernel : Kernel) : Prop :=
  ∀ first now last pid v, first ≤ now → now ≤ last → kernel.version first pid = some v →
    kernel.version last pid = some v → kernel.version now pid = some v

def Kernel.csops (kernel : Kernel) (now : Nat) (pid : Int) (op size : Nat) :
    Option (List UInt8) :=
  if kernel.refuses now then none
  else (kernel.table now pid).bind fun p => p.csops op size

def Kernel.taskNameForPid (kernel : Kernel) (now : Nat) (pid : Int) : Option AuditToken :=
  if kernel.refuses now then none
  else (kernel.version now pid).map fun v => ⟨pid, v⟩

def Kernel.taskInfo (kernel : Kernel) (now : Nat) (task : AuditToken) : Option AuditToken :=
  if kernel.refuses now then none
  else if kernel.version now task.pid = some task.pidversion then some task
  else none

def Kernel.procSignalWithAuditToken (kernel : Kernel) (now : Nat) (token : AuditToken) : Nat :=
  if kernel.version now token.pid = some token.pidversion then
    if kernel.refuses now then EPERM else 0
  else ESRCH

/- strtoul in base 16 on a string of two characters, cut to a byte. -/
def hexDigit (c : UInt8) : Option Nat :=
  if 48 ≤ c ∧ c ≤ 57 then some (c.toNat - 48)
  else if 97 ≤ c ∧ c ≤ 102 then some (c.toNat - 87)
  else if 65 ≤ c ∧ c ≤ 70 then some (c.toNat - 55)
  else none

def isSpace (c : UInt8) : Bool := c = 32 ∨ (9 ≤ c ∧ c ≤ 13)

def strtoulByte (first second : UInt8) : UInt8 :=
  match hexDigit first, hexDigit second with
  | some high, some low => UInt8.ofNat (16 * high + low)
  | some high, none => UInt8.ofNat high
  | none, some low =>
      if isSpace first ∨ first = 43 then UInt8.ofNat low
      else if first = 45 then 0 - UInt8.ofNat low
      else 0
  | none, none => 0

def hexStringToBuf : List UInt8 → List UInt8
  | first :: second :: rest => strtoulByte first second :: hexStringToBuf rest
  | _ => []

def utf8 (s : String) : List UInt8 := s.toUTF8.toList

inductive ProcessMatcher where
  | buffer (op : Nat) (desired : List UInt8) (hasBlobWrapper : Bool)
  | flags (op : Nat) (mask : Nat)
  deriving DecidableEq, Repr

def ProcessMatcher.cdHash (cdhash : String) : ProcessMatcher :=
  .buffer kCsopCDHash (hexStringToBuf (utf8 cdhash)) false

def ProcessMatcher.teamID (teamID : String) : ProcessMatcher :=
  .buffer kCsopTeamID (utf8 teamID) true

def ProcessMatcher.signingID (signingID : String) : ProcessMatcher :=
  .buffer kCsopIdentity (utf8 signingID) true

def ProcessMatcher.statusFlags (mask : Nat) : ProcessMatcher := .flags kCsopStatus mask

/- The header of a csops_blob, its type and its length, and the byte that ends the data. -/
def wrapperLengthOverhead : Nat := 8 + 1

/-- A zeroed buffer after csops wrote into it. -/
def filled (size : Nat) (written : List UInt8) : List UInt8 :=
  (written ++ List.replicate size 0).take size

def bigEndian (bytes : List UInt8) : Nat := bytes.foldl (fun n b => 256 * n + b.toNat) 0

def ProcessMatcher.matches (m : ProcessMatcher) (kernel : Kernel) (now : Nat) (pid : Int) : Bool :=
  match m with
  | .buffer op desired hasBlobWrapper =>
      let size := if hasBlobWrapper then desired.length + wrapperLengthOverhead else desired.length
      match kernel.csops now pid op size with
      | none => false
      | some written =>
          let buffer := filled size written
          if hasBlobWrapper then
            let len := bigEndian ((buffer.drop 4).take 4)
            (len + 2 ^ 32 - wrapperLengthOverhead) % 2 ^ 32 = desired.length ∧
              (buffer.drop 8).take desired.length = desired
          else buffer = desired
  | .flags op mask =>
      match kernel.csops now pid op 4 with
      | none => false
      | some written => bigEndian (filled 4 written).reverse &&& mask ≠ 0

inductive KilledProcessError where
  | unknown
  | none
  | invalidTarget
  | notPermitted
  | noSuchProcess
  | invalidArgument
  | bootSessionMismatch
  deriving DecidableEq, Repr

structure KilledProcess where
  pid : Int
  pidversion : Int
  error : KilledProcessError
  deriving DecidableEq, Repr

def libprocSignalErrorToKilledProcessError (error : Nat) : KilledProcessError :=
  if error = 0 then .none
  else if error = EPERM then .notPermitted
  else if error = ESRCH then .noSuchProcess
  else if error = EINVAL then .invalidArgument
  else .unknown

inductive KillRequest where
  | runningProcess (pid pidversion : Int) (bootSessionUUID : String)
  | cdHash (cdhash : String)
  | signingID (teamID signingID : String)
  | teamID (teamID : String)
  | unexpected
  deriving DecidableEq, Repr

inductive KillResponse where
  | listPids
  | invalidRequest
  | killed (processes : List KilledProcess)
  deriving DecidableEq, Repr

structure Signal where
  token : AuditToken
  sentAt : Nat
  error : Nat
  deriving DecidableEq, Repr

/-- The number of system calls made so far, and the signals among them. -/
structure Trace where
  now : Nat
  signals : List Signal
  deriving DecidableEq, Repr

def Trace.calls (trace : Trace) (n : Nat) : Trace := { trace with now := trace.now + n }

section
variable (kernel : Kernel)

def auditTokenForPid (trace : Trace) (pid : Int) : Option AuditToken × Trace :=
  match kernel.taskNameForPid trace.now pid with
  | none => (none, trace.calls 1)
  | some task => (kernel.taskInfo (trace.now + 1) task, trace.calls 2)

def killProcess (trace : Trace) (token : AuditToken) : KilledProcess × Trace :=
  if token.pid = kernel.myPid ∨ token.pid = 1 then
    (⟨token.pid, token.pidversion, .invalidTarget⟩, trace)
  else
    let error := kernel.procSignalWithAuditToken trace.now token
    (⟨token.pid, token.pidversion, libprocSignalErrorToKilledProcessError error⟩,
      ⟨trace.now + 1, trace.signals ++ [⟨token, trace.now, error⟩]⟩)

def killByRunningProcess (trace : Trace) (pid pidversion : Int) (bootSessionUUID : String) :
    Option KilledProcess × Trace :=
  if kernel.bootSessionUUID ≠ bootSessionUUID then
    (some ⟨pid, pidversion, .bootSessionMismatch⟩, trace)
  else match auditTokenForPid kernel trace pid with
    | (none, trace) => (none, trace)
    | (some token, trace) =>
        if token.pidversion = pidversion then
          let (killed, trace) := killProcess kernel trace token
          (some killed, trace)
        else (some ⟨pid, pidversion, .noSuchProcess⟩, trace)

def allMatch (pid : Int) : List ProcessMatcher → Trace → Bool × Trace
  | [], trace => (true, trace)
  | m :: ms, trace =>
      if m.matches kernel trace.now pid then allMatch pid ms (trace.calls 1)
      else (false, trace.calls 1)

def killByMatchers (trace : Trace) (pid : Int) (matchers : List ProcessMatcher) :
    Option KilledProcess × Trace :=
  match auditTokenForPid kernel trace pid with
  | (none, trace) => (none, trace)
  | (some before, trace) =>
      match allMatch kernel pid matchers trace with
      | (false, trace) => (none, trace)
      | (true, trace) =>
          match auditTokenForPid kernel trace pid with
          | (none, trace) => (none, trace)
          | (some after, trace) =>
              if before.pidversion = after.pidversion then
                let (killed, trace) := killProcess kernel trace after
                (some killed, trace)
              else (none, trace)

def killPids (matchers : List ProcessMatcher) : List Int → Trace → List KilledProcess × Trace
  | [], trace => ([], trace)
  | pid :: pids, trace =>
      if pid = 0 then killPids matchers pids trace
      else
        let (killed, trace) := killByMatchers kernel trace pid matchers
        let (others, trace) := killPids matchers pids trace
        (killed.toList ++ others, trace)

end

def matchersOf : KillRequest → Option (List ProcessMatcher)
  | .cdHash cdhash => some [.cdHash cdhash]
  | .signingID teamID signingID =>
      some [if teamID = kPlatformTeamID then .statusFlags CS_PLATFORM_BINARY else .teamID teamID,
        .signingID signingID]
  | .teamID teamID => if teamID = kPlatformTeamID then none else some [.teamID teamID]
  | _ => none

def killingMachine (kernel : Kernel) (request : KillRequest) : KillResponse × Trace :=
  match request with
  | .runningProcess pid pidversion bootSessionUUID =>
      let (killed, trace) := killByRunningProcess kernel ⟨0, []⟩ pid pidversion bootSessionUUID
      (.killed killed.toList, trace)
  | request =>
      match kernel.pidList, matchersOf request with
      | none, _ => (.listPids, ⟨0, []⟩)
      | some _, none => (.invalidRequest, ⟨0, []⟩)
      | some pids, some matchers =>
          let (killed, trace) := killPids kernel matchers pids ⟨0, []⟩
          (.killed killed, trace)

/-- Every matcher returned true about the pid while the incarnation held it. -/
def Matched (kernel : Kernel) (matchers : List ProcessMatcher) (s : Signal) : Prop :=
  ∀ m ∈ matchers, ∃ t ≤ s.sentAt, m.matches kernel t s.token.pid = true ∧
    kernel.version t s.token.pid = some s.token.pidversion

/-- A signal that stays clear of pid 1 and of the daemon, and that no other incarnation
    can receive. -/
structure Aimed (kernel : Kernel) (s : Signal) : Prop where
  notInit : s.token.pid ≠ 1
  notSelf : s.token.pid ≠ kernel.myPid
  landed : s.error = 0 → kernel.version s.sentAt s.token.pid = some s.token.pidversion

def Asked (kernel : Kernel) (request : KillRequest) (s : Signal) : Prop :=
  match request with
  | .runningProcess pid pidversion bootSessionUUID =>
      s.token = ⟨pid, pidversion⟩ ∧ kernel.bootSessionUUID = bootSessionUUID
  | request => ∃ matchers, matchersOf request = some matchers ∧ Matched kernel matchers s

theorem task_name_some {kernel : Kernel} {now : Nat} {pid : Int} {task : AuditToken}
    (h : kernel.taskNameForPid now pid = some task) :
    task.pid = pid ∧ kernel.version now pid = some task.pidversion := by
  simp only [Kernel.taskNameForPid] at h
  split at h
  · cases h
  · obtain ⟨v, held, same⟩ := Option.map_eq_some_iff.mp h
    rw [← same]
    exact ⟨rfl, held⟩

theorem task_info_some {kernel : Kernel} {now : Nat} {task token : AuditToken}
    (h : kernel.taskInfo now task = some token) : token = task := by
  simp only [Kernel.taskInfo] at h
  split at h
  · cases h
  · split at h
    · exact (Option.some.inj h).symm
    · cases h

theorem audit_token_cases {kernel : Kernel} {trace after : Trace} {pid : Int}
    {token : Option AuditToken} (h : auditTokenForPid kernel trace pid = (token, after)) :
    after.signals = trace.signals ∧ trace.now ≤ after.now ∧
      ∀ t, token = some t → t.pid = pid ∧ kernel.version trace.now pid = some t.pidversion := by
  simp only [auditTokenForPid] at h
  split at h
  · rw [Prod.mk.injEq] at h
    rw [← h.2, ← h.1]
    exact ⟨rfl, Nat.le_add_right _ _, fun t none => by cases none⟩
  · rename_i task named
    rw [Prod.mk.injEq] at h
    rw [← h.2]
    refine ⟨rfl, Nat.le_add_right _ _, ?_⟩
    intro t some
    rw [← h.1] at some
    rw [task_info_some some]
    exact task_name_some named

theorem signal_lands {kernel : Kernel} {now : Nat} {token : AuditToken}
    (h : kernel.procSignalWithAuditToken now token = 0) :
    kernel.version now token.pid = some token.pidversion := by
  simp only [Kernel.procSignalWithAuditToken] at h
  split at h
  · assumption
  · cases h

/-- At most one signal, to the token, and never to pid 1 or the daemon. -/
theorem kill_process_cases (kernel : Kernel) (trace : Trace) (token : AuditToken) :
    (killProcess kernel trace token).2.signals = trace.signals ∨
      ∃ s, (killProcess kernel trace token).2.signals = trace.signals ++ [s] ∧
        s.token = token ∧ s.sentAt = trace.now ∧ Aimed kernel s := by
  simp only [killProcess]
  split
  · exact Or.inl rfl
  · rename_i allowed
    rw [not_or] at allowed
    exact Or.inr ⟨_, rfl, rfl, rfl, allowed.2, allowed.1, signal_lands⟩

theorem all_match_cases {kernel : Kernel} {pid : Int} {matchers : List ProcessMatcher}
    {trace after : Trace} {verdict : Bool}
    (h : allMatch kernel pid matchers trace = (verdict, after)) :
    after.signals = trace.signals ∧ trace.now ≤ after.now ∧
      (verdict = true → ∀ m ∈ matchers, ∃ t, trace.now ≤ t ∧ t ≤ after.now ∧
        m.matches kernel t pid = true) := by
  induction matchers generalizing trace with
  | nil =>
    simp only [allMatch, Prod.mk.injEq] at h
    rw [← h.2]
    exact ⟨rfl, Nat.le_refl _, fun _ m member => absurd member List.not_mem_nil⟩
  | cons m ms ih =>
    simp only [allMatch] at h
    split at h
    · rename_i matched
      obtain ⟨signals, later, rest⟩ := ih h
      have order : trace.now + 1 ≤ after.now := later
      refine ⟨signals, by omega, ?_⟩
      intro all n member
      rcases List.mem_cons.mp member with first | other
      · rw [first]
        exact ⟨trace.now, Nat.le_refl _, by omega, matched⟩
      · obtain ⟨t, low, high, true⟩ := rest all n other
        have low : trace.now + 1 ≤ t := low
        exact ⟨t, by omega, high, true⟩
    · rw [Prod.mk.injEq] at h
      rw [← h.2]
      exact ⟨rfl, Nat.le_succ _, fun all => by rw [← h.1] at all; cases all⟩

/-- The two audit tokens enclose the answers of the matchers, so these were about the
    incarnation that both name. -/
theorem kill_by_matchers_cases {kernel : Kernel} (single : kernel.OneIncarnation)
    (trace : Trace) (pid : Int) (matchers : List ProcessMatcher) :
    (killByMatchers kernel trace pid matchers).2.signals = trace.signals ∨
      ∃ s, (killByMatchers kernel trace pid matchers).2.signals = trace.signals ++ [s] ∧
        Aimed kernel s ∧ Matched kernel matchers s := by
  simp only [killByMatchers]
  split
  · rename_i first
    exact Or.inl (audit_token_cases first).1
  rename_i before started first
  obtain ⟨noSignal, start, named⟩ := audit_token_cases first
  obtain ⟨_, heldBefore⟩ := named before rfl
  split
  · rename_i checked
    exact Or.inl ((all_match_cases checked).1.trans noSignal)
  rename_i matched checked
  obtain ⟨noSignal', _, answers⟩ := all_match_cases checked
  split
  · rename_i second
    exact Or.inl ((audit_token_cases second).1.trans (noSignal'.trans noSignal))
  rename_i last ended second
  obtain ⟨noSignal'', order, named'⟩ := audit_token_cases second
  obtain ⟨samePid, heldAfter⟩ := named' last rfl
  have noneYet : ended.signals = trace.signals := noSignal''.trans (noSignal'.trans noSignal)
  split
  · rename_i sameVersion
    rw [sameVersion] at heldBefore
    rcases kill_process_cases kernel ended last with silent | ⟨s, one, token, sentAt, aimed⟩
    · exact Or.inl (silent.trans noneYet)
    · rw [noneYet] at one
      refine Or.inr ⟨s, one, aimed, ?_⟩
      intro m member
      obtain ⟨t, low, high, true⟩ := answers rfl m member
      rw [sentAt, token, samePid]
      exact ⟨t, Nat.le_trans high order, true,
        single _ _ _ _ _ (Nat.le_trans start low) high heldBefore heldAfter⟩
  · exact Or.inl noneYet

theorem kill_pids_signals {kernel : Kernel} (single : kernel.OneIncarnation)
    (matchers : List ProcessMatcher) (pids : List Int) (trace : Trace) :
    ∀ s ∈ (killPids kernel matchers pids trace).2.signals,
      s ∈ trace.signals ∨ (Aimed kernel s ∧ Matched kernel matchers s) := by
  induction pids generalizing trace with
  | nil => exact fun s member => Or.inl member
  | cons pid pids ih =>
    intro s member
    simp only [killPids] at member
    split at member
    · exact ih trace s member
    · rcases ih _ s member with before | new
      · rcases kill_by_matchers_cases single trace pid matchers with silent | ⟨one, sent, hit⟩
        · rw [silent] at before
          exact Or.inl before
        · rw [sent] at before
          rcases List.mem_append.mp before with old | last
          · exact Or.inl old
          · rw [List.mem_singleton.mp last]
            exact Or.inr hit
      · exact Or.inr new

theorem kill_by_running_process_signals {kernel : Kernel} {pid pidversion : Int}
    {bootSessionUUID : String} :
    ∀ s ∈ (killByRunningProcess kernel ⟨0, []⟩ pid pidversion bootSessionUUID).2.signals,
      Aimed kernel s ∧ s.token = ⟨pid, pidversion⟩ ∧ kernel.bootSessionUUID = bootSessionUUID := by
  intro s member
  simp only [killByRunningProcess] at member
  split at member
  · simp at member
  rename_i sameBoot
  rw [Decidable.not_not] at sameBoot
  split at member
  · rename_i read
    rw [(audit_token_cases read).1] at member
    exact absurd member List.not_mem_nil
  rename_i token trace read
  obtain ⟨noSignal, _, named⟩ := audit_token_cases read
  split at member
  · rename_i sameVersion
    rcases kill_process_cases kernel trace token with silent | ⟨sent, one, target, _, aimed⟩
    · rw [silent, noSignal] at member
      exact absurd member List.not_mem_nil
    · rw [one, noSignal] at member
      have same : s = sent := by simpa using member
      rw [same]
      refine ⟨aimed, ?_, sameBoot⟩
      rw [target, ← (named token rfl).1, ← sameVersion]
  · rw [noSignal] at member
    exact absurd member List.not_mem_nil

/-- Whatever happens to the process table between the calls, a signal goes to the process
    the request means, and never to pid 1 or to the daemon. -/
theorem killing_machine_signals (kernel : Kernel) (single : kernel.OneIncarnation)
    (request : KillRequest) :
    ∀ s ∈ (killingMachine kernel request).2.signals,
      Aimed kernel s ∧ Asked kernel request s := by
  intro s member
  have matched : ∀ matchers pids, matchersOf request = some matchers →
      s ∈ (killPids kernel matchers pids ⟨0, []⟩).2.signals →
      Aimed kernel s ∧ ∃ ms, matchersOf request = some ms ∧ Matched kernel ms s := by
    intro matchers pids those sent
    rcases kill_pids_signals single matchers pids ⟨0, []⟩ s sent with none | ⟨aimed, hit⟩
    · exact absurd none List.not_mem_nil
    · exact ⟨aimed, matchers, those, hit⟩
  cases request with
  | runningProcess pid pidversion boot => exact kill_by_running_process_signals s member
  | _ =>
    simp only [killingMachine] at member
    split at member
    · exact absurd member List.not_mem_nil
    · exact absurd member List.not_mem_nil
    · rename_i pids matchers _ those
      exact matched matchers pids those member

def signedProcess (pidversion : Int) : Process := ⟨pidversion, fun _ _ => some [0xab]⟩

def reusingKernel : Kernel where
  table now pid :=
    if pid = 40 then some (signedProcess 7)
    else if pid = 41 then some (signedProcess (if now < 9 then 8 else 10))
    else none
  refuses _ := false
  pidList := some [0, 1, 40, 41]
  bootSessionUUID := ""
  myPid := 90

theorem reusing_one_incarnation : reusingKernel.OneIncarnation := by
  intro first now last pid v low high heldFirst heldLast
  simp only [Kernel.version, reusingKernel] at heldFirst heldLast ⊢
  by_cases stays : pid = 40
  · simpa [stays] using heldFirst
  by_cases reused : pid = 41
  · by_cases early : last < 9
    · have before : now < 9 := by omega
      simpa [reused, early, before] using heldLast
    · by_cases late : first < 9
      · simp only [reused, early, late, signedProcess] at heldFirst heldLast
        simp at heldFirst heldLast
        omega
      · have after : ¬ now < 9 := by omega
        simpa [reused, late, after] using heldFirst
  · simp [stays, reused] at heldFirst

theorem reused_pid_spared :
    (killingMachine reusingKernel (.cdHash "ab")).2.signals = [⟨⟨40, 7⟩, 6, 0⟩] ∧
      ∀ s ∈ (killingMachine reusingKernel (.cdHash "ab")).2.signals,
        Aimed reusingKernel s ∧ Asked reusingKernel (.cdHash "ab") s :=
  ⟨by decide +kernel, killing_machine_signals reusingKernel reusing_one_incarnation (.cdHash "ab")⟩

end SantaKillingMachine
