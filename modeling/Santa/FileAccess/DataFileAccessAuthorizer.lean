import Santa.FileAccess.FAAPolicyProcessor
import Santa.Library.Runs

/-!
The client that guards files, over whole runs. A message is answered at once
where it can be; otherwise a task first finds the policies of its targets and
then evaluates them; an event reads at most one file, so that the evaluation changes
the cache of reads at most once and is one step. Tasks are interleaved with other
messages, with the client that guards processes, which shares the processor, and
with reloads. A reload installs its policies first and calls `watchItemsCount`
later. Recorded for the statements only: how many reloads there were, and which
reads were cached, by which path and under the policies of which reload.
-/
namespace SantaDataFAA
open SantaExec (AuthResult ProcessId)
open SantaPathTargets SantaFAA

structure World where
  policies : String → Option WatchItemPolicy
  overrideFileAccessAction : SNTOverrideFileAccessAction
  enableBadSignatureProtection : Bool
  certificates : CertificateSources

structure Task where
  esMsg : FileMessage
  overrideAction : SNTOverrideFileAccessAction
  found : Option (List TargetPolicyPair × Nat)

structure CachedRead where
  key : ReadsCacheKey
  file : Nat × Nat
  path : String
  generation : Nat
  deriving DecidableEq, Repr

structure System where
  processor : FAAPolicyProcessor
  world : World
  isSubscribed : Bool
  tasks : Nat → Option Task
  generation : Nat
  reads : List CachedRead

inductive Label where
  | message (id : Nat) (esMsg : FileMessage)
  | lookup (id : Nat)
  | process (id : Nat)
  | processClient (overrideAction : SNTOverrideFileAccessAction) (esMsg : FileMessage)
      (pairs : List TargetPolicyPair) (inTree : WatchItemPolicy → PathTarget → Bool)
  | processClientExit (p : ProcessId)
  | reload (policies : String → Option WatchItemPolicy)
  | watchItemsCount (count : Nat)
  | configure (overrideFileAccessAction : SNTOverrideFileAccessAction)
      (enableBadSignatureProtection : Bool)
  | sign (certificates : CertificateSources)

def System.start (world : World) : System :=
  ⟨.new, world, false, fun _ => none, 0, []⟩

inductive Handling where
  | ignored
  | disabled
  | exited
  | immediate (result : ESResult)
  | evaluate
  deriving DecidableEq, Repr

/-- While file access is overridden, not even exits are looked at. -/
def handleMessage (readsCache : ReadsCache) (overrideAction : SNTOverrideFileAccessAction)
    (esMsg : FileMessage) : Handling :=
  if overrideAction = .disable then (if esMsg.event.isAuth then .disabled else .ignored)
  else if esMsg.event = .notifyExit then .exited
  else match immediateResponse readsCache .data esMsg with
    | some result => .immediate result
    | none => .evaluate

def matchesAnyProcess (sources : CertificateSources) (esProc : EsProcess) :
    List WatchItemProcess → CertHashCache → Bool × CertHashCache
  | [], certHashCache => (false, certHashCache)
  | process :: processes, certHashCache =>
      match policyMatchesProcess sources certHashCache process esProc with
      | (true, certHashCache) => (true, certHashCache)
      | (false, certHashCache) => matchesAnyProcess sources esProc processes certHashCache

def checkProcesses (sources : CertificateSources) (esProc : EsProcess) : CheckIfPolicyMatches :=
  fun policy _ certHashCache => matchesAnyProcess sources esProc policy.processes certHashCache

def findPoliciesForTargets (policies : String → Option WatchItemPolicy) (event : Event) :
    List TargetPolicyPair :=
  (pathTargets event).map fun target => (target, policies target.path)

namespace System

def setTask (s : System) (id : Nat) (task : Option Task) : System :=
  { s with tasks := fun i => if i = id then task else s.tasks i }

def evaluate (s : System) (overrideAction : SNTOverrideFileAccessAction) (esMsg : FileMessage)
    (pairs : List TargetPolicyPair) : Progress :=
  processMessage s.world.enableBadSignatureProtection
    (checkProcesses s.world.certificates esMsg.process) overrideAction .data esMsg s.processor pairs

def fullProcessing (s : System) (esMsg : FileMessage) : ESResult :=
  (s.evaluate s.world.overrideFileAccessAction esMsg
    (findPoliciesForTargets s.world.policies esMsg.event)).result

end System

def cachedReads (esMsg : FileMessage) (generation : Nat)
    (decisions : List (TargetPolicyPair × FileAccessPolicyDecision)) : List CachedRead :=
  decisions.filterMap fun entry => (allowedRead entry.2 entry.1).map fun file =>
    ⟨readsCacheKey .data esMsg, file, entry.1.1.path, generation⟩

def step (s : System) : Label → Option System
  | .message id esMsg =>
      match s.tasks id with
      | some _ => none
      | none =>
          match handleMessage s.processor.readsCache s.world.overrideFileAccessAction esMsg with
          | .exited => some
              { s with processor := notifyExit s.processor .data esMsg.process.pidAndVersion }
          | .evaluate =>
              some (s.setTask id (some ⟨esMsg, s.world.overrideFileAccessAction, none⟩))
          | .ignored => some s
          | .disabled => some s
          | .immediate _ => some s
  | .lookup id =>
      match s.tasks id with
      | some ⟨esMsg, overrideAction, none⟩ =>
          let pairs := findPoliciesForTargets s.world.policies esMsg.event
          some (s.setTask id (some ⟨esMsg, overrideAction, some (pairs, s.generation)⟩))
      | _ => none
  | .process id =>
      match s.tasks id with
      | some ⟨esMsg, overrideAction, some (pairs, generation)⟩ =>
          let progress := s.evaluate overrideAction esMsg pairs
          some { s.setTask id none with
            processor := progress.processor
            reads := cachedReads esMsg generation progress.decisions ++ s.reads }
      | _ => none
  | .processClient overrideAction esMsg pairs inTree =>
      let check := fun policy target certHashCache => (inTree policy target, certHashCache)
      some { s with
        processor := (processMessage s.world.enableBadSignatureProtection check overrideAction
          .process esMsg s.processor pairs).processor }
  | .processClientExit p => some { s with processor := notifyExit s.processor .process p }
  | .reload policies =>
      some { s with world := { s.world with policies }, generation := s.generation + 1 }
  | .watchItemsCount count => some { s with isSubscribed := count ≠ 0 }
  | .configure overrideFileAccessAction enableBadSignatureProtection =>
      some { s with
        world := { s.world with overrideFileAccessAction, enableBadSignatureProtection } }
  | .sign certificates => some { s with world := { s.world with certificates } }

/-! ### What each step does -/

theorem step_message {s t : System} {id : Nat} {esMsg : FileMessage}
    (h : step s (.message id esMsg) = some t) :
    t = s ∨ t = { s with processor := notifyExit s.processor .data esMsg.process.pidAndVersion } ∨
      t = s.setTask id (some ⟨esMsg, s.world.overrideFileAccessAction, none⟩) := by
  simp only [step] at h
  split at h
  · exact nomatch h
  · split at h
    · exact .inr (.inl (Option.some.inj h).symm)
    · exact .inr (.inr (Option.some.inj h).symm)
    · exact .inl (Option.some.inj h).symm
    · exact .inl (Option.some.inj h).symm
    · exact .inl (Option.some.inj h).symm

theorem step_lookup {s t : System} {id : Nat} (h : step s (.lookup id) = some t) :
    ∃ esMsg overrideAction, s.tasks id = some ⟨esMsg, overrideAction, none⟩ ∧
      t = s.setTask id (some ⟨esMsg, overrideAction,
        some (findPoliciesForTargets s.world.policies esMsg.event, s.generation)⟩) := by
  simp only [step] at h
  split at h
  · rename_i esMsg overrideAction here
    exact ⟨esMsg, overrideAction, here, (Option.some.inj h).symm⟩
  · exact nomatch h

theorem step_process {s t : System} {id : Nat} (h : step s (.process id) = some t) :
    ∃ esMsg overrideAction pairs generation,
      s.tasks id = some ⟨esMsg, overrideAction, some (pairs, generation)⟩ ∧
      t = { s.setTask id none with
        processor := (s.evaluate overrideAction esMsg pairs).processor
        reads := cachedReads esMsg generation (s.evaluate overrideAction esMsg pairs).decisions ++
          s.reads } := by
  simp only [step] at h
  split at h
  · rename_i esMsg overrideAction pairs generation here
    exact ⟨esMsg, overrideAction, pairs, generation, here, (Option.some.inj h).symm⟩
  · exact nomatch h

theorem mem_cachedReads {esMsg : FileMessage} {generation : Nat}
    {decisions : List (TargetPolicyPair × FileAccessPolicyDecision)} {read : CachedRead} :
    read ∈ cachedReads esMsg generation decisions ↔
      ∃ entry ∈ decisions, allowedRead entry.2 entry.1 = some read.file ∧
        read.key = readsCacheKey .data esMsg ∧ read.path = entry.1.1.path ∧
        read.generation = generation := by
  unfold cachedReads
  rw [List.mem_filterMap]
  constructor
  · rintro ⟨entry, member, made⟩
    obtain ⟨file, allowed, same⟩ := Option.map_eq_some_iff.mp made
    subst same
    exact ⟨entry, member, allowed, rfl, rfl, rfl⟩
  · rintro ⟨entry, member, allowed, key, path, same⟩
    refine ⟨entry, member, Option.map_eq_some_iff.mpr ⟨read.file, allowed, ?_⟩⟩
    rw [← key, ← path, ← same]

end SantaDataFAA
