import Santa.FileAccess.FAAPolicyProcessor
import Santa.FileAccess.WatchItems
import Santa.Library.Runs

/-!
The client that guards processes, over whole runs. The thread of the kernel's messages
handles one message at a time, in parts between which everything else may happen: the
probes of other threads, tasks that evaluate an event under the policy that was found
for it, the installation of a configuration, and the delivery that tells the client of
it. Which processes are watched is left out: any process may send events. The hash of
a certificate is looked up afresh. Recorded for the statements only: how many
configurations were installed, and whether one of them was delivered when the handling
of an event started.
-/
namespace SantaProcFAA
open SantaExec (ProcessId)
open SantaPolicy (CS_SIGNED)
open SantaPathTargets SantaFAA SantaWatchItems

deriving instance DecidableEq for ProcessWatchItemPolicy

abbrev Policy := ProcessWatchItemPolicy WatchItemPolicy

/-- What the kernel says of a process is what it said of its image, but for the flags that change
    while it runs. -/
structure World where
  certificates : CertificateSources
  images : ProcessId → EsProcess

def SameImage (a b : EsProcess) : Prop :=
  a = { b with pidAndVersion := a.pidAndVersion, codesigningFlags := a.codesigningFlags } ∧
    a.codesigningFlags &&& CS_SIGNED = b.codesigningFlags &&& CS_SIGNED

instance (a b : EsProcess) : Decidable (SameImage a b) := inferInstanceAs (Decidable (_ ∧ _))

/-! ### Policies of processes -/

def matchesProcess (sources : CertificateSources) (policy : Policy) (esProc : EsProcess) : Bool :=
  policy.base.processes.any fun policyProcess =>
    (policyMatchesProcess sources (.new 10000) policyProcess esProc).1

def findPolicyForProcess (sources : CertificateSources) (policies : List Policy)
    (esProc : EsProcess) : Option Policy :=
  policies.find? fun policy => matchesProcess sources policy esProc

theorem policyMatchesProcess_image {a b : EsProcess} (same : SameImage a b)
    (sources : CertificateSources) (certHashCache : CertHashCache)
    (policyProc : WatchItemProcess) :
    policyMatchesProcess sources certHashCache policyProc a =
      policyMatchesProcess sources certHashCache policyProc b := by
  obtain ⟨attributes, signed⟩ := same
  unfold policyMatchesProcess
  rw [signed, attributes]
  rfl

theorem findPolicyForProcess_image {a b : EsProcess} (same : SameImage a b)
    (sources : CertificateSources) (policies : List Policy) :
    findPolicyForProcess sources policies a = findPolicyForProcess sources policies b := by
  unfold findPolicyForProcess matchesProcess
  simp only [policyMatchesProcess_image same]

/-! ### The client -/

/-- The delivery that was complete when the handling of the event started, if any. -/
structure AuthMessage where
  id : Nat
  esMsg : FileMessage
  overrideAction : SNTOverrideFileAccessAction
  started : Option Nat
  deriving DecidableEq

def AuthMessage.process (m : AuthMessage) : EsProcess := m.esMsg.process
def AuthMessage.pid (m : AuthMessage) : ProcessId := m.esMsg.process.pidAndVersion

/-- What the handler of messages does next. -/
inductive Stage where
  | idle
  | notifyingExit (p : ProcessId)
  | startingToWatch (child : EsProcess) (policy : Option Policy)
  | responding (m : AuthMessage)
  | looking (m : AuthMessage)
  | finding (m : AuthMessage)
  | caching (m : AuthMessage) (policy : Policy)
  deriving DecidableEq

structure Task where
  m : AuthMessage
  policy : Policy

structure System where
  policies : List Policy
  generation : Nat
  pending : Nat
  clearing : Bool
  isSubscribed : Bool
  procRuleCache : SantaCache ProcessId (Option Policy)
  processor : FAAPolicyProcessor
  stage : Stage
  probes : Nat → Option (EsProcess × Policy)
  tasks : Nat → Option Task

def System.start : System :=
  ⟨[], 0, 0, false, false, .new 2000, .new, .idle, fun _ => none, fun _ => none⟩

def System.Settled (s : System) : Prop := s.pending = 0 ∧ s.clearing = false

instance (s : System) : Decidable s.Settled := inferInstanceAs (Decidable (_ ∧ _))

inductive Message where
  | notifyExec (p : ProcessId)
  | notifyFork (parent child : EsProcess)
  | notifyExit (p : ProcessId)
  | auth (id : Nat) (esMsg : FileMessage)

inductive Label where
  | message (overrideAction : SNTOverrideFileAccessAction) (msg : Message)
  | handle
  | probe (id : Nat) (target : EsProcess)
  | startWatching (id : Nat)
  | process (id : Nat) (enableBadSignatureProtection : Bool)
  | install (policies : List Policy)
  | deliver (succeeds : Bool)
  | clear

namespace System

def find (w : World) (s : System) (esProc : EsProcess) : Option Policy :=
  findPolicyForProcess w.certificates s.policies esProc

def setPolicy (s : System) (p : ProcessId) (policy : Policy) : System :=
  { s with procRuleCache := (s.procRuleCache.set p (some policy) none).2 }

def removePolicy (s : System) (p : ProcessId) : System :=
  { s with procRuleCache := s.procRuleCache.remove p }

def exit (s : System) (p : ProcessId) : System :=
  { s with processor := notifyExit s.processor .process p }

def goTo (s : System) (stage : Stage) : System := { s with stage }

def setProbe (s : System) (id : Nat) (probe : Option (EsProcess × Policy)) : System :=
  { s with probes := fun i => if i = id then probe else s.probes i }

def setTask (s : System) (id : Nat) (task : Option Task) : System :=
  { s with tasks := fun i => if i = id then task else s.tasks i }

def processLater (s : System) (m : AuthMessage) (policy : Policy) : System :=
  (s.setTask m.id (some ⟨m, policy⟩)).goTo .idle

def handleMessage (w : World) (s : System) (overrideAction : SNTOverrideFileAccessAction)
    (msg : Message) : Option System :=
  if overrideAction = .disable then some s
  else match msg with
    | .notifyExec p => some ((s.removePolicy p).goTo (.notifyingExit p))
    | .notifyFork parent child =>
        if SameImage child parent ∧ SameImage parent (w.images parent.pidAndVersion) ∧
            SameImage child (w.images child.pidAndVersion) then
          some (s.goTo (.startingToWatch child (s.procRuleCache.get parent.pidAndVersion)))
        else none
    | .notifyExit p => some ((s.removePolicy p).goTo (.notifyingExit p))
    | .auth id esMsg =>
        if esMsg.event.isAuth = true ∧ s.tasks id = none ∧
            SameImage esMsg.process (w.images esMsg.process.pidAndVersion) then
          some (s.goTo (.responding
            ⟨id, esMsg, overrideAction, if s.Settled then some s.generation else none⟩))
        else none

/-- The next part of the handler. A process for which there is no policy any more is no longer
    watched. -/
def handle (w : World) (s : System) : Option System :=
  match s.stage with
  | .idle => none
  | .notifyingExit p => some ((s.exit p).goTo .idle)
  | .startingToWatch child policy =>
      some (match policy with
        | some policy => (s.setPolicy child.pidAndVersion policy).goTo .idle
        | none => s.goTo .idle)
  | .responding m =>
      some (match immediateResponse s.processor.readsCache .process m.esMsg with
        | some _ => s.goTo .idle
        | none => s.goTo (.looking m))
  | .looking m =>
      some (match s.procRuleCache.get m.pid with
        | some policy => s.processLater m policy
        | none => s.goTo (.finding m))
  | .finding m =>
      some (match s.find w m.process with
        | some policy => s.goTo (.caching m policy)
        | none => (s.exit m.pid).goTo .idle)
  | .caching m policy => some ((s.setPolicy m.pid policy).processLater m policy)

def evaluate (s : System) (enableBadSignatureProtection : Bool) (task : Task) : Progress :=
  let check := fun _ target certHashCache => (task.policy.tree.contains target.path, certHashCache)
  processMessage enableBadSignatureProtection check task.m.overrideAction .process task.m.esMsg
    s.processor ((pathTargets task.m.esMsg.event).map fun target => (target, some task.policy.base))

def install (s : System) (policies : List Policy) : System :=
  { s with policies, generation := s.generation + 1, pending := s.pending + 1 }

def enable (s : System) (succeeds : Bool) : System :=
  { s with isSubscribed := s.isSubscribed || succeeds, clearing := true }

def disable (s : System) (succeeds : Bool) : System :=
  if s.isSubscribed then { s with isSubscribed := !succeeds, clearing := true } else s

def processWatchItemsCount (s : System) (count : Nat) (succeeds : Bool) : System :=
  if 0 < count then s.enable succeeds else s.disable succeeds

def clear (s : System) : System :=
  { s with
    procRuleCache := s.procRuleCache.clear
    processor := (s.procRuleCache.entries.rows.map Prod.fst).foldl
      (fun processor p => notifyExit processor .process p) s.processor
    clearing := false }

end System

/-- Deliveries follow one another. Whether the calls of one succeed is part of it. -/
def step (w : World) (s : System) : Label → Option System
  | .message overrideAction msg =>
      if s.stage = .idle then s.handleMessage w overrideAction msg else none
  | .handle => s.handle w
  | .probe id target =>
      if s.probes id = none ∧ SameImage target (w.images target.pidAndVersion) then
        if s.isSubscribed then
          some (match s.find w target with
            | some policy => s.setProbe id (some (target, policy))
            | none => s)
        else some s
      else none
  | .startWatching id => (s.probes id).map fun (target, policy) =>
      (s.setPolicy target.pidAndVersion policy).setProbe id none
  | .process id enableBadSignatureProtection => (s.tasks id).map fun task =>
      { s with processor := (s.evaluate enableBadSignatureProtection task).processor }.setTask id
        none
  | .install policies => some (s.install policies)
  | .deliver succeeds =>
      if 0 < s.pending ∧ s.clearing = false then
        some ({ s with pending := s.pending - 1 }.processWatchItemsCount s.policies.length succeeds)
      else none
  | .clear => if s.clearing then some s.clear else none

/-! ### Decisions -/

def ReadsAllowed (w : World) (s : System) (esProc : EsProcess) : Prop :=
  ∃ policy, s.find w esProc = some policy ∧ policy.base.allowReadAccess = true

inductive Decision where
  | immediate
  | under (policy : Policy)
  | noPolicy

def decision (w : World) (s : System) : Option (AuthMessage × Decision) :=
  match s.stage with
  | .responding m =>
      (immediateResponse s.processor.readsCache .process m.esMsg).map fun _ => (m, .immediate)
  | .looking m => (s.procRuleCache.get m.pid).map fun policy => (m, .under policy)
  | .finding m => match s.find w m.process with
      | some policy => some (m, .under policy)
      | none => some (m, .noPolicy)
  | _ => none

def Decision.Current (w : World) (s : System) (esProc : EsProcess) : Decision → Prop
  | .immediate => ReadsAllowed w s esProc
  | .under policy => s.find w esProc = some policy
  | .noPolicy => s.find w esProc = none

/-- An event whose handling started after the delivery of the last configuration is decided under
    the policy of its process in that configuration. -/
def DecidedNow (w : World) (s : System) : Label → Prop
  | .handle => ∀ m d, decision w s = some (m, d) → m.started = some s.generation →
      d.Current w s m.process
  | _ => True

def Stage.stores : Stage → Option (EsProcess × Policy)
  | .startingToWatch child policy => policy.map fun policy => (child, policy)
  | .caching m policy => some (m.process, policy)
  | _ => none

def StoresNow (w : World) (s : System) (stored : Option (EsProcess × Policy)) : Prop :=
  ∀ esProc policy, stored = some (esProc, policy) → s.find w esProc = some policy

/-- Once the last configuration has been delivered, no policy of an earlier one is stored and no
    read is cached that it does not allow. When the cache is cleared, every process with reads that
    are not allowed now is in it, and a delivery that clears nothing finds nothing. -/
def InTime (w : World) (s : System) : Label → Prop
  | .handle => s.Settled → StoresNow w s s.stage.stores
  | .startWatching id => s.Settled → StoresNow w s (s.probes id)
  | .process id enable => ∀ task, s.tasks id = some task → s.Settled →
      (∃ entry ∈ (s.evaluate enable task).decisions, (allowedRead entry.2 entry.1).isSome = true) →
        ReadsAllowed w s task.m.process
  | .clear => ∀ p file, s.processor.readsCache.contains ⟨p, .process⟩ file = true →
      s.procRuleCache.get p ≠ none ∨ ReadsAllowed w s (w.images p)
  | .deliver _ => s.policies = [] → s.isSubscribed = false →
      (∀ p, s.procRuleCache.get p = none) ∧
        ∀ p file, s.processor.readsCache.contains ⟨p, .process⟩ file = false
  | _ => True

/-! ### What the caches know -/

structure CachesNow (w : World) (s : System) : Prop where
  policies : ∀ p policy, s.procRuleCache.get p = some policy → s.find w (w.images p) = some policy
  reads : ∀ p file, s.processor.readsCache.contains ⟨p, .process⟩ file = true →
    ReadsAllowed w s (w.images p)

structure AuthMessage.Sound (w : World) (s : System) (m : AuthMessage) : Prop where
  image : SameImage m.process (w.images m.pid)
  started : ∀ generation, m.started = some generation →
    generation ≤ s.generation ∧ (generation = s.generation → s.Settled)

def Stage.Sound (w : World) (s : System) : Stage → Prop
  | .idle => True
  | .notifyingExit _ => True
  | .startingToWatch child _ => SameImage child (w.images child.pidAndVersion)
  | .responding m => m.Sound w s
  | .looking m => m.Sound w s
  | .finding m => m.Sound w s
  | .caching m _ => m.Sound w s

structure Inv (w : World) (s : System) : Prop where
  stage : s.stage.Sound w s
  probes : ∀ id esProc policy, s.probes id = some (esProc, policy) →
    SameImage esProc (w.images esProc.pidAndVersion)
  tasks : ∀ id task, s.tasks id = some task →
    SameImage task.m.process (w.images task.m.pid)
  caches : s.Settled → CachesNow w s

theorem inv_start (w : World) : Inv w .start where
  stage := trivial
  probes _ _ _ h := by cases h
  tasks _ _ h := by cases h
  caches _ := by
    refine ⟨fun _ _ h => (by cases h), fun p file cached => ?_⟩
    rw [SantaSetCache.contains_iff] at cached
    simp [System.start, FAAPolicyProcessor.new] at cached

theorem find_image {w : World} {s : System} {esProc : EsProcess} {p : ProcessId}
    (image : SameImage esProc (w.images p)) : s.find w esProc = s.find w (w.images p) :=
  findPolicyForProcess_image image w.certificates s.policies

theorem readsAllowed_image {w : World} {s : System} {esProc : EsProcess} {p : ProcessId}
    (image : SameImage esProc (w.images p)) :
    ReadsAllowed w s esProc ↔ ReadsAllowed w s (w.images p) := by
  unfold ReadsAllowed
  rw [find_image image]

theorem cachesNow_setPolicy {w : World} {s : System} (now : CachesNow w s) {p : ProcessId}
    {policy : Policy} (found : s.find w (w.images p) = some policy) :
    CachesNow w (s.setPolicy p policy) := by
  refine ⟨fun p' policy' cached => ?_, now.reads⟩
  by_cases same : p' = p
  · subst same
    have stored : (s.procRuleCache.set p' (some policy) none).2.get p' = some policy :=
      SantaCache.get_set_self rfl
    rw [show (s.setPolicy p' policy).procRuleCache.get p' = some policy from stored] at cached
    rw [← Option.some.inj cached]
    exact found
  · rcases SantaCache.get_set_other (some policy) none same with kept | ⟨_, gone⟩
    · exact now.policies p' policy' (kept.symm.trans cached)
    · cases gone.symm.trans cached

theorem cachesNow_removePolicy {w : World} {s : System} (now : CachesNow w s) (p : ProcessId) :
    CachesNow w (s.removePolicy p) := by
  refine ⟨fun p' policy cached => ?_, now.reads⟩
  have left : (s.procRuleCache.remove p).get p' = some policy := cached
  rw [SantaCache.get_remove] at left
  split at left
  · cases left
  · exact now.policies p' policy left

theorem cachesNow_exit {w : World} {s : System} (now : CachesNow w s) (p : ProcessId) :
    CachesNow w (s.exit p) :=
  ⟨now.policies, fun p' file cached =>
    now.reads p' file (SantaSetCache.contains_remove.mp cached).2⟩

theorem AuthMessage.Sound.keep {w : World} {s t : System} {m : AuthMessage} (sound : m.Sound w s)
    (later : s.generation ≤ t.generation)
    (settled : t.generation = s.generation → s.Settled → t.Settled) : m.Sound w t := by
  refine ⟨sound.image, fun g start => ?_⟩
  obtain ⟨bound, now⟩ := sound.started g start
  refine ⟨by omega, fun same => ?_⟩
  exact settled (by omega) (now (by omega))

theorem Stage.Sound.keep {w : World} {s t : System} {stage : Stage} (sound : stage.Sound w s)
    (later : s.generation ≤ t.generation)
    (settled : t.generation = s.generation → s.Settled → t.Settled) : stage.Sound w t := by
  cases stage with
  | idle => trivial
  | notifyingExit p => trivial
  | startingToWatch child policy => exact sound
  | responding m => exact AuthMessage.Sound.keep sound later settled
  | looking m => exact AuthMessage.Sound.keep sound later settled
  | finding m => exact AuthMessage.Sound.keep sound later settled
  | caching m policy => exact AuthMessage.Sound.keep sound later settled

structure SameThreads (s t : System) : Prop where
  generation : t.generation = s.generation
  pending : t.pending = s.pending
  clearing : t.clearing = s.clearing
  probes : t.probes = s.probes
  tasks : t.tasks = s.tasks

theorem inv_caches {w : World} {s t : System} (inv : Inv w s) (same : SameThreads s t)
    (stage : t.stage.Sound w s) (caches : s.Settled → CachesNow w t) : Inv w t := by
  have settled : s.Settled ↔ t.Settled := by
    unfold System.Settled
    rw [same.pending, same.clearing]
  refine ⟨stage.keep (Nat.le_of_eq same.generation.symm) fun _ => settled.mp, ?_, ?_,
    fun now => caches (settled.mpr now)⟩
  · rw [same.probes]
    exact inv.probes
  · rw [same.tasks]
    exact inv.tasks

theorem inv_setTask {w : World} {s : System} (inv : Inv w s) (id : Nat) {task : Option Task}
    (new : ∀ added, task = some added →
      SameImage added.m.process (w.images added.m.pid)) : Inv w (s.setTask id task) := by
  refine ⟨inv.stage.keep (Nat.le_refl _) fun _ now => now, inv.probes, fun id' task' here => ?_,
    fun now => ?_⟩
  · simp only [System.setTask] at here
    split at here
    · exact new task' here
    · exact inv.tasks id' task' here
  · exact ⟨(inv.caches now).policies, (inv.caches now).reads⟩

theorem inv_setProbe {w : World} {s : System} (inv : Inv w s) (id : Nat)
    {probe : Option (EsProcess × Policy)}
    (new : ∀ esProc policy, probe = some (esProc, policy) →
      SameImage esProc (w.images esProc.pidAndVersion)) : Inv w (s.setProbe id probe) := by
  refine ⟨inv.stage.keep (Nat.le_refl _) fun _ now => now, fun id' esProc policy here => ?_,
    inv.tasks, fun now => ?_⟩
  · simp only [System.setProbe] at here
    split at here
    · exact new esProc policy here
    · exact inv.probes id' esProc policy here
  · exact ⟨(inv.caches now).policies, (inv.caches now).reads⟩

theorem inv_goTo {w : World} {s : System} (inv : Inv w s) {stage : Stage}
    (sound : stage.Sound w s) : Inv w (s.goTo stage) :=
  inv_caches inv ⟨rfl, rfl, rfl, rfl, rfl⟩ sound fun now =>
    ⟨(inv.caches now).policies, (inv.caches now).reads⟩

theorem inv_setPolicy {w : World} {s : System} (inv : Inv w s) {esProc : EsProcess}
    {policy : Policy} (image : SameImage esProc (w.images esProc.pidAndVersion))
    (inTime : s.Settled → StoresNow w s (some (esProc, policy))) :
    Inv w (s.setPolicy esProc.pidAndVersion policy) := by
  refine inv_caches inv ⟨rfl, rfl, rfl, rfl, rfl⟩ inv.stage fun now => ?_
  have found : s.find w esProc = some policy := inTime now esProc policy rfl
  rw [find_image image] at found
  exact cachesNow_setPolicy (inv.caches now) found

theorem inv_removePolicy {w : World} {s : System} (inv : Inv w s) (p : ProcessId) :
    Inv w (s.removePolicy p) :=
  inv_caches inv ⟨rfl, rfl, rfl, rfl, rfl⟩ inv.stage fun now =>
    cachesNow_removePolicy (inv.caches now) p

theorem inv_exit {w : World} {s : System} (inv : Inv w s) (p : ProcessId) : Inv w (s.exit p) :=
  inv_caches inv ⟨rfl, rfl, rfl, rfl, rfl⟩ inv.stage fun now => cachesNow_exit (inv.caches now) p

theorem inv_processLater {w : World} {s : System} (inv : Inv w s) {m : AuthMessage}
    (sound : m.Sound w s) (policy : Policy) : Inv w (s.processLater m policy) := by
  refine inv_goTo (inv_setTask inv m.id ?_) trivial
  intro added new
  rw [← Option.some.inj new]
  exact sound.image

/-! ### Every step -/

theorem inv_handleMessage {w : World} {s t : System} {msg : Message}
    {overrideAction : SNTOverrideFileAccessAction} (inv : Inv w s)
    (h : s.handleMessage w overrideAction msg = some t) : Inv w t := by
  unfold System.handleMessage at h
  split at h
  · cases h
    exact inv
  · cases msg with
    | notifyExec p =>
      cases h
      exact inv_goTo (inv_removePolicy inv p) trivial
    | notifyFork parent child =>
      simp only at h
      split at h
      · rename_i images
        cases h
        exact inv_goTo inv images.2.2
      · cases h
    | notifyExit p =>
      cases h
      exact inv_goTo (inv_removePolicy inv p) trivial
    | auth id esMsg =>
      simp only at h
      split at h
      · rename_i accepted
        cases h
        refine inv_goTo inv ⟨accepted.2.2, fun generation started => ?_⟩
        dsimp only at started
        split at started
        · rename_i settled
          cases started
          exact ⟨Nat.le_refl _, fun _ => settled⟩
        · cases started
      · cases h

theorem inv_handle {w : World} {s t : System} (inv : Inv w s)
    (inTime : s.Settled → StoresNow w s s.stage.stores) (h : s.handle w = some t) : Inv w t := by
  have sound := inv.stage
  unfold System.handle at h
  cases stage : s.stage with
  | idle =>
    rw [stage] at h
    cases h
  | notifyingExit p =>
    rw [stage] at h
    cases h
    exact inv_goTo (inv_exit inv p) trivial
  | startingToWatch child policy =>
    rw [stage] at h sound inTime
    cases policy with
    | none =>
      cases h
      exact inv_goTo inv trivial
    | some policy =>
      cases h
      exact inv_goTo (inv_setPolicy inv sound inTime) trivial
  | responding m =>
    rw [stage] at h sound
    cases h
    split
    · exact inv_goTo inv trivial
    · exact inv_goTo inv sound
  | looking m =>
    rw [stage] at h sound
    cases h
    split
    · exact inv_processLater inv sound _
    · exact inv_goTo inv sound
  | finding m =>
    rw [stage] at h sound
    cases h
    split
    · exact inv_goTo inv sound
    · exact inv_goTo (inv_exit inv _) trivial
  | caching m policy =>
    rw [stage] at h sound inTime
    cases h
    exact inv_processLater (inv_setPolicy inv sound.image inTime)
      (sound.keep (Nat.le_refl _) fun _ now => now) policy

theorem inv_process {w : World} {s : System} {id : Nat} {task : Task} {enable : Bool}
    (inv : Inv w s) (here : s.tasks id = some task)
    (inTime : s.Settled →
      (∃ entry ∈ (s.evaluate enable task).decisions, (allowedRead entry.2 entry.1).isSome = true) →
        ReadsAllowed w s task.m.process) :
    Inv w { s with processor := (s.evaluate enable task).processor } := by
  refine inv_caches inv ⟨rfl, rfl, rfl, rfl, rfl⟩ inv.stage fun now => ?_
  refine ⟨(inv.caches now).policies, fun p file cached => ?_⟩
  rcases contains_processMessage cached with old | ⟨key, entry, member, read⟩
  · exact (inv.caches now).reads p file old
  · have same : p = task.m.pid := congrArg ReadsCacheKey.pidAndVersion key
    have allowed : ReadsAllowed w s task.m.process := inTime now ⟨entry, member, by rw [read]; rfl⟩
    rw [same]
    exact (readsAllowed_image (inv.tasks id task here)).mp allowed

theorem reads_exits {processor : FAAPolicyProcessor} {ps : List ProcessId} {p : ProcessId}
    {file : Nat × Nat}
    (cached : (ps.foldl (fun processor p => notifyExit processor .process p)
      processor).readsCache.contains ⟨p, .process⟩ file = true) :
    p ∉ ps ∧ processor.readsCache.contains ⟨p, .process⟩ file = true := by
  induction ps generalizing processor with
  | nil => exact ⟨List.not_mem_nil, cached⟩
  | cons q ps ih =>
    obtain ⟨later, kept⟩ := ih cached
    obtain ⟨other, old⟩ := SantaSetCache.contains_remove.mp kept
    refine ⟨fun member => ?_, old⟩
    rcases List.mem_cons.mp member with head | tail
    · exact other (by rw [head])
    · exact later tail

theorem cachesNow_clear {w : World} {s : System} (inTime : InTime w s .clear) :
    CachesNow w s.clear := by
  refine ⟨fun p policy cached => (by cases cached), fun p file cached => ?_⟩
  obtain ⟨absent, old⟩ := reads_exits cached
  exact (inTime p file old).resolve_left fun present => absent (SantaCache.mem_keys present)

theorem inv_unsettled {w : World} {s t : System} (inv : Inv w s) (stage : t.stage = s.stage)
    (probes : t.probes = s.probes) (tasks : t.tasks = s.tasks)
    (later : s.generation ≤ t.generation) (changed : t.generation = s.generation → ¬ s.Settled)
    (caches : t.Settled → CachesNow w t) : Inv w t := by
  refine ⟨?_, ?_, ?_, caches⟩
  · rw [stage]
    exact inv.stage.keep later fun same settled => absurd settled (changed same)
  · rw [probes]
    exact inv.probes
  · rw [tasks]
    exact inv.tasks

theorem inv_deliver {w : World} {s : System} {succeeds : Bool} (inv : Inv w s)
    (inTime : InTime w s (.deliver succeeds)) (pending : 0 < s.pending) :
    Inv w ({ s with pending := s.pending - 1 }.processWatchItemsCount s.policies.length
      succeeds) := by
  have unsettled : ¬ s.Settled := fun settled => by
    have none := settled.1
    omega
  unfold System.processWatchItemsCount System.enable System.disable
  split
  · refine inv_unsettled inv rfl rfl rfl (Nat.le_refl _) (fun _ => unsettled) fun settled => ?_
    cases settled.2
  · rename_i none
    split
    · refine inv_unsettled inv rfl rfl rfl (Nat.le_refl _) (fun _ => unsettled) fun settled => ?_
      cases settled.2
    · rename_i unsubscribed
      obtain ⟨empty, unread⟩ := inTime (List.length_eq_zero_iff.mp (by omega))
        (by simpa using unsubscribed)
      refine inv_unsettled inv rfl rfl rfl (Nat.le_refl _) (fun _ => unsettled) fun _ => ?_
      refine ⟨fun p policy cached => ?_, fun p file cached => ?_⟩
      · cases (empty p).symm.trans cached
      · cases (unread p file).symm.trans cached

theorem inv_step {w : World} {s t : System} {l : Label} (inv : Inv w s) (inTime : InTime w s l)
    (h : step w s l = some t) : Inv w t := by
  cases l with
  | message overrideAction msg =>
    simp only [step] at h
    split at h
    · exact inv_handleMessage inv h
    · cases h
  | handle => exact inv_handle inv inTime h
  | probe id target =>
    simp only [step] at h
    split at h
    · rename_i accepted
      split at h
      · cases h
        split
        · refine inv_setProbe inv id fun esProc policy new => ?_
          cases new
          exact accepted.2
        · exact inv
      · cases h
        exact inv
    · cases h
  | startWatching id =>
    obtain ⟨⟨target, policy⟩, here, same⟩ := Option.map_eq_some_iff.mp h
    rw [← same]
    have stores : s.Settled → StoresNow w s (some (target, policy)) := by
      rw [← here]
      exact inTime
    refine inv_setProbe (inv_setPolicy inv (inv.probes id _ _ here) stores) id ?_
    intro esProc policy new
    cases new
  | process id enable =>
    obtain ⟨task, here, same⟩ := Option.map_eq_some_iff.mp h
    rw [← same]
    refine inv_setTask (inv_process inv here (inTime task here)) id ?_
    intro added new
    cases new
  | install policies =>
    cases h
    refine inv_unsettled inv rfl rfl rfl (Nat.le_succ _) (fun same => ?_) fun settled => ?_
    · exact absurd same (Nat.succ_ne_self _)
    · cases settled.1
  | deliver succeeds =>
    simp only [step] at h
    split at h
    · rename_i accepted
      cases h
      exact inv_deliver inv inTime accepted.1
    · cases h
  | clear =>
    simp only [step] at h
    split at h
    · rename_i clearing
      cases h
      refine inv_unsettled inv rfl rfl rfl (Nat.le_refl _) (fun _ settled => ?_) fun _ => ?_
      · rw [settled.2] at clearing
        cases clearing
      · exact cachesNow_clear inTime
    · cases h

/-! ### Decisions of a run -/

theorem started_settled {w : World} {s : System} {m : AuthMessage} (sound : m.Sound w s)
    (started : m.started = some s.generation) : s.Settled :=
  (sound.started _ started).2 rfl

theorem immediate_cached {readsCache : ReadsCache} {clientType : FAAClientType}
    {esMsg : FileMessage} {result : ESResult}
    (immediate : immediateResponse readsCache clientType esMsg = some result) :
    ∃ file, readsCache.contains ⟨esMsg.process.pidAndVersion, clientType⟩ file = true := by
  unfold immediateResponse at immediate
  split at immediate
  · split at immediate
    · rename_i cached
      exact ⟨_, (Bool.and_eq_true_iff.mp cached).2⟩
    · cases immediate
  · cases immediate

theorem decided_of_inv {w : World} {s : System} (inv : Inv w s) (l : Label) : DecidedNow w s l := by
  cases l with
  | handle =>
    intro m d decided started
    have sound := inv.stage
    unfold decision at decided
    cases stage : s.stage with
    | idle =>
      rw [stage] at decided
      cases decided
    | notifyingExit p =>
      rw [stage] at decided
      cases decided
    | startingToWatch child policy =>
      rw [stage] at decided
      cases decided
    | responding m' =>
      rw [stage] at decided sound
      obtain ⟨result, immediate, same⟩ := Option.map_eq_some_iff.mp decided
      cases same
      have now := inv.caches (started_settled sound started)
      obtain ⟨file, cached⟩ := immediate_cached immediate
      exact (readsAllowed_image sound.image).mpr (now.reads _ file cached)
    | looking m' =>
      rw [stage] at decided sound
      obtain ⟨policy, cached, same⟩ := Option.map_eq_some_iff.mp decided
      cases same
      have now := inv.caches (started_settled sound started)
      exact (find_image sound.image).trans (now.policies _ policy cached)
    | finding m' =>
      rw [stage] at decided
      dsimp only at decided
      split at decided
      · rename_i policy found
        cases decided
        exact found
      · rename_i missing
        cases decided
        exact missing
    | caching m' policy =>
      rw [stage] at decided
      cases decided
  | message overrideAction msg => trivial
  | probe id target => trivial
  | startWatching id => trivial
  | process id enable => trivial
  | install policies => trivial
  | deliver succeeds => trivial
  | clear => trivial

/-- In every run whose steps are in time, each event whose handling started after the delivery of
    the last configuration is decided under the policy of its process in that configuration. -/
theorem decided_under_current (w : World) (run : List Label)
    (inTime : Runs.Meets (step w) (InTime w) .start run) :
    Runs.Meets (step w) (DecidedNow w) .start run :=
  @Runs.meets_of_meets _ _ _ _ _ (Inv w) (fun _ l inv _ => decided_of_inv inv l)
    (fun _ _ _ inv ok h => inv_step inv ok h) _ (inv_start w) _ inTime

/-! ### Runs -/

def catImage (p : ProcessId) : EsProcess :=
  ⟨p, 0, false, none, none, List.replicate 20 0, ⟨"/bin/cat", false, 1, 7⟩⟩

def catWorld : World := ⟨⟨fun _ => none, fun _ => none⟩, catImage⟩

def catPolicy (allowReadAccess : Bool) : Policy where
  base := ⟨allowReadAccess, false, .processesWithAllowedPaths,
    [⟨"/bin/cat", "", "", [], "", false, none⟩]⟩
  pathTypePairs := []
  tree := []

def catReads (p : ProcessId) : Label :=
  .message .none (.auth 0 ⟨catImage p, .authOpen ⟨"/private/etc/sudoers", false, 1, 42⟩ 1⟩)

def readsTwice : List Label :=
  [.install [catPolicy true], .deliver true, .clear, catReads (7, 1), .handle, .handle, .handle,
    .handle, .process 0 true, catReads (7, 1), .handle]

theorem find_catPolicy {s : System} {allowReadAccess : Bool}
    (policies : s.policies = [catPolicy allowReadAccess]) (p : ProcessId) :
    s.find catWorld (catImage p) = some (catPolicy allowReadAccess) := by
  unfold System.find findPolicyForProcess matchesProcess
  rw [policies]
  simp [catPolicy, policyMatchesProcess, needsSignature, binaryPathMatches, catImage,
    CS_CDHASH_LEN]

theorem readsTwice_inTime :
    Runs.Meets (step catWorld) (InTime catWorld) .start readsTwice := by
  refine (Runs.meets_cons rfl).mp ⟨trivial, ?_⟩
  refine (Runs.meets_cons rfl).mp ⟨fun unwatched => (by cases unwatched), ?_⟩
  refine (Runs.meets_cons rfl).mp ⟨fun p file _ => ?_, ?_⟩
  · exact .inr ⟨_, find_catPolicy rfl p, rfl⟩
  refine (Runs.meets_cons rfl).mp ⟨trivial, ?_⟩
  refine (Runs.meets_cons rfl).mp ⟨fun _ _ _ stored => (by cases stored), ?_⟩
  refine (Runs.meets_cons rfl).mp ⟨fun _ _ _ stored => (by cases stored), ?_⟩
  refine (Runs.meets_cons rfl).mp ⟨fun _ _ _ stored => (by cases stored), ?_⟩
  refine (Runs.meets_cons rfl).mp ⟨fun _ esProc policy stored => ?_, ?_⟩
  · cases stored
    exact find_catPolicy rfl _
  refine (Runs.meets_cons rfl).mp ⟨fun task here _ _ => ?_, ?_⟩
  · cases here
    exact ⟨_, find_catPolicy rfl _, rfl⟩
  refine (Runs.meets_cons rfl).mp ⟨trivial, ?_⟩
  exact (Runs.meets_cons rfl).mp ⟨fun _ _ _ stored => (by cases stored), trivial⟩

theorem readsTwice_decided :
    Runs.Meets (step catWorld) (DecidedNow catWorld) .start readsTwice :=
  decided_under_current catWorld readsTwice readsTwice_inTime

def forkedRun : List Label :=
  [.install [catPolicy true], .deliver true, .clear, .probe 0 (catImage (7, 1)), .startWatching 0,
    .message .none (.notifyFork (catImage (7, 1)) (catImage (8, 1))), .install [catPolicy false],
    .deliver true, .clear, .handle, catReads (8, 1), .handle]

/-- The child keeps the policy of the earlier configuration. -/
theorem forked_keeps_old_policy :
    ¬ Runs.Meets (step catWorld) (DecidedNow catWorld) .start (forkedRun ++ [.handle]) := by
  intro meets
  have facts : (Runs.run (step catWorld) .start forkedRun).map (fun t =>
      (t.policies, t.generation, t.stage, t.procRuleCache.get (8, 1))) =
      some ([catPolicy false], 2, .looking ⟨0, ⟨catImage (8, 1),
        .authOpen ⟨"/private/etc/sudoers", false, 1, 42⟩ 1⟩, .none, some 2⟩,
        some (catPolicy true)) := by
    decide +kernel
  obtain ⟨t, ends, facts⟩ := Option.map_eq_some_iff.mp facts
  simp only [Prod.mk.injEq] at facts
  obtain ⟨policies, generation, stage, cached⟩ := facts
  obtain ⟨u, last⟩ : ∃ u, step catWorld t .handle = some u := by
    unfold step System.handle
    rw [stage]
    exact ⟨_, rfl⟩
  have decided := Runs.meets_last meets ends last
  have current := decided _ (.under (catPolicy true))
    (by unfold decision; rw [stage]; exact Option.map_eq_some_iff.mpr ⟨_, cached, rfl⟩)
    (by rw [generation])
  have found := (find_catPolicy policies (8, 1)).symm.trans current
  cases found

end SantaProcFAA
