import Santa.FileAccess.DataFileAccessAuthorizer

/-!
Whether an answer from the cache of reads is the one that the policies in force
would give. The cache knows the process and the file. What it does not know is
the path by which the file was read, which reload the policy was from, and
whether the signature of the process has become invalid since.
-/
namespace SantaReadsCache
open SantaExec (AuthResult ProcessId)
open SantaPathTargets SantaFAA SantaDataFAA

/-! ### What tasks and cached reads know of the policies in force -/

def FoundUnder (policies : String → Option WatchItemPolicy) (now : Nat) (task : Task) : Prop :=
  ∀ pairs generation, task.found = some (pairs, generation) → generation ≤ now ∧
    (generation = now → ∀ pair ∈ pairs, pair.2 = policies pair.1.path)

def ReadUnder (policies : String → Option WatchItemPolicy) (now : Nat) (read : CachedRead) : Prop :=
  read.generation ≤ now ∧ (read.generation = now →
    ∃ policy, policies read.path = some policy ∧ policy.allowReadAccess = true)

theorem foundUnder_reload {old new : String → Option WatchItemPolicy} {now : Nat} {task : Task}
    (h : FoundUnder old now task) : FoundUnder new (now + 1) task := by
  intro pairs generation found
  have bound := (h pairs generation found).1
  exact ⟨by omega, fun same => by omega⟩

theorem readUnder_reload {old new : String → Option WatchItemPolicy} {now : Nat}
    {read : CachedRead} (h : ReadUnder old now read) : ReadUnder new (now + 1) read := by
  have bound := h.1
  exact ⟨by omega, fun same => by omega⟩

structure Inv (s : System) : Prop where
  tasks : ∀ id task, s.tasks id = some task → FoundUnder s.world.policies s.generation task
  reads : ∀ read ∈ s.reads, ReadUnder s.world.policies s.generation read

theorem foundUnder_lookup (policies : String → Option WatchItemPolicy) (now : Nat)
    (esMsg : FileMessage) (overrideAction : SNTOverrideFileAccessAction) :
    FoundUnder policies now
      ⟨esMsg, overrideAction, some (findPoliciesForTargets policies esMsg.event, now)⟩ := by
  intro pairs generation found
  obtain ⟨targets, same⟩ := Prod.mk.inj (Option.some.inj found)
  rw [← targets, ← same]
  refine ⟨Nat.le_refl now, ?_⟩
  intro _ pair member
  obtain ⟨target, _, made⟩ := List.mem_map.mp member
  rw [← made]

theorem readUnder_process {policies : String → Option WatchItemPolicy} {now generation : Nat}
    {task : Task} {pairs : List TargetPolicyPair} {read : CachedRead}
    (h : FoundUnder policies now task) (found : task.found = some (pairs, generation))
    {decisions : List (TargetPolicyPair × FileAccessPolicyDecision)}
    (targets : ∀ entry ∈ decisions, entry.1 ∈ pairs)
    (cached : read ∈ cachedReads task.esMsg generation decisions) :
    ReadUnder policies now read := by
  obtain ⟨entry, member, allowed, _, path, same⟩ := mem_cachedReads.mp cached
  obtain ⟨policy, _, isPolicy, allows, _, _⟩ := allowedRead_some allowed
  obtain ⟨bound, inForce⟩ := h pairs generation found
  rw [ReadUnder, same, path]
  refine ⟨bound, ?_⟩
  intro current
  refine ⟨policy, ?_, allows⟩
  rw [← inForce current entry.1 (targets entry member), isPolicy]

theorem tasks_setTask {s : System} {id : Nat} {task : Option Task} {property : Task → Prop}
    (old : ∀ id task, s.tasks id = some task → property task)
    (new : ∀ added, task = some added → property added) :
    ∀ id' task', (s.setTask id task).tasks id' = some task' → property task' := by
  intro id' task' here
  simp only [System.setTask] at here
  split at here
  · exact new task' here
  · exact old id' task' here

theorem inv_start (world : World) : Inv (.start world) :=
  ⟨fun _ _ here => (nomatch here), fun _ member => nomatch member⟩

theorem inv_step {s t : System} {l : Label} (inv : Inv s) (h : step s l = some t) : Inv t := by
  cases l with
  | message id esMsg =>
    rcases step_message h with same | same | same
    · rw [same]
      exact inv
    · rw [same]
      exact ⟨inv.tasks, inv.reads⟩
    · rw [same]
      refine ⟨tasks_setTask inv.tasks ?_, inv.reads⟩
      intro added new
      rw [← Option.some.inj new]
      exact fun _ _ found => nomatch found
  | lookup id =>
    obtain ⟨esMsg, overrideAction, _, same⟩ := step_lookup h
    rw [same]
    refine ⟨tasks_setTask inv.tasks ?_, inv.reads⟩
    intro added new
    rw [← Option.some.inj new]
    exact foundUnder_lookup s.world.policies s.generation esMsg overrideAction
  | process id =>
    obtain ⟨esMsg, overrideAction, pairs, generation, here, same⟩ := step_process h
    rw [same]
    refine ⟨tasks_setTask inv.tasks (fun _ new => nomatch new), ?_⟩
    intro read member
    rcases List.mem_append.mp member with new | old
    · exact readUnder_process (inv.tasks id _ here) rfl (fun _ => decided_target) new
    · exact inv.reads read old
  | processClient overrideAction esMsg pairs inTree =>
    rw [← Option.some.inj h]
    exact ⟨inv.tasks, inv.reads⟩
  | processClientExit p =>
    rw [← Option.some.inj h]
    exact ⟨inv.tasks, inv.reads⟩
  | reload policies =>
    rw [← Option.some.inj h]
    exact ⟨fun id task here => foundUnder_reload (inv.tasks id task here),
      fun read member => readUnder_reload (inv.reads read member)⟩
  | watchItemsCount count =>
    rw [← Option.some.inj h]
    exact ⟨inv.tasks, inv.reads⟩
  | configure overrideFileAccessAction enableBadSignatureProtection =>
    rw [← Option.some.inj h]
    exact ⟨inv.tasks, inv.reads⟩
  | sign certificates =>
    rw [← Option.some.inj h]
    exact ⟨inv.tasks, inv.reads⟩

/-! ### The immediate answer and the full one -/

def Immediate (s : System) (esMsg : FileMessage) : Prop :=
  ∃ result, handleMessage s.processor.readsCache s.world.overrideFileAccessAction esMsg =
    .immediate result

def Agrees (s : System) (l : Label) : Prop :=
  ∀ id esMsg, l = .message id esMsg → Immediate s esMsg →
    (s.fullProcessing esMsg).authResult = .allow

def signatureRejected (s : System) (esMsg : FileMessage) : Bool :=
  hasInvalidSignature esMsg.process && s.world.enableBadSignatureProtection

def CachedHere (s : System) (esMsg : FileMessage) : Prop :=
  ∃ target file, target ∈ pathTargets esMsg.event ∧ target.unsafeFile = some file ∧
    ⟨readsCacheKey .data esMsg, (file.stDev, file.stIno), target.path, s.generation⟩ ∈ s.reads

def Permits (s : System) (esMsg : FileMessage) : Prop :=
  s.world.overrideFileAccessAction ≠ .none ∨
    ∀ target ∈ pathTargets esMsg.event, ∀ policy, s.world.policies target.path = some policy →
      LetsThrough s.world.enableBadSignatureProtection
        (checkProcesses s.world.certificates esMsg.process) esMsg target
        s.processor.certHashCache policy

/-- A read that was cached before the last reload or by another path, or whose process has an
    invalid signature by now, is answered from the cache only where the policies permit it. -/
def StaleReadsPermitted (s : System) (l : Label) : Prop :=
  ∀ id esMsg, l = .message id esMsg → Immediate s esMsg →
    (CachedHere s esMsg ∧ signatureRejected s esMsg = false) ∨ Permits s esMsg

theorem immediate_open {s : System} {esMsg : FileMessage} (h : Immediate s esMsg) :
    ∃ file fflag, esMsg.event = .authOpen file fflag ∧ opensForWrite fflag = false := by
  obtain ⟨result, handled⟩ := h
  unfold handleMessage at handled
  split at handled
  · split at handled <;> cases handled
  split at handled
  · cases handled
  split at handled
  · rename_i result answered
    unfold immediateResponse at answered
    split at answered
    · rename_i file fflag event
      split at answered
      · rename_i cached
        rw [Bool.and_eq_true, Bool.not_eq_true'] at cached
        exact ⟨file, fflag, event, cached.1⟩
      · cases answered
    · cases answered
  · cases handled

theorem decision_permits {s : System} {esMsg : FileMessage} {target : PathTarget} :
    isBlockDecision (processTargetAndPolicy s.world.enableBadSignatureProtection
      (checkProcesses s.world.certificates esMsg.process) s.world.overrideFileAccessAction esMsg
      (target, s.world.policies target.path) s.processor.certHashCache).1 = false ↔
      s.world.overrideFileAccessAction ≠ .none ∨
        ∀ policy, s.world.policies target.path = some policy →
          LetsThrough s.world.enableBadSignatureProtection
            (checkProcesses s.world.certificates esMsg.process) esMsg target
            s.processor.certHashCache policy := by
  simp only [processTargetAndPolicy]
  rw [← Bool.not_eq_true, override_blocks, not_and_or, Bool.not_eq_true]
  refine or_congr Iff.rfl ?_
  cases s.world.policies target.path with
  | none => simp [applyPolicy, isBlockDecision]
  | some policy =>
    rw [applyPolicy_allows]
    simp

theorem fullProcessing_allows {s : System} {esMsg : FileMessage} {file : EsFile}
    {fflag : BitVec 32} (event : esMsg.event = .authOpen file fflag) :
    (s.fullProcessing esMsg).authResult = .allow ↔ Permits s esMsg := by
  unfold System.fullProcessing System.evaluate Permits findPoliciesForTargets
  rw [event, pathTargets]
  cases truncated : file.pathTruncated with
  | true =>
    rw [fileIfNotTruncated, if_pos truncated]
    simp [processMessage]
  | false =>
    rw [fileIfNotTruncated, if_neg (by simp [truncated]), List.map_singleton,
      processMessage_single, toESAuthResult_allow, decision_permits]
    simp

theorem cachedHere_permits {s : System} {esMsg : FileMessage} (inv : Inv s)
    (immediate : Immediate s esMsg) (cached : CachedHere s esMsg)
    (accepted : signatureRejected s esMsg = false) : Permits s esMsg := by
  obtain ⟨file, fflag, event, reads⟩ := immediate_open immediate
  obtain ⟨target, _, member, _, recorded⟩ := cached
  obtain ⟨policy, found, allows⟩ := (inv.reads _ recorded).2 rfl
  refine .inr ?_
  intro target' member' policy' found'
  have same : target' = target := by
    rw [event, pathTargets, fileIfNotTruncated] at member member'
    split at member
    · exact nomatch member
    · rename_i whole
      rw [if_neg whole] at member'
      rw [List.mem_singleton.mp member, List.mem_singleton.mp member']
  subst same
  have known : s.world.policies target'.path = some policy := found
  rw [found', Option.some.injEq] at known
  subst known
  refine ⟨accepted, .inl ?_⟩
  simp [policyAllowsReadsForTarget, event, allows, reads]

theorem agrees_iff {s : System} {l : Label} (inv : Inv s) :
    Agrees s l ↔ StaleReadsPermitted s l := by
  unfold Agrees StaleReadsPermitted
  refine forall_congr' fun id => forall_congr' fun esMsg => imp_congr_right fun _ =>
    imp_congr_right fun immediate => ?_
  obtain ⟨file, fflag, event, _⟩ := immediate_open immediate
  rw [fullProcessing_allows event]
  constructor
  · exact .inr
  · rintro (⟨cached, accepted⟩ | permits)
    · exact cachedHere_permits inv immediate cached accepted
    · exact permits

/-- In every run: whatever is answered from the cache of reads, full processing would allow,
    exactly when each such answer to a stale read is one that the policies permit. -/
theorem fast_path_agrees_iff (world : World) (run : List Label) :
    Runs.Meets step Agrees (.start world) run ↔
      Runs.Meets step StaleReadsPermitted (.start world) run :=
  Runs.meets_iff (fun _ _ => agrees_iff) (fun _ _ _ => inv_step) (inv_start world) run

/-! ### A read that outlives its policy -/

def readOnlyPolicy : WatchItemPolicy := ⟨true, false, .pathsWithAllowedProcesses, []⟩

def sudoersFile : EsFile := ⟨"/private/etc/sudoers", false, 1, 42⟩

def catProcess : EsProcess :=
  ⟨(501, 1), 0, false, none, none, List.replicate 20 0, ⟨"/bin/cat", false, 1, 7⟩⟩

def readSudoers : FileMessage := ⟨catProcess, .authOpen sudoersFile 1⟩

def policyFor (policy : WatchItemPolicy) (path : String) : Option WatchItemPolicy :=
  if path = sudoersFile.path then some policy else none

def readableWorld : World :=
  ⟨policyFor readOnlyPolicy, .none, true, ⟨fun _ => none, fun _ => none⟩⟩

def reloadedRun : List Label :=
  [.watchItemsCount 1, .message 1 readSudoers, .lookup 1, .process 1,
    .reload (policyFor { readOnlyPolicy with allowReadAccess := false }), .watchItemsCount 1]

theorem stale_read_allowed :
    ¬ Runs.Meets step Agrees (.start readableWorld) (reloadedRun ++ [.message 2 readSudoers]) := by
  intro meets
  have facts : (Runs.run step (.start readableWorld) reloadedRun).map (fun t =>
      ((step t (.message 2 readSudoers)).isSome,
        handleMessage t.processor.readsCache t.world.overrideFileAccessAction readSudoers,
        (t.fullProcessing readSudoers).authResult)) =
      some (true, .immediate ⟨.allow, false⟩, .deny) := by
    decide
  obtain ⟨t, ends, facts⟩ := Option.map_eq_some_iff.mp facts
  simp only [Prod.mk.injEq] at facts
  obtain ⟨accepted, immediate, full⟩ := facts
  obtain ⟨u, last⟩ := Option.isSome_iff_exists.mp accepted
  have agrees := Runs.meets_last meets ends last 2 readSudoers rfl ⟨_, immediate⟩
  rw [full] at agrees
  exact nomatch agrees

end SantaReadsCache
