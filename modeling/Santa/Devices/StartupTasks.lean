import Santa.Library.Runs
import Santa.Devices.RemountFlags

/-!
Disks that are mounted when the daemon starts. One loop unmounts them and mounts
them again, and waits after each request on one semaphore that every callback
signals, with or without a dissenter and however late. A disk is named by its
index in the list of mounts; which requests completed without a dissenter is
kept beside the state.
-/
namespace SantaStartup
open SantaRemount

inductive StartupPreferences where
  | none
  | unmount
  | forceUnmount
  | remount
  | forceRemount
  deriving DecidableEq, Repr

/-- Without a reference to the device the mount is passed over. -/
structure Mount where
  sfs : StatFS
  disk : Option (Option DiskInfo)
  deriving DecidableEq, Repr

structure Settings where
  blockUSBMount : Bool
  startupPrefs : StartupPreferences
  remountArgs : List String
  mounts : List Mount

namespace Settings

def operates (c : Settings) : Bool := c.blockUSBMount && c.startupPrefs != .none

def remounts (c : Settings) : Bool :=
  c.startupPrefs == .remount || c.startupPrefs == .forceRemount

def forces (c : Settings) : Bool :=
  c.startupPrefs == .forceUnmount || c.startupPrefs == .forceRemount

def leavesUnmounted (c : Settings) : Bool := c.remounts && !haveRemountArgs c.remountArgs

end Settings

inductive Operation where
  | unmount
  | remount
  deriving DecidableEq, Repr

inductive Request where
  | unmount (force : Bool)
  | mount (args : List String)
  deriving DecidableEq, Repr

def Request.operation : Request → Operation
  | .unmount _ => .unmount
  | .mount _ => .remount

inductive StartupDiskOperation where
  | skip
  | allowed
  | unmountFailed
  | remountFailed
  | remountSkipped
  | success
  deriving DecidableEq, Repr

inductive Phase where
  | between
  | waiting (operation : Operation)
  deriving DecidableEq, Repr

structure Startup where
  index : Nat
  phase : Phase
  semaphore : Nat
  asked : List (Nat × Request)
  pending : List (Nat × Operation)
  completed : List (Nat × Operation)
  metrics : List (Nat × StartupDiskOperation)
  deriving DecidableEq, Repr

def Startup.new : Startup := ⟨0, .between, 0, [], [], [], []⟩

def Startup.count (s : Startup) (operation : StartupDiskOperation) : Startup :=
  { s with
    metrics := (s.index, operation) :: s.metrics
    index := s.index + 1
    phase := .between }

def Startup.ask (s : Startup) (request : Request) : Startup :=
  { s with
    asked := (s.index, request) :: s.asked
    pending := (s.index, request.operation) :: s.pending
    phase := .waiting request.operation }

/-- A callback comes with its disk, and with a dissenter or without. -/
inductive Label where
  | next
  | callback (disk : Nat) (operation : Operation) (dissent : Bool)
  | wake
  | timeout
  deriving DecidableEq, Repr

def next (c : Settings) (s : Startup) : Option Startup :=
  if s.phase = .between ∧ c.operates then
    c.mounts[s.index]?.map fun mount =>
      match mount.disk with
      | none => { s with index := s.index + 1 }
      | some disk =>
          if shouldOperateOnDisk disk then
            if remountUSBModeContainsFlags c.remountArgs mount.sfs.f_flags then s.count .allowed
            else s.ask (.unmount c.forces)
          else s.count .skip
  else none

def callback (s : Startup) (disk : Nat) (operation : Operation) (dissent : Bool) :
    Option Startup :=
  if (disk, operation) ∈ s.pending then
    some { s with
      semaphore := s.semaphore + 1
      pending := s.pending.erase (disk, operation)
      completed := if dissent then s.completed else (disk, operation) :: s.completed }
  else none

def newMode (c : Settings) (s : Startup) : List String :=
  (c.mounts[s.index]?.map fun mount =>
    maskToMountArgs (updatedMountFlags c.remountArgs mount.sfs)).getD []

def wake (c : Settings) (s : Startup) : Option Startup :=
  if s.semaphore = 0 then none
  else
    let s := { s with semaphore := s.semaphore - 1 }
    match s.phase with
    | .between => none
    | .waiting .unmount =>
        if c.remounts then
          if haveRemountArgs c.remountArgs then some (s.ask (.mount (newMode c s)))
          else some (s.count .remountSkipped)
        else some (s.count .success)
    | .waiting .remount => some (s.count .success)

def timeout (s : Startup) : Option Startup :=
  if s.semaphore = 0 then
    match s.phase with
    | .between => none
    | .waiting .unmount => some (s.count .unmountFailed)
    | .waiting .remount => some (s.count .remountFailed)
  else none

def step (c : Settings) (s : Startup) : Label → Option Startup
  | .next => next c s
  | .callback disk operation dissent => callback s disk operation dissent
  | .wake => wake c s
  | .timeout => timeout s

/-! ### Disks handled on their own account -/

/-- A remount was started only for a disk that was unmounted itself, and a disk counts as handled
    only if what was wanted for it was done to it. -/
structure OwnAccount (c : Settings) (s : Startup) : Prop where
  remounted : ∀ disk args, (disk, Request.mount args) ∈ s.asked →
    (disk, Operation.unmount) ∈ s.completed
  handled : ∀ disk, (disk, StartupDiskOperation.success) ∈ s.metrics →
    (disk, Operation.unmount) ∈ s.completed ∧
      (c.remounts = true → (disk, Operation.remount) ∈ s.completed)

def Operated (c : Settings) (mount : Mount) : Prop :=
  ∃ disk, mount.disk = some disk ∧ shouldOperateOnDisk disk = true ∧
    remountUSBModeContainsFlags c.remountArgs mount.sfs.f_flags = false

def NoWaitLeft (c : Settings) (s : Startup) : Prop :=
  s.phase = .between ∧
    ∀ i mount, s.index ≤ i → c.mounts[i]? = some mount → ¬ Operated c mount

/-- A callback comes without a dissenter while the loop waits for just it, or when the loop has
    nothing more to wait for. -/
def Prompt (c : Settings) (s : Startup) : Label → Prop
  | .callback disk operation dissent =>
      c.leavesUnmounted = true ∨
      (s.phase = .waiting operation ∧ disk = s.index ∧ dissent = false) ∨ NoWaitLeft c s
  | _ => True

/-- The semaphore is up only for the request that is waited for. -/
structure Inv (c : Settings) (s : Startup) : Prop extends OwnAccount c s where
  pending : ∀ p ∈ s.pending, p.1 < s.index ∨ (p.1 = s.index ∧ s.phase = .waiting p.2)
  once : s.pending.Nodup
  completed : ∀ p ∈ s.completed, p.1 < s.index ∨
    (p.1 = s.index ∧ (s.phase = .waiting p.2 ∨ (p.2 = .unmount ∧ s.phase = .waiting .remount)))
  between : s.phase = .between → s.semaphore = 0 ∨ NoWaitLeft c s
  waiting : ∀ operation, s.phase = .waiting operation →
    (s.semaphore = 0 ∧ (s.index, operation) ∉ s.completed) ∨
      (s.semaphore = 1 ∧ (s.index, operation) ∈ s.completed ∧
        (s.index, operation) ∉ s.pending)
  remounting : s.phase = .waiting .remount →
    c.remounts = true ∧ (s.index, Operation.unmount) ∈ s.completed

section Steps
variable {c : Settings} {s t : Startup}

theorem inv_new : Inv c Startup.new := by
  refine ⟨⟨?_, ?_⟩, ?_, List.nodup_nil, ?_, fun _ => Or.inl rfl, ?_, ?_⟩
  · intro disk args member
    cases member
  · intro disk member
    cases member
  · intro p member
    cases member
  · intro p member
    cases member
  · intro operation waiting
    cases waiting
  · intro waiting
    cases waiting

theorem inv_between (own : OwnAccount c t) (idle : t.phase = .between)
    (pending : ∀ p ∈ t.pending, p.1 < t.index) (once : t.pending.Nodup)
    (completed : ∀ p ∈ t.completed, p.1 < t.index) (left : t.semaphore = 0 ∨ NoWaitLeft c t) :
    Inv c t := by
  refine ⟨own, fun p member => Or.inl (pending p member), once,
    fun p member => Or.inl (completed p member), fun _ => left, ?_, ?_⟩
  · intro operation waiting
    rw [idle] at waiting
    cases waiting
  · intro waiting
    rw [idle] at waiting
    cases waiting

theorem pending_le (inv : Inv c s) : ∀ p ∈ s.pending, p.1 < s.index + 1 := by
  intro p member
  rcases inv.pending p member with older | ⟨same, -⟩
  · omega
  · omega

theorem completed_le (inv : Inv c s) : ∀ p ∈ s.completed, p.1 < s.index + 1 := by
  intro p member
  rcases inv.completed p member with older | ⟨same, -⟩
  · omega
  · omega

theorem inv_count (inv : Inv c s) (tokens : Nat) (operation : StartupDiskOperation)
    (handled : operation = .success → (s.index, Operation.unmount) ∈ s.completed ∧
      (c.remounts = true → (s.index, Operation.remount) ∈ s.completed))
    (left : tokens = 0 ∨ NoWaitLeft c ({ s with semaphore := tokens }.count operation)) :
    Inv c ({ s with semaphore := tokens }.count operation) := by
  refine inv_between ⟨inv.remounted, ?_⟩ rfl (pending_le inv) inv.once (completed_le inv) left
  intro disk member
  rcases List.mem_cons.mp member with same | before
  · rw [Prod.mk.injEq] at same
    rw [same.1]
    exact handled same.2.symm
  · exact inv.handled disk before

theorem no_wait_next (none : NoWaitLeft c s) : NoWaitLeft c { s with index := s.index + 1 } :=
  ⟨none.1, fun i mount later => none.2 i mount (Nat.le_of_succ_le later)⟩

theorem pending_lt (inv : Inv c s) (idle : s.phase = .between) :
    ∀ p ∈ s.pending, p.1 < s.index := by
  intro p member
  rcases inv.pending p member with older | ⟨-, waiting⟩
  · exact older
  · rw [idle] at waiting
    cases waiting

theorem completed_lt (inv : Inv c s) (idle : s.phase = .between) :
    ∀ p ∈ s.completed, p.1 < s.index := by
  intro p member
  rcases inv.completed p member with older | ⟨-, waiting | ⟨-, waiting⟩⟩
  · exact older
  · rw [idle] at waiting
    cases waiting
  · rw [idle] at waiting
    cases waiting

theorem inv_unmount (inv : Inv c s) (idle : s.phase = .between) (down : s.semaphore = 0)
    (force : Bool) : Inv c (s.ask (.unmount force)) := by
  refine ⟨⟨?_, inv.handled⟩, ?_, ?_, ?_, ?_, ?_, ?_⟩
  · intro disk args member
    rcases List.mem_cons.mp member with same | before
    · cases same
    · exact inv.remounted disk args before
  · intro p member
    rcases List.mem_cons.mp member with same | before
    · rw [same]
      exact Or.inr ⟨rfl, rfl⟩
    · exact Or.inl (pending_lt inv idle p before)
  · refine List.nodup_cons.mpr ⟨fun member => ?_, inv.once⟩
    exact absurd (pending_lt inv idle _ member) (Nat.lt_irrefl _)
  · exact fun p member => Or.inl (completed_lt inv idle p member)
  · intro idle
    cases idle
  · intro operation _
    exact Or.inl ⟨down, fun member => absurd (completed_lt inv idle _ member) (Nat.lt_irrefl _)⟩
  · intro waiting
    cases waiting

theorem next_cases (h : next c s = some t) : s.phase = .between ∧
    (t = { s with index := s.index + 1 } ∨
      (∃ operation, operation ≠ .success ∧ t = s.count operation) ∨
      ((∃ mount, c.mounts[s.index]? = some mount ∧ Operated c mount) ∧
        t = s.ask (.unmount c.forces))) := by
  unfold next at h
  split at h
  · rename_i here
    obtain ⟨mount, present, rfl⟩ := Option.map_eq_some_iff.mp h
    refine ⟨here.1, ?_⟩
    cases reference : mount.disk with
    | none => exact Or.inl rfl
    | some disk =>
      simp only
      by_cases selected : shouldOperateOnDisk disk = true
      · rw [if_pos selected]
        by_cases fine : remountUSBModeContainsFlags c.remountArgs mount.sfs.f_flags = true
        · rw [if_pos fine]
          exact Or.inr (Or.inl ⟨.allowed, by decide, rfl⟩)
        · rw [if_neg fine]
          have operated : Operated c mount := ⟨disk, reference, selected, by simpa using fine⟩
          exact Or.inr (Or.inr ⟨⟨mount, present, operated⟩, rfl⟩)
      · rw [if_neg selected]
        exact Or.inr (Or.inl ⟨.skip, by decide, rfl⟩)
  · cases h

theorem next_keeps (inv : Inv c s) (h : next c s = some t) : Inv c t := by
  obtain ⟨idle, rfl | ⟨operation, other, rfl⟩ | ⟨⟨mount, present, operated⟩, rfl⟩⟩ := next_cases h
  · exact inv_between ⟨inv.remounted, inv.handled⟩ idle (pending_le inv) inv.once
      (completed_le inv) ((inv.between idle).imp_right no_wait_next)
  · refine inv_count inv s.semaphore operation (fun same => absurd same other) ?_
    exact (inv.between idle).imp_right fun none => ⟨rfl, (no_wait_next none).2⟩
  · -- a disk that is waited for, so the semaphore is down
    rcases inv.between idle with down | none
    · exact inv_unmount inv idle down c.forces
    · exact absurd operated (none.2 s.index mount (Nat.le_refl _) present)

theorem callback_cases {disk : Nat} {operation : Operation} {dissent : Bool}
    (h : callback s disk operation dissent = some t) :
    (disk, operation) ∈ s.pending ∧ ∃ completed,
      t = { s with
        semaphore := s.semaphore + 1
        pending := s.pending.erase (disk, operation)
        completed } ∧
      (dissent = false → completed = (disk, operation) :: s.completed) ∧
      (∀ p ∈ s.completed, p ∈ completed) ∧
      ∀ p ∈ completed, (p = (disk, operation) ∧ dissent = false) ∨ p ∈ s.completed := by
  unfold callback at h
  split at h
  · rename_i member
    refine ⟨member, _, (Option.some.inj h).symm, ?_, ?_, ?_⟩
    · rintro rfl
      rfl
    · intro p before
      split
      · exact before
      · exact List.mem_cons_of_mem _ before
    · intro p after
      split at after
      · exact Or.inr after
      · rename_i agreed
        exact (List.mem_cons.mp after).imp_left fun same => ⟨same, by simpa using agreed⟩
  · cases h

theorem callback_keeps {disk : Nat} {operation : Operation} {dissent : Bool} (inv : Inv c s)
    (prompt : (s.phase = .waiting operation ∧ disk = s.index ∧ dissent = false) ∨ NoWaitLeft c s)
    (h : callback s disk operation dissent = some t) : Inv c t := by
  obtain ⟨member, completed, rfl, added, more, less⟩ := callback_cases h
  have fewer : ∀ p ∈ s.pending.erase (disk, operation), p ∈ s.pending :=
    fun p member => List.mem_of_mem_erase member
  have own : OwnAccount c { s with
      semaphore := s.semaphore + 1
      pending := s.pending.erase (disk, operation)
      completed } :=
    ⟨fun disk args asked => more _ (inv.remounted disk args asked), fun disk counted =>
      ⟨more _ (inv.handled disk counted).1, fun c => more _ ((inv.handled disk counted).2 c)⟩⟩
  rcases prompt with ⟨waiting, rfl, dissent⟩ | none
  · rcases inv.waiting operation waiting with ⟨down, -⟩ | ⟨-, -, absent⟩
    · refine ⟨own, fun p member => inv.pending p (fewer p member),
        inv.once.sublist List.erase_sublist, ?_, ?_, ?_, ?_⟩
      · intro p member
        rcases less p member with ⟨same, -⟩ | before
        · rw [same]
          exact Or.inr ⟨rfl, Or.inl waiting⟩
        · exact inv.completed p before
      · intro idle
        rw [waiting] at idle
        cases idle
      · intro operation' waiting'
        have same : operation' = operation := by
          rw [waiting] at waiting'
          cases waiting'
          rfl
        rw [same, added dissent]
        exact Or.inr ⟨by simp only [down], List.mem_cons_self, inv.once.not_mem_erase⟩
      · intro waiting'
        exact ⟨(inv.remounting waiting').1, more _ (inv.remounting waiting').2⟩
    · exact absurd member absent
  · refine inv_between own none.1 (fun p member => pending_lt inv none.1 p (fewer p member))
      (inv.once.sublist List.erase_sublist) ?_ (Or.inr none)
    intro p after
    rcases less p after with ⟨same, -⟩ | before
    · rw [same]
      exact pending_lt inv none.1 _ member
    · exact completed_lt inv none.1 p before

theorem timeout_cases (h : timeout s = some t) : s.semaphore = 0 ∧
    ∃ operation, operation ≠ .success ∧ t = s.count operation := by
  unfold timeout at h
  split at h
  · rename_i down
    split at h
    · cases h
    · exact ⟨down, .unmountFailed, by decide, (Option.some.inj h).symm⟩
    · exact ⟨down, .remountFailed, by decide, (Option.some.inj h).symm⟩
  · cases h

theorem timeout_keeps (inv : Inv c s) (h : timeout s = some t) : Inv c t := by
  obtain ⟨down, operation, other, rfl⟩ := timeout_cases h
  exact inv_count inv s.semaphore operation (fun same => absurd same other) (Or.inl down)

theorem inv_remount (inv : Inv c s) (waiting : s.phase = .waiting .unmount)
    (remounts : c.remounts = true) (done : (s.index, Operation.unmount) ∈ s.completed)
    (absent : (s.index, Operation.unmount) ∉ s.pending) (args : List String) :
    Inv c ({ s with semaphore := 0 }.ask (.mount args)) := by
  have unmounting : ∀ operation, s.phase = .waiting operation → operation = .unmount := by
    intro operation same
    rw [waiting] at same
    cases same
    rfl
  have older : ∀ p ∈ s.pending, p.1 < s.index := by
    rintro ⟨disk, operation⟩ member
    rcases inv.pending _ member with older | ⟨same, current⟩
    · exact older
    · have operation := unmounting _ current
      simp only at same operation
      rw [same, operation] at member
      exact absurd member absent
  refine ⟨⟨?_, inv.handled⟩, ?_, ?_, ?_, ?_, ?_, ?_⟩
  · intro disk args' member
    rcases List.mem_cons.mp member with same | before
    · rw [Prod.mk.injEq] at same
      rw [same.1]
      exact done
    · exact inv.remounted disk args' before
  · intro p member
    rcases List.mem_cons.mp member with same | before
    · rw [same]
      exact Or.inr ⟨rfl, rfl⟩
    · exact Or.inl (older p before)
  · refine List.nodup_cons.mpr ⟨fun member => ?_, inv.once⟩
    exact absurd (older _ member) (Nat.lt_irrefl _)
  · intro p member
    rcases inv.completed p member with before | ⟨same, current | ⟨-, current⟩⟩
    · exact Or.inl before
    · exact Or.inr ⟨same, Or.inr ⟨unmounting _ current, rfl⟩⟩
    · cases unmounting _ current
  · intro idle
    cases idle
  · intro operation current
    cases current
    refine Or.inl ⟨rfl, fun member => ?_⟩
    rcases inv.completed _ member with before | ⟨-, current | ⟨same, -⟩⟩
    · exact absurd before (Nat.lt_irrefl _)
    · cases unmounting _ current
    · cases same
  · exact fun _ => ⟨remounts, done⟩

theorem wake_keeps (inv : Inv c s) (acts : c.leavesUnmounted = false) (h : wake c s = some t) :
    Inv c t := by
  unfold wake at h
  split at h
  · cases h
  rename_i up
  have own : ∀ operation, s.phase = .waiting operation → s.semaphore - 1 = 0 ∧
      (s.index, operation) ∈ s.completed ∧ (s.index, operation) ∉ s.pending := by
    intro operation waiting
    rcases inv.waiting operation waiting with ⟨down, -⟩ | ⟨one, done, absent⟩
    · exact absurd down up
    · exact ⟨by omega, done, absent⟩
  simp only at h
  cases phase : s.phase with
  | between =>
    simp only [phase] at h
    cases h
  | waiting operation =>
    obtain ⟨tokens, done, absent⟩ := own operation phase
    rw [tokens] at h
    cases operation with
    | unmount =>
      simp only [phase] at h
      by_cases remounts : c.remounts = true
      · have args : haveRemountArgs c.remountArgs = true := by
          simpa [Settings.leavesUnmounted, remounts] using acts
        simp only [remounts, args, if_true, Option.some.injEq] at h
        rw [← h]
        have asked := inv_remount inv phase remounts done absent (newMode c s)
        rw [phase] at asked
        exact asked
      · simp only [remounts, Bool.false_eq_true, if_false, Option.some.injEq] at h
        rw [← h]
        have counted := inv_count inv 0 .success
          (fun _ => ⟨done, fun remounts' => absurd remounts' remounts⟩) (Or.inl rfl)
        rw [phase] at counted
        exact counted
    | remount =>
      simp only [phase, Option.some.injEq] at h
      rw [← h]
      have counted := inv_count inv 0 .success
        (fun _ => ⟨(inv.remounting phase).2, fun _ => done⟩) (Or.inl rfl)
      rw [phase] at counted
      exact counted

theorem step_keeps (acts : c.leavesUnmounted = false) (l : Label) (inv : Inv c s)
    (prompt : Prompt c s l) (h : step c s l = some t) : Inv c t := by
  cases l with
  | next => exact next_keeps inv h
  | callback disk operation dissent =>
    rcases prompt with leaves | prompt
    · rw [acts] at leaves
      cases leaves
    · exact callback_keeps inv prompt h
  | wake => exact wake_keeps inv acts h
  | timeout => exact timeout_keeps inv h

/-! ### Without remount arguments -/

structure Quiet (s : Startup) : Prop where
  asked : ∀ disk args, (disk, Request.mount args) ∉ s.asked
  metrics : ∀ disk, (disk, StartupDiskOperation.success) ∉ s.metrics
  phase : s.phase ≠ .waiting .remount

theorem quiet_new : Quiet Startup.new := by
  refine ⟨fun disk args member => ?_, fun disk member => ?_, fun same => by cases same⟩
  · cases member
  · cases member

theorem quiet_count (quiet : Quiet s) {operation : StartupDiskOperation}
    (other : operation ≠ .success) : Quiet (s.count operation) := by
  refine ⟨quiet.asked, fun disk member => ?_, fun same => by cases same⟩
  rcases List.mem_cons.mp member with same | before
  · cases same
    exact other rfl
  · exact quiet.metrics disk before

theorem quiet_keeps (leaves : c.leavesUnmounted = true) (l : Label) (quiet : Quiet s)
    (h : step c s l = some t) : Quiet t := by
  have skips : c.remounts = true ∧ haveRemountArgs c.remountArgs = false := by
    simpa [Settings.leavesUnmounted] using leaves
  cases l with
  | next =>
    obtain ⟨-, rfl | ⟨operation, other, rfl⟩ | ⟨-, rfl⟩⟩ := next_cases h
    · exact ⟨quiet.asked, quiet.metrics, quiet.phase⟩
    · exact quiet_count quiet other
    · refine ⟨fun disk args member => ?_, quiet.metrics, fun same => by cases same⟩
      rcases List.mem_cons.mp member with same | before
      · cases same
      · exact quiet.asked disk args before
  | callback disk operation dissent =>
    obtain ⟨-, completed, rfl, -⟩ := callback_cases h
    exact ⟨quiet.asked, quiet.metrics, quiet.phase⟩
  | wake =>
    simp only [step, wake] at h
    split at h
    · cases h
    split at h
    · cases h
    · simp only [skips.1, skips.2, if_true, Bool.false_eq_true, if_false, Option.some.injEq] at h
      rw [← h]
      have signalled : Quiet { s with semaphore := s.semaphore - 1 } :=
        ⟨quiet.asked, quiet.metrics, quiet.phase⟩
      exact quiet_count signalled (by decide : StartupDiskOperation.remountSkipped ≠ .success)
    · rename_i phase
      exact absurd phase quiet.phase
  | timeout =>
    obtain ⟨-, operation, other, rfl⟩ := timeout_cases h
    exact quiet_count quiet other

theorem quiet_own (quiet : Quiet s) : OwnAccount c s :=
  ⟨fun disk args member => absurd member (quiet.asked disk args),
    fun disk member => absurd member (quiet.metrics disk)⟩

/-! ### Callbacks out of turn -/

/-- Any other callback that comes during a wait lets the loop go on as if the disk were done. -/
theorem out_of_turn (acts : c.leavesUnmounted = false) (inv : Inv c s) {disk : Nat}
    {operation waited : Operation} {dissent : Bool} (waiting : s.phase = .waiting waited)
    (down : s.semaphore = 0) (late : ¬ Prompt c s (.callback disk operation dissent))
    (h : callback s disk operation dissent = some t) :
    ∃ u, wake c t = some u ∧ ¬ OwnAccount c u := by
  have fresh : (s.index, waited) ∉ s.completed := by
    rcases inv.waiting waited waiting with ⟨-, fresh⟩ | ⟨up, -, -⟩
    · exact fresh
    · omega
  obtain ⟨-, completed, rfl, -, -, less⟩ := callback_cases h
  have still : (s.index, waited) ∉ completed := by
    intro member
    rcases less _ member with ⟨same, agreed⟩ | before
    · rw [Prod.mk.injEq] at same
      refine late (Or.inr (Or.inl ⟨?_, same.1.symm, agreed⟩))
      rw [waiting, same.2]
    · exact fresh before
  unfold wake
  rw [if_neg (Nat.succ_ne_zero _)]
  simp only [waiting]
  cases waited with
  | unmount =>
    by_cases remounts : c.remounts = true
    · have args : haveRemountArgs c.remountArgs = true := by
        simpa [Settings.leavesUnmounted, remounts] using acts
      simp only [remounts, args, if_true]
      exact ⟨_, rfl, fun own => still (own.remounted s.index _ List.mem_cons_self)⟩
    · simp only [remounts, Bool.false_eq_true, if_false]
      exact ⟨_, rfl, fun own => still (own.handled s.index List.mem_cons_self).1⟩
  | remount =>
    have remounts := (inv.remounting waiting).1
    exact ⟨_, rfl, fun own => still ((own.handled s.index List.mem_cons_self).2 remounts)⟩

end Steps

/-- In every run in which each callback comes in its turn and without a dissenter, every disk is
    remounted and counted on its own account; and in a run that went so far, any other callback
    that comes during a wait lets the loop go on for a disk that is not done. -/
theorem own_account_of_prompt (c : Settings) (ls : List Label)
    (prompt : Runs.Meets (step c) (Prompt c) Startup.new ls) :
    Runs.Always (step c) (OwnAccount c) Startup.new ls ∧
      ∀ s waited disk operation dissent t, Runs.run (step c) Startup.new ls = some s →
        s.phase = .waiting waited → s.semaphore = 0 →
        ¬ Prompt c s (.callback disk operation dissent) →
        step c s (.callback disk operation dissent) = some t →
        ∃ u, step c t .wake = some u ∧ ¬ OwnAccount c u := by
  cases acts : c.leavesUnmounted with
  | false =>
    have always := Runs.always_of_meets (fun s l t => step_keeps (s := s) (t := t) acts l) inv_new
      prompt
    refine ⟨Runs.always_mono (fun _ inv => inv.toOwnAccount) always, ?_⟩
    intro s waited disk operation dissent t ran waiting down late stepped
    exact out_of_turn acts (Runs.always_last always ran) waiting down late stepped
  | true =>
    refine ⟨Runs.always_mono (fun _ quiet => quiet_own quiet)
      (Runs.always_of_keep Quiet (fun s l t => quiet_keeps acts l) quiet_new ls), ?_⟩
    intro s waited disk operation dissent t ran waiting down late stepped
    exact absurd (Or.inl acts) late

def twoSticks : Settings :=
  ⟨true, .remount, ["rdonly"], [⟨writable, some usbStick⟩, ⟨writable, some usbStick⟩]⟩

theorem prompt_remount_accounted :
    Runs.Always (step twoSticks) (OwnAccount twoSticks) Startup.new
      [.next, .callback 0 .unmount false, .wake, .callback 0 .remount false, .wake] := by
  refine (own_account_of_prompt twoSticks _ ?_).1
  rw [← Runs.meets_cons rfl]
  refine ⟨trivial, ?_⟩
  rw [← Runs.meets_cons rfl]
  refine ⟨Or.inr (Or.inl ⟨rfl, rfl, rfl⟩), ?_⟩
  rw [← Runs.meets_cons rfl]
  refine ⟨trivial, ?_⟩
  rw [← Runs.meets_cons rfl]
  refine ⟨Or.inr (Or.inl ⟨rfl, rfl, rfl⟩), ?_⟩
  rw [← Runs.meets_cons rfl]
  exact ⟨trivial, trivial⟩

theorem not_own_account {c : Settings} {ls : List Label} {s : Startup} (disk : Nat)
    (args : List String) (ran : Runs.run (step c) Startup.new ls = some s)
    (asked : (disk, Request.mount args) ∈ s.asked)
    (missing : (disk, Operation.unmount) ∉ s.completed) :
    ¬ Runs.Always (step c) (OwnAccount c) Startup.new ls :=
  fun always => missing ((Runs.always_last always ran).remounted disk args asked)

/-- The unmount of the first stick is refused and it is mounted again all the same; or it takes
    too long, and its callback starts the mount of the second. -/
theorem refused_unmount_remounted :
    ¬ Runs.Always (step twoSticks) (OwnAccount twoSticks) Startup.new
        [.next, .callback 0 .unmount true, .wake] ∧
      ¬ Runs.Always (step twoSticks) (OwnAccount twoSticks) Startup.new
        [.next, .timeout, .next, .callback 0 .unmount false, .wake] :=
  ⟨not_own_account 0 ["rdonly"] rfl (by decide) (by decide),
    not_own_account 1 ["rdonly"] rfl (by decide) (by decide)⟩

end SantaStartup
