import Santa.Auth.ExecutionController
import Santa.Library.Runs

/-!
The pids watched as compilers. A pid is marked when an execution in it is answered
with the compiler action, from the cache of decisions or after an evaluation, and
unmarked when it exits. The cache is whatever the other executions leave there.
The record of the last answer to each pid is not part of the daemon.
-/
namespace SantaCompilerMarks
open SantaAuthCache SantaExec

def PID_MAX : Int := 99999
def kIgnoredCompilerProcessPathPrefix : String := "/dev/"

def isCompiler (compilerPIDs : Int → Bool) (pid : Int) : Bool :=
  decide (0 ≤ pid) && decide (pid < PID_MAX) && compilerPIDs pid

def setProcess (compilerPIDs : Int → Bool) (pid : Int) (isCompiler : Bool) : Int → Bool :=
  if pid < 1 then compilerPIDs
  else if PID_MAX ≤ pid then compilerPIDs
  else fun p => if p = pid then isCompiler else compilerPIDs p

def handlesWrite (compilerPIDs : Int → Bool) (pid : Int) (path : String) : Bool :=
  isCompiler compilerPIDs pid &&
    !kIgnoredCompilerProcessPathPrefix.toList.isPrefixOf path.toList

structure System where
  cache : AuthResultCache
  compilerPIDs : Int → Bool
  answered : Int → Option SNTAction

def System.start (cache : AuthResultCache) : System := ⟨cache, fun _ => false, fun _ => none⟩

inductive Label where
  | checked (pid : Int) (vnode : SantaVnode) (currentUptime : Nat) (interested : Bool)
  | posted (pid : Int) (vnode : SantaVnode) (action : SNTAction) (currentUptime : Nat)
      (interested : Bool)
  | exit (pid : Int)
  | others (cache : AuthResultCache)

structure Answer where
  pid : Int
  action : SNTAction
  marks : Bool
  response : Option Response
  deriving DecidableEq, Repr

def answer (s : System) : Label → Option (Answer × AuthResultCache)
  | .checked pid vnode currentUptime interested =>
      let (returnAction, cache) := s.cache.checkCache vnode currentUptime
      match processChecked returnAction interested with
      | .respond isCompiler response => some (⟨pid, returnAction, isCompiler, some response⟩, cache)
      | _ => none
  | .posted pid vnode action currentUptime interested =>
      (postAction s.cache vnode action currentUptime interested).map fun posted =>
        (⟨pid, action, posted.isCompiler, posted.response⟩, posted.cache)
  | _ => none

/-- The answer is to an execution that takes place, or to any if denied ones count. -/
def Answer.counts (deniedCounts : Bool) (a : Answer) : Bool :=
  a.response.any fun r => deniedCounts || r.authResult = .allow

def System.apply (deniedCounts : Bool) (s : System) (a : Answer) (cache : AuthResultCache) :
    System :=
  ⟨cache,
    if a.marks then setProcess s.compilerPIDs a.pid true else s.compilerPIDs,
    if a.counts deniedCounts then
      fun p => if p = a.pid then some a.action else s.answered p
    else s.answered⟩

def step (deniedCounts : Bool) (s : System) : Label → Option System
  | .exit pid =>
      some { s with
        compilerPIDs := setProcess s.compilerPIDs pid false
        answered := fun p => if p = pid then none else s.answered p }
  | .others cache => some { s with cache := cache }
  | l => (answer s l).map fun (a, cache) => s.apply deniedCounts a cache

/-- The marks are those of the running images. -/
def Follows (s : System) : Prop :=
  ∀ pid, pid < PID_MAX →
    (isCompiler s.compilerPIDs pid = true ↔ s.answered pid = some .respondAllowCompiler)

/-- An answer that lets a compiler run is to a pid that can be watched, and any other answer
    that counts is to a pid that is not watched. -/
def Answer.Replaces (deniedCounts : Bool) (compilerPIDs : Int → Bool) (a : Answer) : Prop :=
  a.counts deniedCounts = true →
    if a.action = .respondAllowCompiler then 1 ≤ a.pid
    else isCompiler compilerPIDs a.pid = false

def Replaces (deniedCounts : Bool) (s : System) (l : Label) : Prop :=
  ∀ a cache, answer s l = some (a, cache) → a.Replaces deniedCounts s.compilerPIDs

theorem is_compiler_iff {compilerPIDs : Int → Bool} {pid : Int} :
    isCompiler compilerPIDs pid = true ↔
      0 ≤ pid ∧ pid < PID_MAX ∧ compilerPIDs pid = true := by
  simp [isCompiler, and_assoc]

theorem set_process_self {compilerPIDs : Int → Bool} {pid : Int} (low : 1 ≤ pid)
    (high : pid < PID_MAX) (mark : Bool) :
    isCompiler (setProcess compilerPIDs pid mark) pid = mark := by
  have low' : ¬ pid < 1 := by omega
  have high' : ¬ PID_MAX ≤ pid := by omega
  have natural : 0 ≤ pid := by omega
  simp [isCompiler, setProcess, low', high', natural, high]

theorem set_process_other {compilerPIDs : Int → Bool} {pid other : Int} (distinct : other ≠ pid)
    (mark : Bool) :
    isCompiler (setProcess compilerPIDs pid mark) other = isCompiler compilerPIDs other := by
  unfold setProcess
  split
  · rfl
  · split
    · rfl
    · simp [isCompiler, distinct]

theorem set_process_refused {compilerPIDs : Int → Bool} {pid : Int}
    (refused : pid < 1 ∨ PID_MAX ≤ pid) (mark : Bool) :
    setProcess compilerPIDs pid mark = compilerPIDs := by
  unfold setProcess
  rcases refused with low | high
  · rw [if_pos low]
  · rw [if_pos high, ite_self]

theorem answer_marks {s : System} {l : Label} {a : Answer} {cache : AuthResultCache}
    (h : answer s l = some (a, cache)) :
    (a.marks = true ↔ a.action = .respondAllowCompiler) ∧
      (a.action = .respondAllowCompiler → ∀ deniedCounts, a.counts deniedCounts = true) := by
  cases l with
  | checked pid vnode currentUptime interested =>
    simp only [answer] at h
    cases action : (s.cache.checkCache vnode currentUptime).1 with
    | unset | requestBinary | respondAllowNoCache | holdAllowed | holdDenied =>
      simp [processChecked, action] at h
    | respondAllow | respondDeny | respondHold | respondAllowCompiler =>
      simp only [processChecked, action, Option.some.injEq, Prod.mk.injEq] at h
      rw [← h.1]
      simp [Answer.counts, respondToMessage]
  | posted pid vnode action currentUptime interested =>
    simp only [answer] at h
    obtain ⟨posted, done, same⟩ := Option.map_eq_some_iff.mp h
    rw [Prod.mk.injEq] at same
    rw [← same.1]
    cases action with
    | unset | requestBinary => cases done
    | _ =>
      simp only [postAction] at done
      obtain ⟨_, _, made⟩ := Option.map_eq_some_iff.mp done
      rw [← made]
      simp [Answer.counts, respondToMessage]
  | exit pid => cases h
  | others c => cases h

theorem step_cases {deniedCounts : Bool} {s t : System} {l : Label}
    (h : step deniedCounts s l = some t) :
    (∃ a cache, answer s l = some (a, cache) ∧ t = s.apply deniedCounts a cache) ∨
    (∃ pid, answer s l = none ∧ t = { s with
      compilerPIDs := setProcess s.compilerPIDs pid false
      answered := fun p => if p = pid then none else s.answered p }) ∨
    (∃ cache, answer s l = none ∧ t = { s with cache := cache }) := by
  cases l with
  | exit pid => exact Or.inr (Or.inl ⟨pid, rfl, (Option.some.inj h).symm⟩)
  | others cache => exact Or.inr (Or.inr ⟨cache, rfl, (Option.some.inj h).symm⟩)
  | _ =>
    obtain ⟨⟨a, cache⟩, answered, same⟩ := Option.map_eq_some_iff.mp h
    exact Or.inl ⟨a, cache, answered, same.symm⟩

structure Inv (s : System) : Prop where
  follows : Follows s
  unwatched : ∀ pid, pid < 1 → s.compilerPIDs pid = false

theorem set_process_unwatched {compilerPIDs : Int → Bool} (pid : Int) (mark : Bool)
    (unwatched : ∀ pid, pid < 1 → compilerPIDs pid = false) :
    ∀ p, p < 1 → setProcess compilerPIDs pid mark p = false := by
  intro p low
  unfold setProcess
  split
  · exact unwatched p low
  · split
    · exact unwatched p low
    · have distinct : p ≠ pid := by omega
      simp [distinct, unwatched p low]

theorem inv_apply {deniedCounts : Bool} {s : System} {l : Label} {a : Answer}
    {cache : AuthResultCache} (inv : Inv s) (answered : answer s l = some (a, cache))
    (replaces : a.Replaces deniedCounts s.compilerPIDs) : Inv (s.apply deniedCounts a cache) := by
  obtain ⟨marks, allowed⟩ := answer_marks answered
  by_cases compiler : a.action = .respondAllowCompiler
  · have counts := allowed compiler deniedCounts
    have low := replaces counts
    rw [if_pos compiler] at low
    refine ⟨?_, ?_⟩
    · intro pid high
      simp only [System.apply, marks.mpr compiler, counts, if_true]
      by_cases same : pid = a.pid
      · rw [same] at high ⊢
        rw [set_process_self low high]
        simp [compiler]
      · rw [set_process_other same, if_neg same]
        exact inv.follows pid high
    · simp only [System.apply, marks.mpr compiler, if_true]
      exact set_process_unwatched a.pid true inv.unwatched
  · have unmarked : a.marks = false := by
      rw [← Bool.not_eq_true]
      exact fun m => compiler (marks.mp m)
    refine ⟨?_, ?_⟩
    · intro pid high
      simp only [System.apply, unmarked]
      by_cases counts : a.counts deniedCounts = true
      · have clear := replaces counts
        rw [if_neg compiler] at clear
        by_cases same : pid = a.pid
        · simp [counts, same, clear, compiler]
        · simp only [counts, if_true, if_neg same]
          exact inv.follows pid high
      · simp only [counts]
        exact inv.follows pid high
    · simp only [System.apply, unmarked]
      exact inv.unwatched

theorem step_keeps (deniedCounts : Bool) (s : System) (l : Label) (t : System) (inv : Inv s)
    (replaces : Replaces deniedCounts s l) (h : step deniedCounts s l = some t) : Inv t := by
  rcases step_cases h with ⟨a, cache, answered, same⟩ | ⟨pid, _, same⟩ | ⟨cache, _, same⟩
  · rw [same]
    exact inv_apply inv answered (replaces a cache answered)
  · rw [same]
    refine ⟨?_, set_process_unwatched pid false inv.unwatched⟩
    intro p high
    by_cases exits : p = pid
    · rw [exits] at high ⊢
      by_cases low : 1 ≤ pid
      · simp [set_process_self low high]
      · have unwatched := inv.unwatched pid (by omega)
        rw [set_process_refused (Or.inl (by omega))]
        simp [isCompiler, unwatched]
    · simp only [set_process_other exits, if_neg exits]
      exact inv.follows p high
  · rw [same]
    exact ⟨inv.follows, inv.unwatched⟩

theorem step_breaks (deniedCounts : Bool) (s : System) (l : Label) (t : System) (inv : Inv s)
    (keeps : ¬ Replaces deniedCounts s l) (h : step deniedCounts s l = some t) : ¬ Follows t := by
  intro follows
  refine keeps ?_
  intro a cache answered counts
  obtain ⟨marks, allowed⟩ := answer_marks answered
  have applied : t = s.apply deniedCounts a cache := by
    rcases step_cases h with ⟨b, c, other, same⟩ | ⟨_, none, _⟩ | ⟨_, none, _⟩
    · rw [answered, Option.some.injEq, Prod.mk.injEq] at other
      rw [same, ← other.1, ← other.2]
    · rw [answered] at none
      cases none
    · rw [answered] at none
      cases none
  rw [applied] at follows
  by_cases compiler : a.action = .respondAllowCompiler
  · rw [if_pos compiler]
    by_contra low
    have marked := (follows a.pid (by simp only [PID_MAX]; omega)).mpr (by
      simp [System.apply, counts, compiler])
    have refused := @set_process_refused s.compilerPIDs a.pid (Or.inl (by omega)) true
    simp only [System.apply, marks.mpr compiler, if_true, refused] at marked
    have unwatched := inv.unwatched a.pid (by omega)
    rw [is_compiler_iff, unwatched] at marked
    simp at marked
  · rw [if_neg compiler, ← Bool.not_eq_true]
    intro marked
    have unmarked : a.marks = false := by
      rw [← Bool.not_eq_true]
      exact fun m => compiler (marks.mp m)
    have image := (follows a.pid (is_compiler_iff.mp marked).2.1).mp (by
      simp only [System.apply, unmarked]
      exact marked)
    simp [System.apply, counts, compiler] at image

theorem inv_start (cache : AuthResultCache) : Inv (System.start cache) :=
  ⟨fun pid _ => by simp [System.start, isCompiler], fun _ _ => rfl⟩

/-- The marks follow the images exactly in the runs where a watched pid gets no other
    answer than the compiler's before it exits. -/
theorem marks_follow_iff (deniedCounts : Bool) (cache : AuthResultCache) (ls : List Label) :
    Runs.Always (step deniedCounts) Follows (System.start cache) ls ↔
      Runs.Meets (step deniedCounts) (Replaces deniedCounts) (System.start cache) ls :=
  Runs.always_iff_meets Inv (fun _ inv => inv.follows) (step_keeps deniedCounts)
    (step_breaks deniedCounts) (inv_start cache) ls

/-- Where the marks follow, an ordinary program gets no transitive rules. -/
theorem ordinary_write_ignored {s : System} (follows : Follows s) {pid : Int} (path : String)
    (high : pid < PID_MAX) (ordinary : s.answered pid ≠ some .respondAllowCompiler) :
    handlesWrite s.compilerPIDs pid path = false := by
  have unmarked : isCompiler s.compilerPIDs pid = false := by
    rw [← Bool.not_eq_true]
    exact fun marked => ordinary ((follows pid high).mp marked)
  simp [handlesWrite, unmarked]

/-- A compiler that executes an ordinary program stays watched. -/
theorem executed_by_compiler_watched :
    ¬ ∀ cache ls, Runs.Always (step false) Follows (System.start cache) ls := by
  intro always
  have watched : (Runs.run (step false) (System.start (.create 1 0))
      [.posted 50 ⟨2, 10⟩ .respondAllowCompiler 0 false,
        .posted 50 ⟨2, 11⟩ .respondAllow 0 false]).map
      (fun s => (isCompiler s.compilerPIDs 50, s.answered 50)) =
        some (true, some .respondAllow) := by
    decide +kernel
  obtain ⟨last, ends, marks⟩ := Option.map_eq_some_iff.mp watched
  have follows := Runs.always_last (always (.create 1 0) _) ends
  rw [Prod.mk.injEq] at marks
  have image := (follows 50 (by decide)).mp marks.1
  rw [marks.2] at image
  cases image

end SantaCompilerMarks
