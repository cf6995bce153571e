import Santa.Library.Runs
import Santa.ProcessTree.Tree

/-!
Tokens that retain processes in the tree, and the messages that carry them.
Every live token object has a slot: a named object, the optional inside a
message, or the temporary of a copy assignment. A moved-from token keeps a null
tree and an empty vector, and is still destroyed at the end of its life.
`retained` is not in the program; it records which processes the token found
in the tree when it was constructed.
-/
namespace SantaProcessTree
namespace Tokens

inductive Slot where
  | object (n : Nat)
  | message (m : Nat)
  | temporary
  deriving DecidableEq, Repr

structure ProcessToken where
  slot : Slot
  hasTree : Bool
  pids : List Pid
  retained : List (Pid × ProcessRef)

structure State where
  tree : ProcessTree
  tokens : List ProcessToken
  messages : List Nat
  nullTree : Bool

def State.new (annotators : List OriginatorAnnotator) : State :=
  ⟨.new annotators, [], [], false⟩

namespace State

def find (s : State) (slot : Slot) : Option ProcessToken :=
  s.tokens.find? fun k => k.slot = slot

def replace (s : State) (slot : Slot) (f : ProcessToken → ProcessToken) : State :=
  { s with tokens := s.tokens.map fun k => if k.slot = slot then f k else k }

def present (s : State) (pids : List Pid) : List (Pid × ProcessRef) :=
  pids.filterMap fun p =>
    match s.tree.get p with
    | some (some r) => some (p, r)
    | _ => none

def usesNullTree (s : State) : State := { s with nullTree := true }

/-- A moved vector: what the target gets, and what the source is left with. -/
def moveVector (pids : List Pid) : List Pid × List Pid := (pids, [])

/-- The constructor moves its parameter into the member before the body reads it. -/
def construct (s : State) (slot : Slot) (pids : List Pid) : Option State :=
  if (s.find slot).isSome then none
  else
    let (member, parameter) := moveVector pids
    (s.tree.retainProcess parameter).map fun tree =>
      { s with tree := tree, tokens := ⟨slot, true, member, s.present pids⟩ :: s.tokens }

def copy (s : State) (dst src : Slot) : Option State :=
  (s.find src).bind fun other =>
    if other.hasTree then s.construct dst other.pids else some s.usesNullTree

def movedFrom (k : ProcessToken) : ProcessToken :=
  { k with hasTree := false, pids := (moveVector k.pids).2, retained := [] }

def move (s : State) (dst src : Slot) : Option State :=
  if (s.find dst).isSome then none
  else
    (s.find src).map fun other =>
      let s := s.replace src movedFrom
      { s with tokens := { other with slot := dst } :: s.tokens }

def destroy (s : State) (slot : Slot) : Option State :=
  (s.find slot).bind fun k =>
    if k.hasTree then
      (s.tree.releaseProcess k.pids).map fun tree =>
        { s with tree := tree, tokens := s.tokens.filter fun k => k.slot ≠ slot }
    else some s.usesNullTree

def takeOver (other k : ProcessToken) : ProcessToken :=
  { k with hasTree := other.hasTree, pids := other.pids, retained := other.retained }

/-- Nothing is released: the target's former tree and pids are overwritten. -/
def moveAssign (s : State) (dst src : Slot) : Option State :=
  if dst = src then none
  else
    (s.find dst).bind fun _ => (s.find src).map fun other =>
      (s.replace dst (takeOver other)).replace src movedFrom

def andThen (s : Option State) (f : State → Option State) : Option State :=
  s.bind fun s => if s.nullTree then some s else f s

/-- `*this = ProcessToken(other.tree_, other.pids_)`, then the temporary dies. -/
def copyAssign (s : State) (dst src : Slot) : Option State :=
  andThen (andThen (s.copy .temporary src) (·.moveAssign dst .temporary)) (·.destroy .temporary)

/-- The parameter is moved into the message's optional and dies on return. -/
def setProcessToken (s : State) (m n : Nat) : Option State :=
  if m ∈ s.messages then
    andThen
      (if (s.find (.message m)).isSome then s.moveAssign (.message m) (.object n)
      else s.move (.message m) (.object n))
      (·.destroy (.object n))
  else none

def newMessage (s : State) (m : Nat) : Option State :=
  if m ∈ s.messages then none else some { s with messages := m :: s.messages }

/-- The other message's optional is reset after its token was moved out of it. -/
def moveMessage (s : State) (dst src : Nat) : Option State :=
  if src ∈ s.messages then
    (s.newMessage dst).bind fun s =>
      if (s.find (.message src)).isSome then
        andThen (s.move (.message dst) (.message src)) (·.destroy (.message src))
      else some s
  else none

def copyMessage (s : State) (dst src : Nat) : Option State :=
  if src ∈ s.messages then
    (s.newMessage dst).bind fun s =>
      if (s.find (.message src)).isSome then s.copy (.message dst) (.message src) else some s
  else none

def destroyMessage (s : State) (m : Nat) : Option State :=
  if m ∈ s.messages then
    (if (s.find (.message m)).isSome then s.destroy (.message m) else some s).map fun s =>
      { s with messages := s.messages.filter (· ≠ m) }
  else none

end State

inductive TreeEvent where
  | backfill (parent : Option ProcessRef) (unlinked : Process)
  | fork (timestamp : Nat) (parent : ProcessRef) (newPid : Pid)
  | exec (timestamp : Nat) (p : ProcessRef) (newPid : Pid) (program : Program) (cred : Cred)
  | exit (timestamp : Nat) (p : ProcessRef)

def treeEvent (t : ProcessTree) : TreeEvent → Option ProcessTree
  | .backfill parent unlinked => t.backfillInsert parent unlinked
  | .fork timestamp parent newPid => t.handleFork timestamp parent newPid
  | .exec timestamp p newPid program cred => t.handleExec timestamp p newPid program cred
  | .exit timestamp p => t.handleExit timestamp p

inductive Op where
  | event (e : TreeEvent)
  | construct (n : Nat) (pids : List Pid)
  | copy (dst src : Nat)
  | move (dst src : Nat)
  | copyAssign (dst src : Nat)
  | moveAssign (dst src : Nat)
  | destroy (n : Nat)
  | setProcessToken (m n : Nat)
  | newMessage (m : Nat)
  | moveMessage (dst src : Nat)
  | copyMessage (dst src : Nat)
  | destroyMessage (m : Nat)

/- A use of the null tree ends the run. -/
def step (s : State) (op : Op) : Option State :=
  if s.nullTree then none
  else match op with
    | .event e => (treeEvent s.tree e).map fun tree => { s with tree := tree }
    | .construct n pids => s.construct (.object n) pids
    | .copy dst src => s.copy (.object dst) (.object src)
    | .move dst src => s.move (.object dst) (.object src)
    | .copyAssign dst src => s.copyAssign (.object dst) (.object src)
    | .moveAssign dst src => s.moveAssign (.object dst) (.object src)
    | .destroy n => s.destroy (.object n)
    | .setProcessToken m n => s.setProcessToken m n
    | .newMessage m => s.newMessage m
    | .moveMessage dst src => s.moveMessage dst src
    | .copyMessage dst src => s.copyMessage dst src
    | .destroyMessage m => s.destroyMessage m

def State.holders (s : State) (p : Pid) : Nat := s.tokens.countP fun k => p ∈ k.pids

structure Retention (s : State) : Prop where
  treeValid : s.nullTree = false
  retained : ∀ k ∈ s.tokens, ∀ e ∈ k.retained,
    s.tree.get e.1 = some (some e.2) ∧ (s.tree.objects e.2).refcnt = s.holders e.1
  neverNegative : ∀ p r, s.tree.get p = some (some r) → 0 ≤ (s.tree.objects r).refcnt

def Absent (t : ProcessTree) (pids : List Pid) : Prop :=
  ∀ p ∈ pids, ∀ r, t.get p ≠ some (some r)

def Idle (s : State) (slot : Slot) : Prop :=
  ∀ k, s.find slot = some k → k.hasTree = true ∧ Absent s.tree k.pids

def Retainless (s : State) : Op → Prop
  | .event _ => True
  | .construct _ pids => Absent s.tree pids
  | .copy _ src => Idle s (.object src)
  | .move _ _ => True
  | .copyAssign _ _ => False
  | .moveAssign _ _ => True
  | .destroy n => Idle s (.object n)
  | .setProcessToken _ _ => False
  | .newMessage _ => True
  | .moveMessage _ src => s.find (.message src) = none
  | .copyMessage _ src => Idle s (.message src)
  | .destroyMessage m => Idle s (.message m)

def Uncounted (t : ProcessTree) : Prop := ∀ r, (t.objects r).refcnt = 0

structure Inv (s : State) : Prop where
  treeValid : s.nullTree = false
  counts : Uncounted s.tree
  nothing : ∀ k ∈ s.tokens, k.retained = []

theorem Inv.retention {s : State} (inv : Inv s) : Retention s := by
  refine ⟨inv.treeValid, ?_, ?_⟩
  · intro k member e recorded
    simp [inv.nothing k member] at recorded
  · intro p r _
    exact Int.le_of_eq (inv.counts r).symm

theorem find_mem {s : State} {slot : Slot} {k : ProcessToken} (h : s.find slot = some k) :
    k ∈ s.tokens :=
  List.mem_of_find?_eq_some h

theorem usesNullTree_unsafe (s : State) : ¬ Retention s.usesNullTree := by
  intro safe
  exact absurd safe.treeValid (by simp [State.usesNullTree])

/-- The parameter that the body of the constructor reads is empty, so the tree hears of
    nothing. -/
theorem construct_eq (s : State) (slot : Slot) (pids : List Pid) :
    s.construct slot pids =
      if (s.find slot).isSome then none
      else some { s with tokens := ⟨slot, true, pids, s.present pids⟩ :: s.tokens } := rfl

theorem present_absent {s : State} {pids : List Pid} (absent : Absent s.tree pids) :
    s.present pids = [] := by
  simp only [State.present, List.filterMap_eq_nil_iff]
  intro p member
  have missing := absent p member
  cases entry : s.tree.get p with
  | none => rfl
  | some object =>
    cases object with
    | none => rfl
    | some r => exact absurd entry (missing r)

theorem construct_keeps {s t : State} {slot : Slot} {pids : List Pid} (inv : Inv s)
    (absent : Absent s.tree pids) (h : s.construct slot pids = some t) : Inv t := by
  rw [construct_eq] at h
  split at h
  · simp at h
  · simp only [Option.some.injEq, present_absent absent] at h
    subst h
    refine ⟨inv.treeValid, inv.counts, ?_⟩
    intro k member
    rcases List.mem_cons.mp member with new | old
    · subst new
      rfl
    · exact inv.nothing k old

theorem construct_breaks {s t : State} {slot : Slot} {pids : List Pid} (inv : Inv s)
    (named : ¬ Absent s.tree pids) (h : s.construct slot pids = some t) : ¬ Retention t := by
  simp only [Absent, not_forall, not_not] at named
  obtain ⟨p, member, r, found⟩ := named
  rw [construct_eq] at h
  split at h
  · simp at h
  · simp only [Option.some.injEq] at h
    subst h
    intro safe
    have recorded : (p, r) ∈ s.present pids :=
      List.mem_filterMap.mpr ⟨p, member, by simp [found]⟩
    have counted := (safe.retained _ (List.mem_cons_self ..) _ recorded).2
    simp only [inv.counts r, State.holders, List.countP_cons, member, decide_true] at counted
    simp only [if_true] at counted
    omega

theorem copy_keeps {s t : State} {dst src : Slot} (inv : Inv s) (idle : Idle s src)
    (h : s.copy dst src = some t) : Inv t := by
  obtain ⟨other, found, h⟩ := Option.bind_eq_some_iff.mp h
  obtain ⟨valid, absent⟩ := idle other found
  rw [if_pos valid] at h
  exact construct_keeps inv absent h

theorem copy_breaks {s t : State} {dst src : Slot} (inv : Inv s) (busy : ¬ Idle s src)
    (h : s.copy dst src = some t) : ¬ Retention t := by
  obtain ⟨other, found, h⟩ := Option.bind_eq_some_iff.mp h
  split at h
  · rename_i valid
    refine construct_breaks inv ?_ h
    intro absent
    refine busy ?_
    intro k same
    rw [found, Option.some.injEq] at same
    subst same
    exact ⟨valid, absent⟩
  · simp only [Option.some.injEq] at h
    subst h
    exact usesNullTree_unsafe s

theorem nothing_replace {s : State} {slot : Slot} {f : ProcessToken → ProcessToken}
    (nothing : ∀ k ∈ s.tokens, k.retained = [])
    (keep : ∀ k, k.retained = [] → (f k).retained = []) :
    ∀ k ∈ (s.replace slot f).tokens, k.retained = [] := by
  intro k member
  obtain ⟨old, before, same⟩ := List.mem_map.mp member
  subst same
  split
  · exact keep old (nothing old before)
  · exact nothing old before

theorem move_keeps {s t : State} {dst src : Slot} (inv : Inv s) (h : s.move dst src = some t) :
    Inv t := by
  simp only [State.move] at h
  split at h
  · simp at h
  · obtain ⟨other, found, h⟩ := Option.map_eq_some_iff.mp h
    subst h
    refine ⟨inv.treeValid, inv.counts, ?_⟩
    intro k member
    rcases List.mem_cons.mp member with new | old
    · subst new
      exact inv.nothing other (find_mem found)
    · exact nothing_replace (f := State.movedFrom) inv.nothing (fun _ _ => rfl) k old

theorem moveAssign_keeps {s t : State} {dst src : Slot} (inv : Inv s)
    (h : s.moveAssign dst src = some t) : Inv t := by
  simp only [State.moveAssign] at h
  split at h
  · simp at h
  · obtain ⟨target, _, h⟩ := Option.bind_eq_some_iff.mp h
    obtain ⟨other, found, h⟩ := Option.map_eq_some_iff.mp h
    subst h
    refine ⟨inv.treeValid, inv.counts, nothing_replace (nothing_replace inv.nothing ?_) ?_⟩
    · intro _ _
      exact inv.nothing other (find_mem found)
    · exact fun _ _ => rfl

theorem find_slot {s : State} {slot : Slot} {k : ProcessToken} (h : s.find slot = some k) :
    k.slot = slot := by
  simpa using List.find?_some h

theorem find_replace (s : State) (slot other : Slot) (f : ProcessToken → ProcessToken)
    (keep : ∀ k, (f k).slot = k.slot) :
    (s.replace slot f).find other =
      (s.find other).map fun k => if k.slot = slot then f k else k := by
  have same : ((fun k : ProcessToken => decide (k.slot = other)) ∘
      fun k => if k.slot = slot then f k else k) = fun k => decide (k.slot = other) := by
    funext k
    by_cases here : k.slot = slot
    · simp [here, keep]
    · simp [here]
  simp only [State.find, State.replace, List.find?_map, same]

/-- A moved-from token has lost its tree, and its destructor uses it all the same. -/
theorem move_then_destroy {s t : State} {dst src : Slot} (h : s.move dst src = some t) :
    t.destroy src = some t.usesNullTree := by
  simp only [State.move] at h
  split at h
  · simp at h
  · rename_i free
    obtain ⟨other, found, h⟩ := Option.map_eq_some_iff.mp h
    have distinct : dst ≠ src := by
      intro same
      subst same
      simp [found] at free
    have left : t.find src = some (State.movedFrom other) := by
      have moved := find_replace s src src State.movedFrom (fun _ => rfl)
      rw [found, Option.map_some, if_pos (find_slot found)] at moved
      subst h
      simp only [State.find, List.find?_cons, distinct, decide_false] at moved ⊢
      exact moved
    simp only [State.destroy, left, Option.bind_some]
    rfl

theorem moveAssign_then_destroy {s t : State} {dst src : Slot}
    (h : s.moveAssign dst src = some t) : t.destroy src = some t.usesNullTree := by
  simp only [State.moveAssign] at h
  split at h
  · simp at h
  · rename_i distinct
    obtain ⟨target, _, h⟩ := Option.bind_eq_some_iff.mp h
    obtain ⟨other, found, h⟩ := Option.map_eq_some_iff.mp h
    have left : t.find src = some (State.movedFrom other) := by
      subst h
      rw [find_replace _ src src State.movedFrom (fun _ => rfl),
        find_replace s dst src (State.takeOver other) (fun _ => rfl), found, Option.map_some,
        Option.map_some, find_slot found, if_neg (Ne.symm distinct), if_pos (find_slot found)]
    simp only [State.destroy, left, Option.bind_some]
    rfl

theorem releaseOne_absent {t t' : ProcessTree} {p : Pid} (absent : ∀ r, t.get p ≠ some (some r))
    (h : t.releaseOne p = some t') : t' = t := by
  have missing : ∀ r, t.getLocked p ≠ some (some r) := absent
  simp only [ProcessTree.releaseOne] at h
  split at h
  · exact (Option.some.inj h).symm
  · simp at h
  · rename_i r found
    exact absurd found (missing r)

theorem releaseProcess_absent {t t' : ProcessTree} {pids : List Pid} (absent : Absent t pids)
    (h : t.releaseProcess pids = some t') : t' = t := by
  simp only [ProcessTree.releaseProcess] at h
  induction pids generalizing t with
  | nil => exact (Option.some.inj h).symm
  | cons p pids ih =>
    rw [List.foldlM_cons] at h
    obtain ⟨m, first, rest⟩ := Option.bind_eq_some_iff.mp h
    have same := releaseOne_absent (absent p (List.mem_cons_self ..)) first
    subst m
    exact ih (fun q later => absent q (List.mem_cons_of_mem p later)) rest

structure Lowered (t t' : ProcessTree) (pids : List Pid) : Prop where
  entries : t'.map = t.map
  never_up : ∀ r, (t'.objects r).refcnt ≤ (t.objects r).refcnt
  down : ∀ p ∈ pids, ∀ r, t.get p = some (some r) →
    (t'.objects r).refcnt < (t.objects r).refcnt

theorem releaseOne_lowers {t t' : ProcessTree} {p : Pid}
    (low : ∀ r, (t.objects r).refcnt ≤ 0) (h : t.releaseOne p = some t') :
    Lowered t t' [p] := by
  simp only [ProcessTree.releaseOne] at h
  split at h
  · rename_i missing
    have same := Option.some.inj h
    subst same
    refine ⟨rfl, fun r => Int.le_refl _, ?_⟩
    intro q member r found
    rw [List.mem_singleton.mp member] at found
    rw [show t.get p = none from missing] at found
    simp at found
  · simp at h
  · rename_i r found
    -- below zero the count does not reach the value that erases the entry
    have below := low r
    rw [if_neg (by simp [ProcessTree.update]; omega)] at h
    have same := Option.some.inj h
    subst same
    refine ⟨rfl, ?_, ?_⟩
    · intro q
      by_cases here : q = r
      · simp only [ProcessTree.update, here, if_true]
        omega
      · simp [ProcessTree.update, here]
    · intro q member r' entry
      rw [List.mem_singleton.mp member, show t.get p = some (some r) from found] at entry
      simp only [Option.some.injEq] at entry
      subst entry
      simp only [ProcessTree.update, if_true]
      omega

theorem releaseProcess_lowers {t t' : ProcessTree} {pids : List Pid}
    (low : ∀ r, (t.objects r).refcnt ≤ 0) (h : t.releaseProcess pids = some t') :
    Lowered t t' pids := by
  simp only [ProcessTree.releaseProcess] at h
  induction pids generalizing t with
  | nil =>
    have same := Option.some.inj h
    subst same
    exact ⟨rfl, fun r => Int.le_refl _, by simp⟩
  | cons p pids ih =>
    rw [List.foldlM_cons] at h
    obtain ⟨m, first, rest⟩ := Option.bind_eq_some_iff.mp h
    have one := releaseOne_lowers low first
    have others := ih (fun r => Int.le_trans (one.never_up r) (low r)) rest
    refine ⟨others.entries.trans one.entries,
      fun r => Int.le_trans (others.never_up r) (one.never_up r), ?_⟩
    intro q member r found
    rcases List.mem_cons.mp member with same | later
    · subst same
      exact Int.lt_of_le_of_lt (others.never_up r) (one.down q (List.mem_singleton_self q) r found)
    · have still : m.get q = some (some r) := by
        rw [show m.get q = m.map q from rfl, one.entries]
        exact found
      exact Int.lt_of_lt_of_le (others.down q later r still) (one.never_up r)

theorem destroy_keeps {s t : State} {slot : Slot} (inv : Inv s) (idle : Idle s slot)
    (h : s.destroy slot = some t) : Inv t := by
  obtain ⟨k, found, h⟩ := Option.bind_eq_some_iff.mp h
  obtain ⟨valid, absent⟩ := idle k found
  rw [if_pos valid] at h
  obtain ⟨tree, released, h⟩ := Option.map_eq_some_iff.mp h
  have same := releaseProcess_absent absent released
  subst same
  subst h
  exact ⟨inv.treeValid, inv.counts, fun k member => inv.nothing k ((List.mem_filter.mp member).1)⟩

theorem destroy_breaks {s t : State} {slot : Slot} (inv : Inv s) (busy : ¬ Idle s slot)
    (h : s.destroy slot = some t) : ¬ Retention t := by
  obtain ⟨k, found, h⟩ := Option.bind_eq_some_iff.mp h
  split at h
  · rename_i valid
    have named : ¬ Absent s.tree k.pids := by
      intro absent
      refine busy ?_
      intro k' same
      rw [found, Option.some.injEq] at same
      subst same
      exact ⟨valid, absent⟩
    simp only [Absent, not_forall, not_not] at named
    obtain ⟨p, member, r, entry⟩ := named
    obtain ⟨tree, released, h⟩ := Option.map_eq_some_iff.mp h
    subst h
    have lowered := releaseProcess_lowers (fun r => Int.le_of_eq (inv.counts r)) released
    intro safe
    have still : tree.get p = some (some r) := by
      rw [show tree.get p = tree.map p from rfl, lowered.entries]
      exact entry
    have negative := lowered.down p member r entry
    have positive := safe.neverNegative p r still
    rw [inv.counts r] at negative
    exact absurd negative (Int.not_lt.mpr positive)
  · simp only [Option.some.injEq] at h
    subst h
    exact usesNullTree_unsafe s

theorem uncounted_update {t : ProcessTree} (r : ProcessRef) (f : Process → Process)
    (keep : ∀ p, (f p).refcnt = p.refcnt) (none : Uncounted t) : Uncounted (t.update r f) := by
  intro q
  by_cases here : q = r
  · simp only [ProcessTree.update, here, if_true, keep]
    exact none r
  · simp only [ProcessTree.update, here, if_false]
    exact none q

theorem uncounted_makeShared {t : ProcessTree} (pid : Pid) (cred : Cred) (program : Program)
    (parent : Option ProcessRef) (none : Uncounted t) :
    Uncounted (t.makeShared (.new pid cred program parent)).1 := by
  intro q
  by_cases fresh : q = t.nextObject
  · simp [ProcessTree.makeShared, fresh, Process.new]
  · simp only [ProcessTree.makeShared, fresh, if_false]
    exact none q

theorem objects_subscript (t : ProcessTree) (p : Pid) : (t.subscript p).1.objects = t.objects := by
  simp only [ProcessTree.subscript]
  split
  · rfl
  · rfl

theorem objects_emplace (t : ProcessTree) (p : Pid) (r : ProcessRef) :
    (t.emplace p r).objects = t.objects := by
  simp only [ProcessTree.emplace]
  split
  · rfl
  · rfl

theorem uncounted_emplace {t : ProcessTree} (p : Pid) (r : ProcessRef) (none : Uncounted t) :
    Uncounted (t.emplace p r) := by
  intro q
  rw [objects_emplace]
  exact none q

theorem uncounted_subscript {t : ProcessTree} (p : Pid) (none : Uncounted t) :
    Uncounted (t.subscript p).1 := by
  intro q
  rw [objects_subscript]
  exact none q

theorem uncounted_removeOrTombstone {t t' : ProcessTree} {p : Pid} (none : Uncounted t)
    (h : t.removeOrTombstone p = some t') : Uncounted t' := by
  simp only [ProcessTree.removeOrTombstone] at h
  split at h
  · rw [← Option.some.inj h]
    exact none
  · simp at h
  · split at h
    · rw [← Option.some.inj h]
      exact uncounted_update _ _ (fun _ => rfl) none
    · rw [← Option.some.inj h]
      exact none

theorem uncounted_sweep {cutoff : Nat} {entries : List (Nat × Pid)} {t t' : ProcessTree}
    (none : Uncounted t) (h : t.sweep cutoff entries = some t') : Uncounted t' := by
  induction entries generalizing t t' with
  | nil =>
    rw [← Option.some.inj h]
    exact none
  | cons entry rest ih =>
    simp only [ProcessTree.sweep] at h
    split at h
    · obtain ⟨m, removed, h⟩ := Option.bind_eq_some_iff.mp h
      exact ih (uncounted_removeOrTombstone none removed) h
    · obtain ⟨m, swept, h⟩ := Option.map_eq_some_iff.mp h
      have kept := ih none swept
      subst h
      exact kept

theorem uncounted_step {t t' : ProcessTree} {timestamp : Nat} {novel : Bool}
    (none : Uncounted t) (h : t.step timestamp = some (novel, t')) : Uncounted t' := by
  simp only [ProcessTree.step] at h
  split at h
  · simp only [Option.some.injEq, Prod.mk.injEq] at h
    rw [← h.2]
    exact none
  · split at h
    · simp only [Option.some.injEq, Prod.mk.injEq] at h
      rw [← h.2]
      exact none
    · obtain ⟨seen, _, h⟩ := Option.bind_eq_some_iff.mp h
      obtain ⟨m, swept, h⟩ := Option.map_eq_some_iff.mp h
      simp only [Prod.mk.injEq] at h
      rw [← h.2]
      refine uncounted_sweep ?_ swept
      exact none

theorem uncounted_annotateProcess {t t' : ProcessTree} {p : ProcessRef} {a : OriginatorAnnotator}
    (none : Uncounted t) (h : t.annotateProcess p a = some t') : Uncounted t' := by
  simp only [ProcessTree.annotateProcess] at h
  obtain ⟨r, _, h⟩ := Option.map_eq_some_iff.mp h
  subst h
  exact uncounted_update _ _ (fun _ => rfl) (uncounted_subscript _ none)

theorem uncounted_annotateFork {t t' : ProcessTree} {parent child : ProcessRef}
    (none : Uncounted t) (h : t.annotateFork parent child = some t') : Uncounted t' := by
  simp only [ProcessTree.annotateFork] at h
  split at h
  · exact uncounted_annotateProcess none h
  · rw [← Option.some.inj h]
    exact none

theorem uncounted_annotateExec {t t' : ProcessTree} {original new : ProcessRef}
    (none : Uncounted t) (h : t.annotateExec original new = some t') : Uncounted t' := by
  simp only [ProcessTree.annotateExec] at h
  split at h
  · exact uncounted_annotateProcess none h
  · split at h
    · exact uncounted_annotateProcess none h
    · rw [← Option.some.inj h]
      exact none

theorem uncounted_backfillInsert {t t' : ProcessTree} {parent : Option ProcessRef}
    {unlinked : Process} (none : Uncounted t) (h : t.backfillInsert parent unlinked = some t') :
    Uncounted t' := by
  have inserted := uncounted_emplace unlinked.pid t.nextObject
    (uncounted_makeShared unlinked.pid unlinked.effectiveCred unlinked.program parent none)
  simp only [ProcessTree.backfillInsert] at h
  split at h
  · rw [← Option.some.inj h]
    exact inserted
  · refine Runs.foldlM_keeps ?_ inserted h
    intro m _ m' kept annotated
    obtain ⟨forked, first, second⟩ := Option.bind_eq_some_iff.mp annotated
    have after := uncounted_annotateFork kept first
    split at second
    · exact uncounted_annotateExec after second
    · rw [← Option.some.inj second]
      exact after

theorem uncounted_treeEvent {t t' : ProcessTree} {e : TreeEvent} (none : Uncounted t)
    (h : treeEvent t e = some t') : Uncounted t' := by
  cases e with
  | backfill parent unlinked => exact uncounted_backfillInsert none h
  | fork timestamp parent newPid =>
    obtain ⟨⟨novel, m⟩, stepped, h⟩ := Option.bind_eq_some_iff.mp h
    have kept := uncounted_step none stepped
    cases novel with
    | false =>
      rw [← Option.some.inj h]
      exact kept
    | true =>
      refine Runs.foldlM_keeps (fun _ _ _ kept => uncounted_annotateFork kept) ?_ h
      exact uncounted_emplace _ _ (uncounted_makeShared _ _ _ _ (uncounted_subscript _ kept))
  | exec timestamp p newPid program cred =>
    obtain ⟨⟨novel, m⟩, stepped, h⟩ := Option.bind_eq_some_iff.mp h
    have kept := uncounted_step none stepped
    cases novel with
    | false =>
      rw [← Option.some.inj h]
      exact kept
    | true =>
      refine Runs.foldlM_keeps (fun _ _ _ kept => uncounted_annotateExec kept) ?_ h
      refine uncounted_emplace _ _ ?_
      exact uncounted_makeShared newPid cred program (m.objects p).parent kept
  | exit timestamp p =>
    obtain ⟨⟨novel, m⟩, stepped, h⟩ := Option.map_eq_some_iff.mp h
    have kept := uncounted_step none stepped
    cases novel with
    | false =>
      subst h
      exact kept
    | true =>
      subst h
      exact kept

theorem andThen_some {s : Option State} {f : State → Option State} {t : State}
    (h : State.andThen s f = some t) :
    ∃ m, s = some m ∧ (m.nullTree = true ∧ t = m ∨ f m = some t) := by
  obtain ⟨m, first, second⟩ := Option.bind_eq_some_iff.mp h
  refine ⟨m, first, ?_⟩
  split at second
  · rename_i used
    exact Or.inl ⟨used, (Option.some.inj second).symm⟩
  · exact Or.inr second

theorem nullTree_unsafe {s : State} (used : s.nullTree = true) : ¬ Retention s := by
  intro safe
  exact absurd safe.treeValid (by simp [used])

theorem copyAssign_breaks {s t : State} {dst src : Slot} (h : s.copyAssign dst src = some t) :
    ¬ Retention t := by
  obtain ⟨m, first, second⟩ := andThen_some h
  rcases second with ⟨used, same⟩ | destroyed
  · rw [same]
    exact nullTree_unsafe used
  · obtain ⟨n, _, assigned⟩ := andThen_some first
    rcases assigned with ⟨used, same⟩ | assigned
    · -- the destructor of the temporary cannot undo the use
      subst m
      have kept : t.nullTree = true := by
        obtain ⟨k, _, destroyed⟩ := Option.bind_eq_some_iff.mp destroyed
        split at destroyed
        · obtain ⟨tree, _, destroyed⟩ := Option.map_eq_some_iff.mp destroyed
          rw [← destroyed]
          exact used
        · rw [← Option.some.inj destroyed]
          rfl
      exact nullTree_unsafe kept
    · rw [moveAssign_then_destroy assigned] at destroyed
      rw [← Option.some.inj destroyed]
      exact usesNullTree_unsafe m

theorem setProcessToken_breaks {s t : State} {m n : Nat} (h : s.setProcessToken m n = some t) :
    ¬ Retention t := by
  simp only [State.setProcessToken] at h
  split at h
  · obtain ⟨c, moved, after⟩ := andThen_some h
    rcases after with ⟨used, same⟩ | destroyed
    · rw [same]
      exact nullTree_unsafe used
    · have gone : c.destroy (.object n) = some c.usesNullTree := by
        split at moved
        · exact moveAssign_then_destroy moved
        · exact move_then_destroy moved
      rw [gone] at destroyed
      rw [← Option.some.inj destroyed]
      exact usesNullTree_unsafe c
  · simp at h

theorem newMessage_eq {s t : State} {m : Nat} (h : s.newMessage m = some t) :
    t = { s with messages := m :: s.messages } := by
  simp only [State.newMessage] at h
  split at h
  · simp at h
  · exact (Option.some.inj h).symm

theorem inv_messages {s : State} (inv : Inv s) (messages : List Nat) :
    Inv { s with messages := messages } :=
  ⟨inv.treeValid, inv.counts, inv.nothing⟩

theorem idle_none {s : State} {slot : Slot} (free : s.find slot = none) : Idle s slot := by
  intro k found
  simp [free] at found

theorem moveMessage_keeps {s t : State} {dst src : Nat} (inv : Inv s)
    (empty : s.find (.message src) = none) (h : s.moveMessage dst src = some t) : Inv t := by
  simp only [State.moveMessage] at h
  split at h
  · obtain ⟨m, made, h⟩ := Option.bind_eq_some_iff.mp h
    have same := newMessage_eq made
    subst same
    have free : State.find { s with messages := dst :: s.messages } (.message src) = none := empty
    rw [free] at h
    rw [← Option.some.inj h]
    exact inv_messages inv _
  · simp at h

theorem moveMessage_breaks {s t : State} {dst src : Nat}
    (full : ¬ s.find (.message src) = none) (h : s.moveMessage dst src = some t) :
    ¬ Retention t := by
  simp only [State.moveMessage] at h
  split at h
  · obtain ⟨m, made, h⟩ := Option.bind_eq_some_iff.mp h
    have same := newMessage_eq made
    subst same
    have held : (State.find { s with messages := dst :: s.messages } (.message src)).isSome := by
      exact Option.isSome_iff_ne_none.mpr full
    rw [if_pos held] at h
    obtain ⟨c, moved, after⟩ := andThen_some h
    rcases after with ⟨used, same⟩ | destroyed
    · rw [same]
      exact nullTree_unsafe used
    · rw [move_then_destroy moved] at destroyed
      rw [← Option.some.inj destroyed]
      exact usesNullTree_unsafe c
  · simp at h

theorem copyMessage_cases {s t : State} {dst src : Nat} (h : s.copyMessage dst src = some t) :
    (s.find (.message src) = none ∧ t = { s with messages := dst :: s.messages }) ∨
      State.copy { s with messages := dst :: s.messages } (.message dst) (.message src) =
        some t := by
  simp only [State.copyMessage] at h
  split at h
  · obtain ⟨m, made, h⟩ := Option.bind_eq_some_iff.mp h
    have same := newMessage_eq made
    subst same
    split at h
    · exact Or.inr h
    · rename_i free
      exact Or.inl ⟨Option.not_isSome_iff_eq_none.mp free, (Option.some.inj h).symm⟩
  · simp at h

theorem destroyMessage_cases {s t : State} {m : Nat} (h : s.destroyMessage m = some t) :
    ∃ c, t = { c with messages := c.messages.filter (· ≠ m) } ∧
      (s.find (.message m) = none ∧ c = s ∨ s.destroy (.message m) = some c) := by
  simp only [State.destroyMessage] at h
  split at h
  · obtain ⟨c, first, h⟩ := Option.map_eq_some_iff.mp h
    refine ⟨c, h.symm, ?_⟩
    split at first
    · exact Or.inr first
    · rename_i free
      exact Or.inl ⟨Option.not_isSome_iff_eq_none.mp free, (Option.some.inj first).symm⟩
  · simp at h

theorem step_running {s : State} (inv : Inv s) (op : Op) :
    step s op = match op with
      | .event e => (treeEvent s.tree e).map fun tree => { s with tree := tree }
      | .construct n pids => s.construct (.object n) pids
      | .copy dst src => s.copy (.object dst) (.object src)
      | .move dst src => s.move (.object dst) (.object src)
      | .copyAssign dst src => s.copyAssign (.object dst) (.object src)
      | .moveAssign dst src => s.moveAssign (.object dst) (.object src)
      | .destroy n => s.destroy (.object n)
      | .setProcessToken m n => s.setProcessToken m n
      | .newMessage m => s.newMessage m
      | .moveMessage dst src => s.moveMessage dst src
      | .copyMessage dst src => s.copyMessage dst src
      | .destroyMessage m => s.destroyMessage m := by
  simp [step, inv.treeValid]

theorem step_keeps (s : State) (op : Op) (t : State) (inv : Inv s) (quiet : Retainless s op)
    (h : step s op = some t) : Inv t := by
  rw [step_running inv] at h
  cases op with
  | event e =>
    obtain ⟨tree, applied, h⟩ := Option.map_eq_some_iff.mp h
    subst h
    exact ⟨inv.treeValid, uncounted_treeEvent inv.counts applied, inv.nothing⟩
  | construct n pids => exact construct_keeps inv quiet h
  | copy dst src => exact copy_keeps inv quiet h
  | move dst src => exact move_keeps inv h
  | copyAssign dst src => exact absurd quiet (by simp [Retainless])
  | moveAssign dst src => exact moveAssign_keeps inv h
  | destroy n => exact destroy_keeps inv quiet h
  | setProcessToken m n => exact absurd quiet (by simp [Retainless])
  | newMessage m =>
    rw [newMessage_eq h]
    exact inv_messages inv _
  | moveMessage dst src => exact moveMessage_keeps inv quiet h
  | copyMessage dst src =>
    rcases copyMessage_cases h with ⟨_, same⟩ | copied
    · rw [same]
      exact inv_messages inv _
    · exact copy_keeps (inv_messages inv (dst :: s.messages)) quiet copied
  | destroyMessage m =>
    obtain ⟨c, same, ⟨_, unchanged⟩ | destroyed⟩ := destroyMessage_cases h
    · rw [same, unchanged]
      exact inv_messages inv _
    · rw [same]
      exact inv_messages (destroy_keeps inv quiet destroyed) _

theorem step_breaks (s : State) (op : Op) (t : State) (inv : Inv s) (loud : ¬ Retainless s op)
    (h : step s op = some t) : ¬ Retention t := by
  rw [step_running inv] at h
  cases op with
  | event e => exact absurd trivial loud
  | construct n pids => exact construct_breaks inv loud h
  | copy dst src => exact copy_breaks inv loud h
  | move dst src => exact absurd trivial loud
  | copyAssign dst src => exact copyAssign_breaks h
  | moveAssign dst src => exact absurd trivial loud
  | destroy n => exact destroy_breaks inv loud h
  | setProcessToken m n => exact setProcessToken_breaks h
  | newMessage m => exact absurd trivial loud
  | moveMessage dst src => exact moveMessage_breaks loud h
  | copyMessage dst src =>
    rcases copyMessage_cases h with ⟨free, _⟩ | copied
    · exact absurd (idle_none free) loud
    · exact copy_breaks (inv_messages inv (dst :: s.messages)) loud copied
  | destroyMessage m =>
    obtain ⟨c, same, ⟨free, _⟩ | destroyed⟩ := destroyMessage_cases h
    · exact absurd (idle_none free) loud
    · intro safe
      rw [same] at safe
      exact destroy_breaks inv loud destroyed ⟨safe.treeValid, safe.retained, safe.neverNegative⟩

theorem inv_new (annotators : List OriginatorAnnotator) : Inv (State.new annotators) :=
  ⟨rfl, fun _ => rfl, by simp [State.new]⟩

/-- Tokens keep their promise exactly in the runs that give them nothing to keep. -/
theorem retention_iff (annotators : List OriginatorAnnotator) (ops : List Op) :
    Runs.Always step Retention (State.new annotators) ops ↔
      Runs.Meets step Retainless (State.new annotators) ops :=
  Runs.always_iff_meets Inv (fun _ inv => inv.retention) step_keeps step_breaks
    (inv_new annotators) ops

def launchd : Process := .new ⟨1, 1⟩ ⟨0, 0⟩ ⟨"/sbin/launchd", []⟩ none

/-- A token for a backfilled process leaves its count at zero. -/
theorem constructed_token_not_counted :
    ¬ ∀ annotators ops, Runs.Always step Retention (State.new annotators) ops := by
  intro always
  have held : (Runs.run step (State.new [])
      [.event (.backfill none launchd), .construct 0 [⟨1, 1⟩]]).map
        (fun s => (s.tokens.map (·.retained), (s.tree.objects 0).refcnt, s.holders ⟨1, 1⟩)) =
      some ([[(⟨1, 1⟩, 0)]], 0, 1) := by
    decide
  obtain ⟨last, ends, seen⟩ := Option.map_eq_some_iff.mp held
  simp only [Prod.mk.injEq] at seen
  obtain ⟨tokens, count, holders⟩ := seen
  have member : [((⟨1, 1⟩ : Pid), (0 : ProcessRef))] ∈ last.tokens.map (·.retained) := by
    simp [tokens]
  obtain ⟨k, alive, retained⟩ := List.mem_map.mp member
  have safe := Runs.always_last (always [] _) ends
  have counted := (safe.retained k alive (⟨1, 1⟩, 0) (by simp [retained])).2
  simp [count, holders] at counted

end Tokens
end SantaProcessTree
