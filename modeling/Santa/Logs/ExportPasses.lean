import Santa.Logs.TelemetryExport

/-!
The passes of the export loop. A file may be handed out in a later pass if the reader
has it to give, or the tracker has it as not exported. A pass that is followed by
another has exported a file, so there are no more passes than files, as long as the
loop does not overtake a reply block.
-/
namespace SantaTelemetryExport

theorem countP_lt {A : Type} {p q : A → Bool} {l : List A}
    (weaker : ∀ x ∈ l, p x = true → q x = true) {x : A} (member : x ∈ l) (now : ¬ p x = true)
    (before : q x = true) : l.countP p < l.countP q := by
  induction l with
  | nil => exact absurd member List.not_mem_nil
  | cons y l ih =>
    have rest : ∀ z ∈ l, p z = true → q z = true := fun z there =>
      weaker z (List.mem_cons_of_mem y there)
    obtain rfl | there := List.mem_cons.mp member
    · rw [List.countP_cons_of_neg now, List.countP_cons_of_pos before]
      exact Nat.lt_succ_of_le (List.countP_mono_left rest)
    · have fewer := ih rest there
      by_cases counted : p y = true
      · rw [List.countP_cons_of_pos counted,
          List.countP_cons_of_pos (weaker y List.mem_cons_self counted)]
        exact Nat.succ_lt_succ fewer
      · rw [List.countP_cons_of_neg counted, List.countP_cons]
        omega

namespace System

def candidate (s : System) (f : File) : Bool :=
  !s.unackedMessages f.path || s.fileState f.path == some false

def candidates (s : System) : Nat := s.spool.countP s.candidate
def free (s : System) : Nat := s.spool.countP fun f => !s.unackedMessages f.path

end System

def Held (s : System) (path : String) : Prop :=
  path ∈ s.spool.map File.path ∧ s.unackedMessages path = true

def Pending (s : System) (paths : List String) : Prop :=
  ∀ path ∈ paths, s.fileState path = some false

structure Batch.Formed (b : Batch) : Prop where
  typed : b.pathsToHandles ≠ [] → b.curLogType ≠ .unknown
  apart : ∀ path ∈ b.others, path ∉ b.pathsToHandles

structure Underway (s : System) (b : Batch) (n : Nat) (e : Export) : Prop where
  here : s.exports n = some e
  call : e.call = s.call
  files : e.files = b.pathsToHandles
  nonempty : b.pathsToHandles ≠ []
  apart : ∀ path ∈ b.others, path ∉ b.pathsToHandles
  others : Pending s b.others
  untold : e.executed ≠ some true → Pending s b.pathsToHandles
  told : e.executed = some true → ∀ path ∈ b.pathsToHandles,
    (path ∈ e.unacknowledged ∧ s.fileState path = some false) ∨ s.fileState path = some true
  pays : Pending s b.pathsToHandles ∨ s.passes + s.candidates ≤ s.found
  flag : e.stored = true → e.executed = some (s.replyBlockSuccess e.call)

structure Over (s : System) (n : Nat) (e : Export) : Prop where
  here : s.exports n = some e
  call : e.call = s.call
  answered : e.executed ≠ none
  none : e.unacknowledged = []
  pays : e.executed = some true → s.passes + s.candidates ≤ s.found
  flag : e.stored = true → e.executed = some (s.replyBlockSuccess e.call)

def Place (s : System) : Phase → Prop
  | .idle => True
  | .filling b => b.Formed ∧ Pending s b.pathsToHandles ∧ Pending s b.others ∧
      s.handed + s.free ≤ s.found
  | .filled b => b.Formed ∧ Pending s b.pathsToHandles ∧ Pending s b.others
  | .waiting b n => ∃ e, Underway s b n e
  | .timedOut b n => ∃ e, Underway s b n e
  | .draining b none => Pending s b.pathsToHandles ∧ Pending s b.others
  | .draining b (some n) => ∃ e, Underway s b n e ∧ e.executed ≠ none
  | .drained _ n => ∃ e, Over s n e

def Phase.sent : Phase → Option Nat
  | .waiting _ n => some n
  | .timedOut _ n => some n
  | .draining _ sent => sent
  | .drained _ n => some n
  | _ => none

structure Settled (e : Export) : Prop where
  answered : e.executed ≠ none
  stored : e.stored = true
  none : e.unacknowledged = []

def Phase.cost : Phase → Nat
  | .filling _ => 0
  | .filled _ => 1
  | .waiting _ _ => 2
  | .timedOut _ _ => 3
  | .draining _ _ => 4
  | .drained _ _ => 5
  | .idle => 6

def System.price (s : System) : Nat :=
  (s.passes - 1) * (s.found + 6) + s.handed + s.phase.cost

structure Inv (s : System) : Prop where
  base : Base s
  tracked : ∀ path, s.fileState path ≠ none → Held s path
  owed : ∀ path, s.owed path = true → Offered s path
  past : ∀ n e, s.exports n = some e → s.phase.sent ≠ some n → Settled e
  place : Place s s.phase
  begun : s.phase ≠ .idle → 0 < s.passes
  bound : s.phase ≠ .idle → s.passes + s.candidates ≤ s.found + 1
  passes : s.passes ≤ s.found + 1
  handed : s.handed ≤ s.found

theorem inv_start : Inv .start where
  base := base_start
  tracked := by simp [System.start]
  owed := by simp [System.start]
  past := by simp [System.start]
  place := trivial
  begun := absurd rfl
  bound := absurd rfl
  passes := Nat.zero_le _
  handed := Nat.zero_le _

/-! ### The reply block -/

theorem Place.other {s : System} {n : Nat} {e' : Export} (h : Place s s.phase)
    (other : s.phase.sent ≠ some n) :
    Place { s with exports := Function.update s.exports n (some e') } s.phase := by
  have kept : ∀ m, s.phase.sent = some m →
      Function.update s.exports n (some e') m = s.exports m := by
    intro m sent
    refine Function.update_of_ne ?_ ..
    rintro rfl
    exact other sent
  revert kept h
  cases s.phase with
  | waiting b m =>
    rintro ⟨e, h⟩ kept
    exact ⟨e, { h with here := (kept m rfl).trans h.here }⟩
  | timedOut b m =>
    rintro ⟨e, h⟩ kept
    exact ⟨e, { h with here := (kept m rfl).trans h.here }⟩
  | draining b sent =>
    cases sent with
    | none => exact fun h _ => h
    | some m =>
      rintro ⟨e, h, answered⟩ kept
      exact ⟨e, { h with here := (kept m rfl).trans h.here }, answered⟩
  | drained b m =>
    rintro ⟨e, h⟩ kept
    exact ⟨e, { h with here := (kept m rfl).trans h.here }⟩
  | _ => exact fun h _ => h

theorem Inv.advance {s : System} {n : Nat} {e' : Export} {flags : Nat → Bool} (h : Inv s)
    (base : Base { s with
      replyBlockSuccess := flags
      exports := Function.update s.exports n (some e') })
    (settled : s.phase.sent ≠ some n → Settled e')
    (place : Place { s with
      replyBlockSuccess := flags
      exports := Function.update s.exports n (some e') } s.phase) :
    Inv { s with
      replyBlockSuccess := flags
      exports := Function.update s.exports n (some e') } where
  base := base
  tracked := h.tracked
  owed := h.owed
  past m d there other := by
    obtain ⟨rfl, rfl⟩ | ⟨-, there⟩ := exports_update there
    · exact settled other
    · exact h.past m d there other
  place := place
  begun := h.begun
  bound := h.bound
  passes := h.passes
  handed := h.handed

theorem Place.split {s : System} {n : Nat} {e : Export} (h : Place s s.phase)
    (sent : s.phase.sent = some n) (here : s.exports n = some e) :
    (∃ b, Underway s b n e) ∨ Over s n e := by
  revert sent h
  cases s.phase with
  | waiting b m =>
    rintro ⟨d, h⟩ ⟨⟩
    obtain rfl := Option.some.inj (here.symm.trans h.here)
    exact .inl ⟨b, h⟩
  | timedOut b m =>
    rintro ⟨d, h⟩ ⟨⟩
    obtain rfl := Option.some.inj (here.symm.trans h.here)
    exact .inl ⟨b, h⟩
  | draining b m =>
    rintro h ⟨⟩
    obtain ⟨d, h, -⟩ := h
    obtain rfl := Option.some.inj (here.symm.trans h.here)
    exact .inl ⟨b, h⟩
  | drained b m =>
    rintro ⟨d, h⟩ ⟨⟩
    obtain rfl := Option.some.inj (here.symm.trans h.here)
    exact .inr h
  | _ =>
    intro h sent
    cases sent

theorem Place.current {s t : System} {n : Nat} {e e' : Export} (h : Place s s.phase)
    (sent : s.phase.sent = some n) (here : s.exports n = some e)
    (underway : ∀ b, Underway s b n e → Underway t b n e')
    (answered : e.executed ≠ none → e'.executed ≠ none)
    (ended : Over s n e → Over t n e') : Place t s.phase := by
  revert sent h
  cases s.phase with
  | waiting b m =>
    rintro ⟨d, h⟩ ⟨⟩
    obtain rfl := Option.some.inj (here.symm.trans h.here)
    exact ⟨e', underway b h⟩
  | timedOut b m =>
    rintro ⟨d, h⟩ ⟨⟩
    obtain rfl := Option.some.inj (here.symm.trans h.here)
    exact ⟨e', underway b h⟩
  | draining b m =>
    rintro h ⟨⟩
    obtain ⟨d, h, executed⟩ := h
    obtain rfl := Option.some.inj (here.symm.trans h.here)
    exact ⟨e', underway b h, answered executed⟩
  | drained b m =>
    rintro ⟨d, h⟩ ⟨⟩
    obtain rfl := Option.some.inj (here.symm.trans h.here)
    exact ⟨e', ended h⟩
  | _ =>
    intro h sent
    cases sent

theorem Underway.starts {s : System} {b : Batch} {n : Nat} {e : Export} (h : Underway s b n e)
    (formed : Formed e) (waits : e.executed = none) (success : Bool) :
    Underway { s with exports := Function.update s.exports n (some (e.executes success)) } b n
      (e.executes success) :=
  { h with
    here := Function.update_self ..
    untold := fun _ => h.untold (by simp [waits])
    told := by
      intro answered path member
      obtain rfl := Option.some.inj answered
      have sent : path ∈ e.files := h.files ▸ member
      exact .inl ⟨sent, h.untold (by simp [waits]) path member⟩
    flag := fun stored => absurd waits (formed.stored stored) }

theorem flag_update (flags : Nat → Bool) (call : Nat) {success : Bool} {answer : Option Bool}
    (answered : answer = some success) :
    answer = some (Function.update flags call success call) := by
  rw [Function.update_self]
  exact answered

theorem Underway.stores {s : System} {b : Batch} {n : Nat} {e : Export} {success : Bool}
    (h : Underway s b n e) (answered : e.executed = some success) :
    Underway (s.replyStores n e success) b n { e with stored := true } :=
  { h with
    here := Function.update_self ..
    flag := fun _ => flag_update s.replyBlockSuccess e.call answered }

theorem Over.stores {s : System} {n : Nat} {e : Export} {success : Bool} (h : Over s n e)
    (answered : e.executed = some success) :
    Over (s.replyStores n e success) n { e with stored := true } :=
  { h with
    here := Function.update_self ..
    flag := fun _ => flag_update s.replyBlockSuccess e.call answered }

theorem Underway.signals {s : System} {b : Batch} {n : Nat} {e : Export} (h : Underway s b n e) :
    Underway (s.replySignals n e) b n { e with completed := true } :=
  { h with here := Function.update_self .. }

theorem Over.signals {s : System} {n : Nat} {e : Export} (h : Over s n e) :
    Over (s.replySignals n e) n { e with completed := true } :=
  { h with here := Function.update_self .. }

theorem Underway.gives_up {s : System} {b : Batch} {n : Nat} {e : Export} (h : Underway s b n e)
    (waits : e.executed = none) :
    Underway { s with
      replyBlockSuccess := Function.update s.replyBlockSuccess e.call false
      exports := Function.update s.exports n (some e.failed) } b n e.failed :=
  { h with
    here := Function.update_self ..
    untold := fun _ => h.untold (by simp [waits])
    told := fun answered => absurd (Option.some.inj answered) Bool.false_ne_true
    flag := fun _ => flag_update s.replyBlockSuccess e.call rfl }

/-! An acknowledgement takes a file from those that a later pass may be handed. -/

theorem fileState_ackCompleted {s : System} {path q : String} (other : q ≠ path) :
    (s.ackCompleted path).fileState q = s.fileState q :=
  Function.update_of_ne other ..

theorem candidate_ackCompleted {s : System} {path : String} {f : File}
    (counted : (s.ackCompleted path).candidate f = true) : s.candidate f = true := by
  by_cases same : f.path = path
  · have unacked : s.unackedMessages f.path = false := by
      simpa [System.candidate, System.ackCompleted, same] using counted
    simp [System.candidate, unacked]
  · rw [System.candidate, fileState_ackCompleted same] at counted
    exact counted

theorem candidates_ackCompleted (s : System) (path : String) :
    (s.ackCompleted path).candidates ≤ s.candidates :=
  List.countP_mono_left fun _ _ => candidate_ackCompleted

theorem candidates_drop {s : System} {path : String} (held : Held s path)
    (pending : s.fileState path = some false) :
    (s.ackCompleted path).candidates < s.candidates := by
  obtain ⟨member, unacked⟩ := held
  obtain ⟨f, there, rfl⟩ := List.mem_map.mp member
  refine countP_lt (fun _ _ => candidate_ackCompleted) there ?_ ?_
  · simp [System.candidate, System.ackCompleted, unacked]
  · simp [System.candidate, pending]

theorem Underway.tracked {s : System} {b : Batch} {n : Nat} {e : Export} {path : String}
    (h : Underway s b n e) (member : path ∈ b.pathsToHandles) : s.fileState path ≠ none := by
  by_cases answered : e.executed = some true
  · obtain ⟨-, pending⟩ | acked := h.told answered path member
    · exact pending ▸ Option.some_ne_none _
    · exact acked ▸ Option.some_ne_none _
  · exact h.untold answered path member ▸ Option.some_ne_none _

theorem Underway.acks {s : System} {b : Batch} {n : Nat} {e : Export} {path : String}
    (h : Underway s b n e) (held : ∀ path, s.fileState path ≠ none → Held s path)
    (bound : s.passes + s.candidates ≤ s.found + 1) (formed : Formed e)
    (member : path ∈ e.unacknowledged) :
    Underway (s.replyAcks n e path) b n
      { e with unacknowledged := e.unacknowledged.erase path } := by
  obtain ⟨sent, answered⟩ := formed.acks path member
  rw [h.files] at sent
  refine { h with
    here := Function.update_self ..
    others := ?_
    untold := ?_
    told := ?_
    pays := ?_ }
  · intro q other
    have apart : q ≠ path := by
      rintro rfl
      exact h.apart q other sent
    exact (fileState_ackCompleted apart).trans (h.others q other)
  · exact fun unanswered => absurd answered unanswered
  · intro _ q there
    by_cases same : q = path
    · subst q
      exact .inr (Function.update_self ..)
    · exact (h.told answered q there).imp
        (fun ⟨left, pending⟩ =>
          ⟨(List.mem_erase_of_ne same).mpr left, (fileState_ackCompleted same).trans pending⟩)
        (fileState_ackCompleted same).trans
  · -- The first acknowledgement of the batch pays for the next pass.
    right
    show s.passes + (s.ackCompleted path).candidates ≤ s.found
    obtain pending | paid := h.pays
    · have pending := pending path sent
      have drop := candidates_drop (held path (pending ▸ Option.some_ne_none _)) pending
      omega
    · have fewer := candidates_ackCompleted s path
      omega

theorem Inv.sent_of_unsettled {s : System} {n : Nat} {e : Export} (h : Inv s)
    (here : s.exports n = some e) (unsettled : ¬ Settled e) : s.phase.sent = some n := by
  by_contra other
  exact unsettled (h.past n e here other)

theorem Inv.replyStarts {s : System} {n : Nat} {e : Export} (h : Inv s)
    (here : s.exports n = some e) (success : Bool) : Inv (s.replyStarts n e success) := by
  unfold System.replyStarts
  by_cases waits : e.executed = none
  · rw [if_pos waits]
    have formed := h.base.formed n e here
    have sent := h.sent_of_unsettled here fun settled => settled.answered waits
    exact h.advance (h.base.advance here (advances_starts formed waits success))
      (fun other => absurd sent other)
      (h.place.current sent here (fun b underway => underway.starts formed waits success)
        (fun answered => absurd waits answered) fun ended => absurd waits ended.answered)
  · rw [if_neg waits]
    exact h

theorem Inv.replyStores {s : System} {n : Nat} {e : Export} {success : Bool} (h : Inv s)
    (here : s.exports n = some e) (answered : e.executed = some success)
    (unstored : ¬ e.stored = true) : Inv (s.replyStores n e success) := by
  have formed := h.base.formed n e here
  have sent := h.sent_of_unsettled here fun settled => unstored settled.stored
  exact h.advance ((h.base.advance here (advances_stores formed answered)).flags _)
    (fun other => absurd sent other)
    (h.place.current sent here (fun b underway => underway.stores answered) id
      fun ended => ended.stores answered)

theorem Inv.replySignals {s : System} {n : Nat} {e : Export} (h : Inv s)
    (here : s.exports n = some e) (stored : e.stored = true) (none : e.unacknowledged = []) :
    Inv (s.replySignals n e) := by
  have formed := h.base.formed n e here
  refine h.advance (h.base.advance here (advances_signals formed stored none)) ?_ ?_
  · exact fun _ => ⟨formed.stored stored, stored, none⟩
  · by_cases sent : s.phase.sent = some n
    · exact h.place.current sent here (fun b => Underway.signals) id Over.signals
    · exact h.place.other sent

theorem Inv.callsReplyBlock {s : System} {b : Batch} {n : Nat} {e : Export} (h : Inv s)
    (here : s.exports n = some e) (phase : s.phase = .timedOut b n) :
    Inv (s.callsReplyBlock n e) := by
  unfold System.callsReplyBlock
  by_cases waits : e.executed = none
  · rw [if_pos waits]
    have formed := h.base.formed n e here
    have sent : s.phase.sent = some n := by rw [phase, Phase.sent]
    exact h.advance ((h.base.advance here (advances_gives_up formed waits)).flags _)
      (fun other => absurd sent other)
      (h.place.current sent here (fun b underway => underway.gives_up waits)
        (fun answered => absurd waits answered) fun ended => absurd waits ended.answered)
  · rw [if_neg waits]
    exact h

theorem Inv.replyAcks {s : System} {n : Nat} {e : Export} {path : String} (h : Inv s)
    (here : s.exports n = some e) (member : path ∈ e.unacknowledged) :
    Inv (s.replyAcks n e path) := by
  have formed := h.base.formed n e here
  have sent := h.sent_of_unsettled here fun settled => by
    rw [settled.none] at member
    exact absurd member List.not_mem_nil
  have waited : s.phase ≠ .idle := by
    intro idle
    rw [idle] at sent
    cases sent
  have held : Held s path := by
    obtain ⟨b, underway⟩ | ended := h.place.split sent here
    · exact h.tracked path (underway.tracked (underway.files ▸ (formed.acks path member).1))
    · rw [ended.none] at member
      exact absurd member List.not_mem_nil
  refine ⟨h.base.replyAcks here member, ?_, h.owed, ?_, ?_, h.begun, ?_, h.passes, h.handed⟩
  · intro q tracked
    by_cases same : q = path
    · exact same ▸ held
    · exact h.tracked q (fileState_ackCompleted same ▸ tracked)
  · intro m d there other
    obtain ⟨rfl, -⟩ | ⟨-, there⟩ := exports_update there
    · exact absurd sent other
    · exact h.past m d there other
  · exact h.place.current sent here
      (fun b underway => underway.acks h.tracked (h.bound waited) formed member) id
      fun ended => absurd (ended.none ▸ member) List.not_mem_nil
  · intro _
    have bound := h.bound waited
    have fewer := candidates_ackCompleted s path
    show s.passes + (s.ackCompleted path).candidates ≤ s.found + 1
    omega

/-! ### The loop -/

theorem Inv.free_untracked {s : System} {path : String} (h : Inv s)
    (free : s.unackedMessages path = false) : s.fileState path = none := by
  by_contra tracked
  have held := (h.tracked path tracked).2
  rw [free] at held
  cases held

theorem pending_ne {s : System} {paths : List String} {path q : String} (h : Pending s paths)
    (untracked : s.fileState path = none) (member : q ∈ paths) : q ≠ path := by
  rintro rfl
  rw [h q member] at untracked
  cases untracked

theorem Batch.Formed.add {b : Batch} {file : File} {logType : ExportLogType} (h : b.Formed)
    (supported : logType ≠ .unknown) (apart : file.path ∉ b.pathsToHandles)
    (apart' : file.path ∉ b.others) : (b.add file logType).Formed := by
  unfold Batch.add
  split
  · refine ⟨fun _ => supported, ?_⟩
    intro path other member
    obtain rfl | before := List.mem_insert_iff.mp member
    · exact apart' other
    · exact h.apart path other before
  · refine ⟨h.typed, ?_⟩
    intro path other
    obtain rfl | other := List.mem_cons.mp other
    · exact apart
    · exact h.apart path other

theorem mem_add_others {b : Batch} {file : File} {logType : ExportLogType} {path : String}
    (member : path ∈ (b.add file logType).others) : path = file.path ∨ path ∈ b.others := by
  unfold Batch.add at member
  split at member
  · exact .inr member
  · exact List.mem_cons.mp member

theorem free_nextFile {s : System} {file : File} (member : file ∈ s.spool)
    (free : s.unackedMessages file.path = false) :
    (s.nextFileToExport file.path).free < s.free := by
  refine countP_lt ?_ member ?_ (by simp [free])
  · intro f _ counted
    by_cases same : f.path = file.path
    · simp [same, free]
    · simpa [System.nextFileToExport, same] using counted
  · simp [System.nextFileToExport]

theorem candidates_nextFile {s t : System} {file : File}
    (free : s.unackedMessages file.path = false) (spool : t.spool = s.spool)
    (unacked : t.unackedMessages = (s.nextFileToExport file.path).unackedMessages)
    (others : ∀ q, q ≠ file.path → t.fileState q = s.fileState q) :
    t.candidates ≤ s.candidates := by
  unfold System.candidates
  rw [spool]
  refine List.countP_mono_left fun f _ counted => ?_
  by_cases same : f.path = file.path
  · simp [System.candidate, same, free]
  · rw [System.candidate, unacked, others f.path same] at counted
    simpa [System.candidate, System.nextFileToExport, same] using counted

structure HandedOut (s t : System) (b : Batch) (file : File) : Prop where
  base : Base t
  spool : t.spool = s.spool
  unacked : t.unackedMessages = (s.nextFileToExport file.path).unackedMessages
  others : ∀ q, q ≠ file.path → t.fileState q = s.fileState q
  owed : t.owed = (s.nextFileToExport file.path).owed
  exports : t.exports = s.exports
  passes : t.passes = s.passes
  found : t.found = s.found
  handed : t.handed = s.handed + 1
  moves : t.moves = s.moves
  phase : ∃ b' : Batch, (t.phase = .filling b' ∨ t.phase = .filled b') ∧ b'.Formed ∧
    Pending t b'.pathsToHandles ∧ Pending t b'.others

theorem pending_others {s t : System} {paths : List String} {path : String}
    (h : Pending s paths) (untracked : s.fileState path = none)
    (others : ∀ q, q ≠ path → t.fileState q = s.fileState q) : Pending t paths :=
  fun q member => (others q (pending_ne h untracked member)).trans (h q member)

theorem Inv.handsOut {s : System} {b : Batch} {file : File} {a : Answers} (h : Inv s)
    (phase : s.phase = .filling b) (member : file ∈ s.spool)
    (free : s.unackedMessages file.path = false) :
    HandedOut s (s.openFile b file a) b file := by
  have base := h.base.openFile phase (a := a) member free
  have place := h.place
  rw [phase] at place
  obtain ⟨formed, handles, others, -⟩ := place
  have untracked := h.free_untracked free
  cases accepted : accepts file a with
  | false =>
    rw [openFile_refused accepted] at base ⊢
    have same : ∀ q, q ≠ file.path →
        Function.update s.fileState file.path (some true) q = s.fileState q :=
      fun q other => Function.update_of_ne other ..
    exact ⟨base, rfl, rfl, same, rfl, rfl, rfl, rfl, rfl, rfl, b, .inl phase, formed,
      pending_others handles untracked same, pending_others others untracked same⟩
  | true =>
    obtain ⟨next, eq, places⟩ := openFile_accepted (s := s) (b := b) accepted
    rw [eq] at base ⊢
    have same : ∀ q, q ≠ file.path →
        ((s.nextFileToExport file.path).track file.path).fileState q = s.fileState q :=
      fun q other => Function.update_of_ne other ..
    have tracked : ((s.nextFileToExport file.path).track file.path).fileState file.path =
        some false := by
      simp [System.track, System.nextFileToExport, untracked]
    have supported : getLogType a.reads file.contents ≠ .unknown := by
      simp only [accepts, Bool.and_eq_true, bne_iff_ne] at accepted
      exact accepted.2
    have added := formed.add supported (fun there => pending_ne handles untracked there rfl)
      fun there => pending_ne others untracked there rfl
    have handles' : ∀ q ∈ (b.add file (getLogType a.reads file.contents)).pathsToHandles,
        ((s.nextFileToExport file.path).track file.path).fileState q = some false := by
      intro q there
      obtain rfl | before := mem_add there
      · exact tracked
      · exact pending_others handles untracked same q before
    have others' : ∀ q ∈ (b.add file (getLogType a.reads file.contents)).others,
        ((s.nextFileToExport file.path).track file.path).fileState q = some false := by
      intro q there
      obtain rfl | before := mem_add_others there
      · exact tracked
      · exact pending_others others untracked same q before
    refine ⟨base, rfl, rfl, same, rfl, rfl, rfl, rfl, rfl, rfl, ?_⟩
    obtain rfl | rfl := places
    · exact ⟨_, .inl rfl, added, handles', others'⟩
    · exact ⟨_, .inr rfl, ⟨added.typed, added.apart⟩, handles', others'⟩

structure Goes (s t : System) : Prop where
  inv : Inv t
  price : s.price + 1 ≤ t.price
  moves : t.moves = s.moves

theorem Inv.nextFile {s : System} {b : Batch} {file : File} {a : Answers} (h : Inv s)
    (phase : s.phase = .filling b) (member : file ∈ s.spool)
    (free : s.unackedMessages file.path = false) : Goes s (s.openFile b file a) := by
  have out := h.handsOut phase member free (a := a)
  generalize s.openFile b file a = t at out
  have waited : s.phase ≠ .idle := by simp [phase]
  have place := h.place
  rw [phase] at place
  have room : s.handed + s.free ≤ s.found := place.2.2.2
  have fewer := free_nextFile member free
  have sameFree : t.free = (s.nextFileToExport file.path).free := by
    unfold System.free
    rw [out.spool, out.unacked]
    rfl
  have candidates := candidates_nextFile free out.spool out.unacked out.others
  have bound := h.bound waited
  have passes := out.passes
  have found := out.found
  have handed := out.handed
  obtain ⟨b', places, formed, handles, others⟩ := out.phase
  refine ⟨⟨out.base, ?_, ?_, ?_, ?_, ?_, ?_, ?_, ?_⟩, ?_, out.moves⟩
  · intro q tracked
    by_cases same : q = file.path
    · subst q
      refine ⟨out.spool ▸ List.mem_map_of_mem member, ?_⟩
      rw [out.unacked]
      exact Function.update_self ..
    · obtain ⟨there, unacked⟩ := h.tracked q (out.others q same ▸ tracked)
      refine ⟨out.spool ▸ there, ?_⟩
      rw [out.unacked]
      exact (Function.update_of_ne same ..).trans unacked
  · intro q owed
    rw [out.owed] at owed
    have other : q ≠ file.path := by
      rintro rfl
      simp [System.nextFileToExport] at owed
    obtain ⟨there, free⟩ := h.owed q (by simpa [System.nextFileToExport, other] using owed)
    refine ⟨out.spool ▸ there, ?_⟩
    rw [out.unacked]
    exact (Function.update_of_ne other ..).trans free
  · intro n e there _
    exact h.past n e (out.exports ▸ there) (by simp [phase, Phase.sent])
  · obtain eq | eq := places
    · rw [eq]
      exact ⟨formed, handles, others, by omega⟩
    · rw [eq]
      exact ⟨formed, handles, others⟩
  · intro _
    have begun := h.begun waited
    omega
  · intro _
    omega
  · have before := h.passes
    omega
  · omega
  · unfold System.price
    rw [passes, found, handed, phase]
    simp only [Phase.cost]
    omega

theorem Inv.noFile {s : System} {b : Batch} (h : Inv s) (phase : s.phase = .filling b) :
    Goes s { s with phase := .filled b } := by
  have waited : s.phase ≠ .idle := by simp [phase]
  have place := h.place
  rw [phase] at place
  obtain ⟨formed, handles, others, -⟩ := place
  refine ⟨⟨?_, h.tracked, h.owed, ?_, ⟨formed, handles, others⟩, fun _ => h.begun waited,
    fun _ => h.bound waited, h.passes, h.handed⟩, ?_, rfl⟩
  · refine h.base.goto _ ?_
    intro b' collects
    exact h.base.opened b' (by rw [phase]; exact collects)
  · exact fun n e there _ => h.past n e there (by simp [phase, Phase.sent])
  · simp [System.price, phase, Phase.cost]

theorem Inv.exportFiles {s t : System} {b : Batch} (h : Inv s) (phase : s.phase = .filled b)
    (taken : s.exportFiles b = some t) : Goes s t := by
  have base := h.base.exportFiles phase taken
  have waited : s.phase ≠ .idle := by simp [phase]
  have past := fun n e there => h.past n e there (by simp [phase, Phase.sent])
  have place := h.place
  rw [phase] at place
  obtain ⟨formed, handles, others⟩ := place
  unfold System.exportFiles at taken
  by_cases empty : b.pathsToHandles = []
  · rw [if_pos empty] at taken
    obtain rfl := Option.some.inj taken
    refine ⟨⟨base, h.tracked, h.owed, fun n e there _ => past n e there, ⟨handles, others⟩,
      fun _ => h.begun waited, fun _ => h.bound waited, h.passes, h.handed⟩, ?_, rfl⟩
    simp [System.price, phase, Phase.cost]
  rw [if_neg empty, Option.map_eq_some_iff] at taken
  obtain ⟨⟨contentType, fileExtension⟩, -, rfl⟩ := taken
  let e : Export := ⟨s.call, b.pathsToHandles, contentType, fileExtension, b.totalBytesOpened,
    none, false, [], false⟩
  refine ⟨⟨base, h.tracked, h.owed, ?_, ⟨e, ?_⟩, fun _ => h.begun waited,
    fun _ => h.bound waited, h.passes, h.handed⟩, ?_, rfl⟩
  · intro n e there other
    obtain ⟨rfl, -⟩ | ⟨-, there⟩ := exports_update there
    · exact absurd rfl other
    · exact past n e there
  · exact {
      here := Function.update_self ..
      call := rfl
      files := rfl
      nonempty := empty
      apart := formed.apart
      others := others
      untold := fun _ => handles
      told := fun answered => by cases answered
      pays := .inl handles
      flag := fun stored => by cases stored }
  · simp [System.price, phase, Phase.cost]

theorem Place.of_same {s : System} {next : Phase} {n : Nat} {place : Phase} (h : Place s place) :
    Place { s with phase := next, moves := n } place := by
  revert h
  cases place with
  | waiting b n => exact fun ⟨e, u⟩ => ⟨e, { u with }⟩
  | timedOut b n => exact fun ⟨e, u⟩ => ⟨e, { u with }⟩
  | draining b n =>
    cases n with
    | none => exact id
    | some n => exact fun ⟨e, u, answered⟩ => ⟨e, { u with }, answered⟩
  | drained b n => exact fun ⟨e, u⟩ => ⟨e, { u with }⟩
  | _ => exact id

theorem Place.empty {s : System} (room : s.handed + s.free ≤ s.found) :
    Place s (.filling .empty) :=
  ⟨⟨absurd rfl, fun _ member => absurd member List.not_mem_nil⟩,
    fun _ member => absurd member List.not_mem_nil,
    fun _ member => absurd member List.not_mem_nil, room⟩

theorem Inv.goto {s : System} {next : Phase} (h : Inv s) (waited : s.phase ≠ .idle)
    (collects : next.collects = none) (sent : next.sent = s.phase.sent) (place : Place s next)
    (dearer : s.phase.cost < next.cost) :
    Goes s { s with phase := next } where
  inv := {
    base := h.base.goto next (by simp [collects])
    tracked := h.tracked
    owed := h.owed
    past := fun n e there other => h.past n e there (sent ▸ other)
    place := place.of_same
    begun := fun _ => h.begun waited
    bound := fun _ => h.bound waited
    passes := h.passes
    handed := h.handed }
  price := by
    simp only [System.price]
    omega
  moves := rfl

theorem Inv.completed {s : System} {b : Batch} {n : Nat} {e : Export} (h : Inv s)
    (phase : s.phase = .waiting b n) (here : s.exports n = some e)
    (completed : e.completed = true) : Goes s { s with phase := .draining b (some n) } := by
  have place := h.place
  rw [phase] at place
  obtain ⟨d, underway⟩ := place
  obtain rfl := Option.some.inj (here.symm.trans underway.here)
  have formed := h.base.formed n e here
  refine h.goto (by simp [phase]) rfl (by rw [phase]; rfl) ⟨e, underway, ?_⟩ ?_
  · exact formed.stored (formed.completed completed).1
  · simp [phase, Phase.cost]

theorem Inv.timeOut {s : System} {b : Batch} {n : Nat} (h : Inv s)
    (phase : s.phase = .waiting b n) : Goes s { s with phase := .timedOut b n } := by
  have place := h.place
  rw [phase] at place
  refine h.goto (by simp [phase]) rfl (by rw [phase]; rfl) place ?_
  simp [phase, Phase.cost]

theorem callsReplyBlock_answers {s : System} {n : Nat} {e : Export} (here : s.exports n = some e) :
    ∃ e', (s.callsReplyBlock n e).exports n = some e' ∧ e'.executed ≠ none := by
  unfold System.callsReplyBlock
  by_cases waits : e.executed = none
  · rw [if_pos waits]
    exact ⟨e.failed, Function.update_self .., Option.some_ne_none _⟩
  · rw [if_neg waits]
    exact ⟨e, here, waits⟩

theorem callsReplyBlock_loop (s : System) (n : Nat) (e : Export) :
    (s.callsReplyBlock n e).phase = s.phase ∧ (s.callsReplyBlock n e).price = s.price ∧
      (s.callsReplyBlock n e).moves = s.moves := by
  unfold System.callsReplyBlock
  split <;> exact ⟨rfl, rfl, rfl⟩

theorem Inv.giveUp {s : System} {b : Batch} {n : Nat} {e : Export} (h : Inv s)
    (phase : s.phase = .timedOut b n) (here : s.exports n = some e) :
    Goes s { s.callsReplyBlock n e with phase := .draining b (some n) } := by
  have after := h.callsReplyBlock here phase
  obtain ⟨samePhase, samePrice, sameMoves⟩ := callsReplyBlock_loop s n e
  obtain ⟨e', there, answered⟩ := callsReplyBlock_answers here
  rw [phase] at samePhase
  have place := after.place
  rw [samePhase] at place
  obtain ⟨d, underway⟩ := place
  obtain rfl := Option.some.inj (there.symm.trans underway.here)
  have goes : Goes (s.callsReplyBlock n e) _ :=
    @Inv.goto _ (.draining b (some n)) after (by simp [samePhase]) rfl
      (by rw [samePhase]; rfl) ⟨e', underway, answered⟩ (by simp [samePhase, Phase.cost])
  exact ⟨goes.inv, samePrice ▸ goes.price, sameMoves ▸ goes.moves⟩

/-! The tracker is drained. -/

theorem unacked_filesExported {s : System} {removes : String → Bool} {path : String}
    (kept : s.unackedMessages path = true)
    (unacked : (s.filesExported removes).unackedMessages path = false) :
    s.fileState path = some false ∨ (s.fileState path = some true ∧ removes path = true) := by
  by_contra untold
  have same : (s.filesExported removes).unackedMessages path = s.unackedMessages path :=
    if_neg untold
  rw [same, kept] at unacked
  cases unacked

theorem offered_filesExported {s : System} {removes : String → Bool} {path : String}
    (member : path ∈ s.spool.map File.path) (unacked : s.fileState path ≠ some true)
    (free : s.fileState path = some false ∨ s.unackedMessages path = false) :
    Offered (s.filesExported removes) path := by
  obtain ⟨f, there, rfl⟩ := List.mem_map.mp member
  constructor
  · refine List.mem_map_of_mem (List.mem_filter.mpr ⟨there, ?_⟩)
    simp [unacked]
  · simp only [System.filesExported]
    split
    · rfl
    · next untold =>
      obtain pending | free := free
      · exact absurd (.inl pending) untold
      · exact free

theorem candidates_filesExported (s : System) (removes : String → Bool) :
    (s.filesExported removes).candidates ≤ s.candidates := by
  have spool : (s.filesExported removes).spool = s.spool.filter fun f =>
      !(decide (s.fileState f.path = some true) && removes f.path) := rfl
  have drained : ∀ path, (s.filesExported removes).fileState path = none := fun _ => rfl
  unfold System.candidates
  rw [spool, List.countP_filter]
  refine List.countP_mono_left fun f _ counted => ?_
  rw [Bool.and_eq_true] at counted
  obtain ⟨candidate, stays⟩ := counted
  have free : (s.filesExported removes).unackedMessages f.path = false := by
    simpa [System.candidate, drained] using candidate
  cases unacked : s.unackedMessages f.path with
  | false => simp [System.candidate, unacked]
  | true =>
    obtain pending | ⟨acked, removed⟩ := unacked_filesExported unacked free
    · simp [System.candidate, pending]
    · simp [acked, removed] at stays

theorem Underway.drained {s : System} {b : Batch} {n : Nat} {e : Export} (h : Underway s b n e)
    (answered : e.executed ≠ none) (acked : e.unacknowledged = []) (removes : String → Bool) :
    Over (s.drain b (some n) removes) n e where
  here := h.here
  call := h.call
  answered := answered
  none := acked
  pays exported := by
    have fewer := candidates_filesExported s removes
    have paid : s.passes + s.candidates ≤ s.found := by
      refine h.pays.resolve_left fun pending => ?_
      obtain ⟨path, member⟩ := List.exists_mem_of_ne_nil _ h.nonempty
      obtain ⟨left, -⟩ | told := h.told exported path member
      · rw [acked] at left
        exact absurd left List.not_mem_nil
      · rw [pending path member, Option.some.injEq] at told
        cases told
    show s.passes + (s.filesExported removes).candidates ≤ s.found
    omega
  flag := h.flag

theorem Inv.undone_pending {s : System} {b : Batch} {sent : Option Nat} (h : Inv s)
    (phase : s.phase = .draining b sent) : Pending s (s.leftUndone b sent) := by
  have place := h.place
  rw [phase] at place
  intro path member
  unfold System.leftUndone at member
  cases sent with
  | none =>
    obtain ⟨handles, others⟩ := place
    simp only [Option.bind_none, reduceCtorEq, if_false, List.mem_append] at member
    exact member.elim (handles path) (others path)
  | some n =>
    obtain ⟨e, underway, -⟩ := place
    simp only [Option.bind_some, underway.here] at member
    split at member
    · exact underway.others path member
    · next failed =>
      exact (List.mem_append.mp member).elim (underway.untold failed path)
        (underway.others path)

theorem Inv.drain {s : System} {b : Batch} {sent : Option Nat} (h : Inv s)
    (phase : s.phase = .draining b sent) (unraced : s.acknowledging = false)
    (removes : String → Bool) : Goes s (s.drain b sent removes) := by
  have waited : s.phase ≠ .idle := by simp [phase]
  have fewer := candidates_filesExported s removes
  have bound := h.bound waited
  refine ⟨⟨h.base.drain removes, ?_, ?_, ?_, ?_, fun _ => h.begun waited, fun _ => ?_, h.passes,
    h.handed⟩, ?_, rfl⟩
  · exact fun path tracked => absurd rfl tracked
  · intro path owed
    simp only [System.drain, Bool.or_eq_true, decide_eq_true_eq] at owed
    obtain undone | before := owed
    · have pending := h.undone_pending phase path undone
      have held := h.tracked path (pending ▸ Option.some_ne_none _)
      exact offered_filesExported held.1 (by simp [pending]) (.inl pending)
    · obtain ⟨member, free⟩ := h.owed path before
      exact offered_filesExported member (by simp [h.free_untracked free]) (.inr free)
  · intro n e there other
    refine h.past n e there ?_
    rw [phase]
    cases sent <;> exact fun same => other same
  · have place := h.place
    rw [phase] at place
    cases sent with
    | none => trivial
    | some n =>
      obtain ⟨e, underway, answered⟩ := place
      have acked : e.unacknowledged = [] := by
        simpa [System.acknowledging, phase, underway.here] using unraced
      exact ⟨e, underway.drained answered acked removes⟩
  · show s.passes + (s.filesExported removes).candidates ≤ s.found + 1
    omega
  · show s.price + 1 ≤
      (s.passes - 1) * (s.found + 6) + s.handed + (Phase.afterDrain b sent).cost
    rw [System.price, phase]
    cases sent <;> simp only [Phase.afterDrain, Phase.cost] <;> omega

theorem Inv.loop {s : System} {b : Batch} {n : Nat} (h : Inv s) (phase : s.phase = .drained b n)
    (unraced : s.storing = false) : Goes s (s.loop b) := by
  have waited : s.phase ≠ .idle := by simp [phase]
  have begun := h.begun waited
  have place := h.place
  rw [phase] at place
  obtain ⟨e, ended⟩ := place
  have stored : e.stored = true := by
    simpa [System.storing, phase, ended.here] using unraced
  have past : ∀ m d, s.exports m = some d → Settled d := by
    intro m d there
    by_cases same : n = m
    · subst m
      obtain rfl := Option.some.inj (there.symm.trans ended.here)
      exact ⟨ended.answered, stored, ended.none⟩
    · exact h.past m d there (by simpa [phase, Phase.sent] using same)
  have base := h.base.loop (b := b)
  unfold System.loop at base ⊢
  split
  · next again =>
    rw [if_pos again] at base
    have answer := ended.flag stored
    rw [ended.call, (Bool.and_eq_true_iff.mp again).1] at answer
    have paid := ended.pays answer
    have fewer : s.free ≤ s.candidates :=
      List.countP_mono_left fun f _ free => Bool.or_eq_true_iff.mpr (.inl free)
    refine ⟨⟨base, h.tracked, h.owed, fun m d there _ => past m d there, ?_, fun _ => ?_,
      fun _ => ?_, ?_, Nat.zero_le _⟩, ?_, rfl⟩
    · refine Place.empty ?_
      show 0 + s.free ≤ s.found
      omega
    · exact Nat.succ_pos _
    · show s.passes + 1 + s.candidates ≤ s.found + 1
      omega
    · show s.passes + 1 ≤ s.found + 1
      omega
    · show s.price + 1 ≤ (s.passes + 1 - 1) * (s.found + 6) + 0 + 0
      have handed := h.handed
      obtain ⟨k, passes⟩ : ∃ k, s.passes = k + 1 := ⟨s.passes - 1, by omega⟩
      rw [System.price, phase, passes, Phase.cost, Nat.add_sub_cancel, Nat.add_sub_cancel,
        Nat.succ_mul]
      omega
  · next again =>
    rw [if_neg again] at base
    refine ⟨⟨base, h.tracked, h.owed, fun m d there _ => past m d there, trivial, absurd rfl,
      absurd rfl, h.passes, h.handed⟩, ?_, rfl⟩
    simp [System.price, phase, Phase.cost]

theorem inv_move {s t : System} {l : Label} (h : Inv s) (unraced : Unraced s l)
    (taken : Moves s l t) : Goes s t := by
  cases taken with
  | nextFile b file a phase member free => exact h.nextFile phase member free
  | noFile b iterates phase => exact h.noFile phase
  | exportFiles b phase t taken => exact h.exportFiles phase taken
  | completed b n e phase here completed => exact h.completed phase here completed
  | timeOut b n phase => exact h.timeOut phase
  | giveUp b n e phase here => exact h.giveUp phase here
  | drain b sent removes phase => exact h.drain phase unraced removes
  | loop b n phase => exact h.loop phase unraced

/-! ### Runs -/

structure Sound (s : System) : Prop where
  inv : Inv s
  counted : s.moves ≤ s.price

theorem Goes.sound {s t : System} (h : Sound s) (goes : Goes s t) : Sound t.moved where
  inv := ⟨goes.inv.base.moved, goes.inv.tracked, goes.inv.owed, goes.inv.past,
    goes.inv.place.of_same, goes.inv.begun, goes.inv.bound, goes.inv.passes, goes.inv.handed⟩
  counted := by
    have counted := h.counted
    have price := goes.price
    have moves := goes.moves
    show t.moves + 1 ≤ t.price
    omega

theorem Sound.start {s : System} (h : Sound s) (idle : s.phase = .idle) (maxFiles maxBytes : Nat) :
    Sound (s.startExport maxFiles maxBytes) where
  inv := {
    base := h.inv.base.startExport maxFiles maxBytes
    tracked := h.inv.tracked
    owed := h.inv.owed
    past := fun n e there _ => h.inv.past n e there (by simp [idle, Phase.sent])
    place := by
      have fewer : s.free ≤ s.spool.length := List.countP_le_length
      refine Place.empty ?_
      show 0 + s.free ≤ s.spool.length
      omega
    begun := fun _ => Nat.one_pos
    bound := by
      intro _
      have fewer : s.candidates ≤ s.spool.length := List.countP_le_length
      show 1 + s.candidates ≤ s.spool.length + 1
      omega
    passes := Nat.succ_le_succ (Nat.zero_le _)
    handed := Nat.zero_le _ }
  counted := Nat.zero_le _

theorem Place.addFile {s : System} {file : File} {phase : Phase} (h : Place s phase) :
    Place { s with spool := s.spool ++ [file], found := s.found + 1 } phase := by
  have one : ∀ p : File → Bool,
      List.countP p (s.spool ++ [file]) ≤ List.countP p s.spool + 1 := by
    intro p
    rw [List.countP_append]
    have single : List.countP p [file] ≤ 1 := List.countP_le_length
    omega
  have paid : s.passes + s.candidates ≤ s.found →
      s.passes + List.countP s.candidate (s.spool ++ [file]) ≤ s.found + 1 := by
    intro paid
    have more := one s.candidate
    have same : s.candidates = List.countP s.candidate s.spool := rfl
    omega
  have underway : ∀ {b n e}, Underway s b n e →
      Underway { s with spool := s.spool ++ [file], found := s.found + 1 } b n e :=
    fun u => { u with pays := u.pays.imp_right paid }
  revert h
  cases phase with
  | filling b =>
    rintro ⟨formed, handles, others, room⟩
    refine ⟨formed, handles, others, ?_⟩
    have more := one fun f => !s.unackedMessages f.path
    have same : s.free = List.countP (fun f => !s.unackedMessages f.path) s.spool := rfl
    show s.handed + List.countP (fun f => !s.unackedMessages f.path) (s.spool ++ [file]) ≤
      s.found + 1
    omega
  | waiting b n => exact fun ⟨e, u⟩ => ⟨e, underway u⟩
  | timedOut b n => exact fun ⟨e, u⟩ => ⟨e, underway u⟩
  | draining b n =>
    cases n with
    | none => exact id
    | some n => exact fun ⟨e, u, answered⟩ => ⟨e, underway u, answered⟩
  | drained b n =>
    exact fun ⟨e, o⟩ => ⟨e, { o with pays := fun exported => paid (o.pays exported) }⟩
  | _ => exact id

theorem mem_paths_append {spool : List File} {file : File} {path : String}
    (there : path ∈ spool.map File.path) : path ∈ (spool ++ [file]).map File.path := by
  rw [List.map_append]
  exact List.mem_append_left _ there

theorem Sound.addFile {s : System} {file : File} (h : Sound s) (new : ¬ Known s file.path) :
    Sound { s with spool := s.spool ++ [file], found := s.found + 1 } where
  inv := {
    base := h.inv.base.addFile new
    tracked := by
      intro path tracked
      obtain ⟨there, unacked⟩ := h.inv.tracked path tracked
      exact ⟨mem_paths_append there, unacked⟩
    owed := by
      intro path owed
      obtain ⟨there, free⟩ := h.inv.owed path owed
      exact ⟨mem_paths_append there, free⟩
    past := h.inv.past
    place := h.inv.place.addFile
    begun := h.inv.begun
    bound := by
      intro waited
      have bound := h.inv.bound waited
      have more : List.countP s.candidate (s.spool ++ [file]) ≤ s.candidates + 1 := by
        rw [List.countP_append]
        exact Nat.add_le_add_left List.countP_le_length _
      show s.passes + List.countP s.candidate (s.spool ++ [file]) ≤ s.found + 1 + 1
      omega
    passes := Nat.le_succ_of_le h.inv.passes
    handed := Nat.le_succ_of_le h.inv.handed }
  counted := by
    have counted := h.counted
    have more : (s.passes - 1) * (s.found + 6) ≤ (s.passes - 1) * (s.found + 1 + 6) :=
      Nat.mul_le_mul_left _ (by omega)
    show s.moves ≤ (s.passes - 1) * (s.found + 1 + 6) + s.handed + s.phase.cost
    unfold System.price at counted
    omega

theorem sound_reply {s t : System} {n : Nat} {e : Export} (h : Sound s)
    (here : s.exports n = some e) (taken : Replies s n e t) : Sound t := by
  cases taken with
  | starts success =>
    refine ⟨h.inv.replyStarts here success, ?_⟩
    unfold System.replyStarts
    split <;> exact h.counted
  | stores success answered unstored =>
    exact ⟨h.inv.replyStores here answered unstored, h.counted⟩
  | acks path member => exact ⟨h.inv.replyAcks here member, h.counted⟩
  | signals stored none => exact ⟨h.inv.replySignals here stored none, h.counted⟩

theorem sound_step {s : System} {l : Label} {t : System} (h : Sound s) (unraced : Unraced s l)
    (taken : step s l = some t) : Sound t := by
  obtain ⟨file, -, new, rfl⟩ | ⟨config, maxFiles, maxBytes, -, idle, rfl⟩ |
    ⟨n, e, here, taken⟩ | ⟨u, moved, rfl⟩ := step_cases taken
  · exact h.addFile new
  · split
    · exact h.start idle maxFiles maxBytes
    · exact h
  · exact sound_reply h here taken
  · exact (inv_move h.inv unraced moved).sound h

theorem Sound.ends {s : System} (h : Sound s) : s.moves ≤ (s.found + 1) * (s.found + 6) := by
  have cost : s.phase.cost ≤ 6 := by cases s.phase <;> simp [Phase.cost]
  have passes := h.inv.passes
  have handed := h.inv.handed
  calc s.moves
      ≤ (s.passes - 1) * (s.found + 6) + s.handed + s.phase.cost := h.counted
    _ ≤ s.found * (s.found + 6) + (s.found + 6) := by
        have fewer : (s.passes - 1) * (s.found + 6) ≤ s.found * (s.found + 6) :=
          Nat.mul_le_mul_right _ (by omega)
        omega
    _ = (s.found + 1) * (s.found + 6) := (Nat.succ_mul ..).symm

theorem contentType_isSome {logType : ExportLogType} (supported : logType ≠ .unknown) :
    (getContentTypeAndExtension logType).isSome = true := by
  cases logType with
  | unknown => exact absurd rfl supported
  | _ => rfl

theorem Inv.goesOn {s : System} (h : Inv s) (waited : s.phase ≠ .idle) :
    ∃ l, l ≠ .noFile false ∧ (move s s.phase l).isSome = true := by
  have place := h.place
  revert place
  cases phase : s.phase with
  | idle => exact absurd phase waited
  | filling b =>
    intro _
    cases free : s.spool.any fun f => !s.unackedMessages f.path with
    | false => exact ⟨.noFile true, by simp, by simp [move, free]⟩
    | true =>
      obtain ⟨f, member, unacked⟩ := List.any_eq_true.mp free
      rw [Bool.not_eq_true'] at unacked
      exact ⟨.nextFile f ⟨true, true, true⟩, by simp, by simp [move, member, unacked]⟩
  | filled b =>
    rintro ⟨formed, -, -⟩
    refine ⟨.exportFiles, by simp, ?_⟩
    by_cases empty : b.pathsToHandles = []
    · simp [move, System.exportFiles, empty]
    · simp [move, System.exportFiles, empty, contentType_isSome (formed.typed empty)]
  | waiting b n =>
    rintro ⟨e, underway⟩
    cases completed : e.completed with
    | true => exact ⟨.completed, by simp, by simp [move, underway.here, completed]⟩
    | false => exact ⟨.timeOut, by simp, by simp [move, underway.here, completed]⟩
  | timedOut b n =>
    rintro ⟨e, underway⟩
    exact ⟨.giveUp, by simp, by simp [move, underway.here]⟩
  | draining b sent => exact fun _ => ⟨.drain fun _ => true, by simp, rfl⟩
  | drained b n => exact fun _ => ⟨.loop, by simp, rfl⟩

theorem Sound.safe {s : System} (h : Sound s) : Safe s :=
  ⟨h.inv.base.deleted, h.inv.owed, h.inv.base.once, h.ends, h.inv.goesOn⟩

/-- As long as the loop does not overtake a reply block, only what was exported is deleted, what was
    not is offered again, no file is handed out twice in between, and each call ends. -/
theorem exports_safe {ls : List Label} (unraced : Runs.Meets step Unraced .start ls) :
    Runs.Always step Safe .start ls :=
  Runs.always_mono (fun _ => Sound.safe)
    (Runs.always_of_meets (fun _ _ _ => sound_step) ⟨inv_start, Nat.zero_le _⟩ unraced)

def streamFile (path : String) : File :=
  ⟨path, true, SantaSpoolWriter.littleEndian32 SantaSpoolWriter.kStreamBatcherMagic⟩

/-- Two files of a batch that is full with one: the first is exported, the second is not in time. -/
theorem exports_safe_time_out :
    Runs.Always step Safe .start
      [.addFile (streamFile "a"), .addFile (streamFile "b"), .start true 1 100,
        .nextFile (streamFile "a") ⟨true, true, true⟩, .exportFiles, .replyStarts 0 true,
        .replyStores 0, .replyAcks 0 "a", .replySignals 0, .completed, .drain fun _ => true, .loop,
        .nextFile (streamFile "b") ⟨true, true, true⟩, .exportFiles, .timeOut, .giveUp,
        .replyStarts 1 true, .drain fun _ => true, .loop] :=
  exports_safe (by decide +kernel)

/-- The reply block has begun when the wait for it times out. The loop takes the block for
    executed, drains the tracker, and exports the file again; now the first block acknowledges
    it, and it is deleted with a batch that failed. -/
theorem late_reply_deletes : ¬ ∀ ls, Runs.Always step Safe .start ls := by
  intro always
  let ls : List Label :=
    [.addFile (streamFile "a"), .start true 1 100,
      .nextFile (streamFile "a") ⟨true, true, true⟩, .exportFiles, .replyStarts 0 true,
      .timeOut, .giveUp, .drain fun _ => true, .loop,
      .nextFile (streamFile "a") ⟨true, true, true⟩, .exportFiles, .replyStores 0,
      .replyAcks 0 "a", .replyStarts 1 false, .replyStores 1, .replySignals 1, .completed,
      .drain fun _ => true]
  have ends : (Runs.run step .start ls).map (fun s => (s.owed "a", s.spool)) = some (true, []) := by
    decide +kernel
  obtain ⟨s, last, eq⟩ := Option.map_eq_some_iff.mp ends
  have safe := Runs.always_last (always ls) last
  rw [Prod.mk.injEq] at eq
  have offered := safe.kept "a" eq.1
  rw [Offered, eq.2] at offered
  exact absurd offered.1 List.not_mem_nil

end SantaTelemetryExport
