import Santa.ProcessTree.Timestamps

/-!
What the operations of the tree leave alone. Step is the one that takes processes
out, and only those with an entry in remove_at_ below the cutoff; everything else
adds to the map or changes the annotations and the count of an object.
-/
namespace SantaProcessTree
namespace ProcessTree

def Linked (t : ProcessTree) : Prop :=
  ∀ q r, t.map q = some (some r) → r < t.nextObject ∧ (t.objects r).pid = q

/-- The second tree has the processes of the first, and others that are not tombstoned. -/
structure Grows (t t' : ProcessTree) : Prop where
  next : t.nextObject ≤ t'.nextObject
  kept : ∀ q r, t.map q = some (some r) → t'.map q = some (some r)
  same : ∀ r, r < t.nextObject →
    (t'.objects r).pid = (t.objects r).pid ∧ (t'.objects r).tombstoned = (t.objects r).tombstoned
  added : ∀ q r, t'.map q = some (some r) → t.map q = some (some r) ∨
    (r < t'.nextObject ∧ (t'.objects r).pid = q ∧ (t'.objects r).tombstoned = false)
  removeAt : t'.removeAt = t.removeAt
  seen : t'.seenTimestamps = t.seenTimestamps

theorem Grows.refl (t : ProcessTree) : Grows t t :=
  ⟨le_refl _, fun _ _ here => here, fun _ _ => ⟨rfl, rfl⟩, fun _ _ here => Or.inl here, rfl, rfl⟩

theorem Grows.trans {t t' t'' : ProcessTree} (first : Grows t t') (second : Grows t' t'') :
    Grows t t'' := by
  refine ⟨le_trans first.next second.next, ?_, ?_, ?_, second.removeAt.trans first.removeAt,
    second.seen.trans first.seen⟩
  · exact fun q r here => second.kept q r (first.kept q r here)
  · intro r old
    obtain ⟨pid, tombstoned⟩ := first.same r old
    obtain ⟨pid', tombstoned'⟩ := second.same r (lt_of_lt_of_le old first.next)
    exact ⟨pid'.trans pid, tombstoned'.trans tombstoned⟩
  · intro q r here
    rcases second.added q r here with before | new
    · rcases first.added q r before with old | ⟨bound, pid, tombstoned⟩
      · exact Or.inl old
      · obtain ⟨pid', tombstoned'⟩ := second.same r bound
        exact Or.inr ⟨lt_of_lt_of_le bound second.next, pid'.trans pid,
          tombstoned'.trans tombstoned⟩
    · exact Or.inr new

theorem Grows.linked {t t' : ProcessTree} (grows : Grows t t') (linked : Linked t) : Linked t' := by
  intro q r here
  rcases grows.added q r here with before | ⟨bound, pid, _⟩
  · obtain ⟨bound, pid⟩ := linked q r before
    exact ⟨lt_of_lt_of_le bound grows.next, (grows.same r bound).1.trans pid⟩
  · exact ⟨bound, pid⟩

theorem grows_makeShared (t : ProcessTree) (p : Process) : Grows t (t.makeShared p).1 := by
  refine ⟨Nat.le_succ _, fun _ _ here => here, ?_, fun _ _ here => Or.inl here, rfl, rfl⟩
  intro r old
  have other : r ≠ t.nextObject := Nat.ne_of_lt old
  simp [makeShared, other]

theorem makeShared_object (t : ProcessTree) (p : Process) :
    (t.makeShared p).2 = t.nextObject ∧ (t.makeShared p).1.objects t.nextObject = p := by
  simp [makeShared]

theorem grows_update {t : ProcessTree} (r : ProcessRef) {f : Process → Process}
    (pid : ∀ p, (f p).pid = p.pid) (tombstoned : ∀ p, (f p).tombstoned = p.tombstoned) :
    Grows t (t.update r f) := by
  refine ⟨le_refl _, fun _ _ here => here, ?_, fun _ _ here => Or.inl here, rfl, rfl⟩
  intro q _
  by_cases changed : q = r
  · simp [update, changed, pid, tombstoned]
  · simp [update, changed]

theorem grows_subscript (t : ProcessTree) (p : Pid) : Grows t (t.subscript p).1 := by
  unfold subscript
  cases entry : t.map p with
  | some v => exact Grows.refl t
  | none =>
    refine ⟨le_refl _, ?_, fun _ _ => ⟨rfl, rfl⟩, ?_, rfl, rfl⟩
    · intro q r here
      have other : q ≠ p := by
        intro same
        rw [same, entry] at here
        cases here
      simp [setEntry, other, here]
    · intro q r here
      by_cases same : q = p
      · simp [setEntry, same] at here
      · simp only [setEntry, if_neg same] at here
        exact Or.inl here

theorem grows_emplace {t : ProcessTree} {p : Pid} {r : ProcessRef} (bound : r < t.nextObject)
    (pid : (t.objects r).pid = p) (alive : (t.objects r).tombstoned = false) :
    Grows t (t.emplace p r) := by
  unfold emplace
  cases entry : t.map p with
  | some v => exact Grows.refl t
  | none =>
    refine ⟨le_refl _, ?_, fun _ _ => ⟨rfl, rfl⟩, ?_, rfl, rfl⟩
    · intro q s here
      have other : q ≠ p := by
        intro same
        rw [same, entry] at here
        cases here
      simp [setEntry, other, here]
    · intro q s here
      by_cases same : q = p
      · simp only [setEntry, same, if_true, Option.some.injEq] at here
        rw [← here, same]
        exact Or.inr ⟨bound, pid, alive⟩
      · simp only [setEntry, if_neg same] at here
        exact Or.inl here

theorem grows_insert (t : ProcessTree) (pid : Pid) (cred : Cred) (program : Program)
    (parent : Option ProcessRef) :
    Grows t ((t.makeShared (.new pid cred program parent)).1.emplace pid
      (t.makeShared (.new pid cred program parent)).2) := by
  obtain ⟨ref, object⟩ := makeShared_object t (.new pid cred program parent)
  refine (grows_makeShared t _).trans (grows_emplace ?_ ?_ ?_)
  · rw [ref]
    exact Nat.lt_succ_self _
  · rw [ref, object]
    rfl
  · rw [ref, object]
    rfl

theorem grows_annotateProcess {t t' : ProcessTree} {p : ProcessRef} {a : OriginatorAnnotator}
    (h : t.annotateProcess p a = some t') : Grows t t' := by
  unfold annotateProcess at h
  obtain ⟨r, _, same⟩ := Option.map_eq_some_iff.mp h
  rw [← same]
  exact (grows_subscript t _).trans (grows_update r (fun _ => rfl) fun _ => rfl)

theorem grows_annotateFork {t t' : ProcessTree} {parent child : ProcessRef}
    (h : t.annotateFork parent child = some t') : Grows t t' := by
  unfold annotateFork at h
  split at h
  · exact grows_annotateProcess h
  · rw [← Option.some.inj h]
    exact Grows.refl t

theorem grows_annotateExec {t t' : ProcessTree} {original new : ProcessRef}
    (h : t.annotateExec original new = some t') : Grows t t' := by
  unfold annotateExec at h
  split at h
  · exact grows_annotateProcess h
  · split at h
    · exact grows_annotateProcess h
    · rw [← Option.some.inj h]
      exact Grows.refl t

theorem grows_foldlM {f : ProcessTree → OriginatorAnnotator → Option ProcessTree}
    (grows : ∀ t a t', f t a = some t' → Grows t t') {as : List OriginatorAnnotator}
    {t t' : ProcessTree} (h : as.foldlM f t = some t') : Grows t t' :=
  @Runs.foldlM_keeps _ _ _ (Grows t) (fun s a s' before next => before.trans (grows s a s' next))
    _ _ _ (Grows.refl t) h

theorem grows_forkLocked (t : ProcessTree) (parent : ProcessRef) (newPid : Pid) :
    Grows t (t.forkLocked parent newPid).1 := by
  unfold forkLocked
  exact (grows_subscript t _).trans (grows_insert _ newPid _ _ _)

theorem grows_backfillInsert {t t' : ProcessTree} {parent : Option ProcessRef} {unlinked : Process}
    (h : t.backfillInsert parent unlinked = some t') : Grows t t' := by
  unfold backfillInsert at h
  refine (grows_insert t unlinked.pid unlinked.effectiveCred unlinked.program parent).trans ?_
  cases parent with
  | none =>
    rw [← Option.some.inj h]
    exact Grows.refl _
  | some parent =>
    refine grows_foldlM ?_ h
    intro s _ s' next
    obtain ⟨m, forked, rest⟩ := Option.bind_eq_some_iff.mp next
    refine (grows_annotateFork forked).trans ?_
    split at rest
    · exact grows_annotateExec rest
    · rw [← Option.some.inj rest]
      exact Grows.refl m

/-! ### Removal -/

structure Swept (cutoff : Nat) (entries : List (Nat × Pid)) (t t' : ProcessTree) : Prop where
  next : t'.nextObject = t.nextObject
  seen : t'.seenTimestamps = t.seenTimestamps
  removeAt : ∀ e ∈ t'.removeAt, e ∈ entries
  nothingNew : ∀ q v, t'.map q = some v → t.map q = some v
  onlyDue : ∀ q v, t.map q = some v →
    t'.map q = some v ∨ (t'.map q = none ∧ ∃ e ∈ entries, e.2 = q ∧ e.1 < cutoff)
  same : ∀ r, ∃ b, t'.objects r = { t.objects r with tombstoned := b }
  tombstoned : ∀ r, (t'.objects r).tombstoned = true → (t.objects r).tombstoned = true ∨
    ∃ e ∈ entries, e.1 < cutoff ∧ t.map e.2 = some (some r)
  stays : ∀ q r, t.map q = some (some r) → 0 < (t.objects r).refcnt → t'.map q = some (some r)
  /-- A process that is due goes, unless it is retained. -/
  due : ∀ e ∈ entries, e.1 < cutoff →
    t'.map e.2 = none ∨ ∃ r, t'.map e.2 = some (some r) ∧ 0 < (t'.objects r).refcnt

structure Dropped (p : Pid) (t t' : ProcessTree) : Prop where
  next : t'.nextObject = t.nextObject
  seen : t'.seenTimestamps = t.seenTimestamps
  nothingNew : ∀ q v, t'.map q = some v → t.map q = some v
  others : ∀ q, q ≠ p → t'.map q = t.map q
  same : ∀ r, ∃ b, t'.objects r = { t.objects r with tombstoned := b }
  tombstoned : ∀ r, (t'.objects r).tombstoned = true →
    (t.objects r).tombstoned = true ∨ t.map p = some (some r)
  gone : t'.map p = none ∨
    ∃ r, t'.map p = some (some r) ∧ t.map p = some (some r) ∧ 0 < (t'.objects r).refcnt
  stays : ∀ r, t.map p = some (some r) → 0 < (t.objects r).refcnt → t'.map p = some (some r)

theorem Swept.pid {cutoff : Nat} {entries : List (Nat × Pid)} {t t' : ProcessTree}
    (swept : Swept cutoff entries t t') (r : ProcessRef) :
    (t'.objects r).pid = (t.objects r).pid := by
  obtain ⟨b, same⟩ := swept.same r
  rw [same]

theorem Swept.refcnt {cutoff : Nat} {entries : List (Nat × Pid)} {t t' : ProcessTree}
    (swept : Swept cutoff entries t t') (r : ProcessRef) :
    (t'.objects r).refcnt = (t.objects r).refcnt := by
  obtain ⟨b, same⟩ := swept.same r
  rw [same]

theorem Dropped.refcnt {p : Pid} {t t' : ProcessTree} (drop : Dropped p t t') (r : ProcessRef) :
    (t'.objects r).refcnt = (t.objects r).refcnt := by
  obtain ⟨b, same⟩ := drop.same r
  rw [same]

theorem dropped_erase {t : ProcessTree} {p : Pid}
    (unretained : ∀ r, t.map p = some (some r) → ¬ 0 < (t.objects r).refcnt) :
    Dropped p t (t.erase p) := by
  refine ⟨rfl, rfl, ?_, ?_, fun _ => ⟨_, rfl⟩, fun _ tombstone => Or.inl tombstone,
    Or.inl (by simp [erase, setEntry]), fun r here held => absurd held (unretained r here)⟩
  · intro q v here
    by_cases same : q = p
    · simp [erase, setEntry, same] at here
    · simpa [erase, setEntry, same] using here
  · intro q other
    simp [erase, setEntry, other]

theorem removeOrTombstone_dropped {t t' : ProcessTree} {p : Pid}
    (h : t.removeOrTombstone p = some t') : Dropped p t t' := by
  unfold removeOrTombstone at h
  split at h
  · rename_i absent
    have nothing : t.map p = none := absent
    rw [← Option.some.inj h]
    refine dropped_erase fun r here => ?_
    rw [nothing] at here
    cases here
  · cases h
  · rename_i r entry
    have here : t.map p = some (some r) := entry
    split at h
    · rename_i retained
      rw [← Option.some.inj h]
      refine ⟨rfl, rfl, fun _ _ there => there, fun _ _ => rfl, ?_, ?_, ?_,
        fun _ there _ => there⟩
      · intro q
        by_cases same : q = r
        · exact ⟨true, by simp [update, same]⟩
        · exact ⟨_, by simp [update, same]; rfl⟩
      · intro q tombstone
        by_cases same : q = r
        · rw [same]
          exact Or.inr here
        · simp only [update, if_neg same] at tombstone
          exact Or.inl tombstone
      · exact Or.inr ⟨r, here, here, by simpa [update] using retained⟩
    · rename_i unretained
      rw [← Option.some.inj h]
      refine dropped_erase fun s there => ?_
      rw [here, Option.some.injEq, Option.some.injEq] at there
      rw [← there]
      exact unretained

theorem sweep_swept {cutoff : Nat} {entries : List (Nat × Pid)} {t t' : ProcessTree}
    (h : t.sweep cutoff entries = some t') : Swept cutoff entries t t' := by
  induction entries generalizing t t' with
  | nil =>
    simp only [sweep, Option.some.injEq] at h
    rw [← h]
    exact ⟨rfl, rfl, fun _ member => absurd member List.not_mem_nil, fun _ _ here => here,
      fun _ _ here => Or.inl here, fun _ => ⟨_, rfl⟩, fun _ tombstone => Or.inl tombstone,
      fun _ _ here _ => here, fun _ member => absurd member List.not_mem_nil⟩
  | cons entry rest ih =>
    unfold sweep at h
    split at h
    · rename_i old
      obtain ⟨m, first, later⟩ := Option.bind_eq_some_iff.mp h
      have drop := removeOrTombstone_dropped first
      have swept := ih later
      refine ⟨swept.next.trans drop.next, swept.seen.trans drop.seen, ?_, ?_, ?_, ?_, ?_, ?_, ?_⟩
      · exact fun e member => List.mem_cons_of_mem _ (swept.removeAt e member)
      · exact fun q v here => drop.nothingNew q v (swept.nothingNew q v here)
      · intro q v here
        have gone : m.map q = none ∨ m.map q = some v := by
          cases kept : m.map q with
          | none => exact Or.inl rfl
          | some w =>
            rw [drop.nothingNew q w kept] at here
            exact Or.inr here
        rcases gone with none | kept
        · refine Or.inr ⟨?_, entry, List.mem_cons_self, ?_, old⟩
          · cases after : t'.map q with
            | none => rfl
            | some w =>
              rw [swept.nothingNew q w after] at none
              cases none
          · by_contra other
            rw [drop.others q fun same => other same.symm, here] at none
            cases none
        · rcases swept.onlyDue q v kept with still | ⟨none, e, member, due⟩
          · exact Or.inl still
          · exact Or.inr ⟨none, e, List.mem_cons_of_mem _ member, due⟩
      · intro r
        obtain ⟨b, later⟩ := swept.same r
        obtain ⟨_, earlier⟩ := drop.same r
        exact ⟨b, by rw [later, earlier]⟩
      · intro r tombstone
        rcases swept.tombstoned r tombstone with before | ⟨e, member, due, there⟩
        · rcases drop.tombstoned r before with earlier | here
          · exact Or.inl earlier
          · exact Or.inr ⟨entry, List.mem_cons_self, old, here⟩
        · exact Or.inr ⟨e, List.mem_cons_of_mem _ member, due, drop.nothingNew e.2 _ there⟩
      · intro q r here held
        have kept : m.map q = some (some r) := by
          by_cases same : q = entry.2
          · rw [same] at here ⊢
            exact drop.stays r here held
          · rw [drop.others q same]
            exact here
        exact swept.stays q r kept (by rw [drop.refcnt]; exact held)
      · intro e member due
        rcases List.mem_cons.mp member with same | other
        · rw [same]
          rcases drop.gone with none | ⟨r, here, _, retained⟩
          · cases after : t'.map entry.2 with
            | none => exact Or.inl rfl
            | some w =>
              rw [swept.nothingNew _ w after] at none
              cases none
          · rcases swept.onlyDue entry.2 _ here with still | ⟨none, _⟩
            · rw [← swept.refcnt r] at retained
              exact Or.inr ⟨r, still, retained⟩
            · exact Or.inl none
        · exact swept.due e other due
    · rename_i recent
      obtain ⟨m, later, same⟩ := Option.map_eq_some_iff.mp h
      have swept := ih later
      rw [← same]
      refine ⟨swept.next, swept.seen, ?_, swept.nothingNew, ?_, swept.same, ?_, swept.stays, ?_⟩
      · intro e member
        rcases List.mem_cons.mp member with first | other
        · rw [first]
          exact List.mem_cons_self
        · exact List.mem_cons_of_mem _ (swept.removeAt e other)
      · intro q v here
        rcases swept.onlyDue q v here with still | ⟨none, e, member, due⟩
        · exact Or.inl still
        · exact Or.inr ⟨none, e, List.mem_cons_of_mem _ member, due⟩
      · intro r tombstone
        rcases swept.tombstoned r tombstone with before | ⟨e, member, due⟩
        · exact Or.inl before
        · exact Or.inr ⟨e, List.mem_cons_of_mem _ member, due⟩
      · intro e member due
        rcases List.mem_cons.mp member with first | other
        · rw [first] at due
          exact absurd due recent
        · exact swept.due e other due

theorem step_cases {t t' : ProcessTree} {timestamp : Nat} {novel : Bool}
    (h : t.step timestamp = some (novel, t')) :
    (novel = false ∧ t' = t) ∨
    (novel = true ∧ t.seenTimestamps.front ≤ timestamp ∧ ∃ seen,
      t.seenTimestamps.insert timestamp = some seen ∧
      Swept t.seenTimestamps.front t.removeAt { t with seenTimestamps := seen } t') := by
  simp only [step] at h
  split at h
  · simp only [Option.some.injEq, Prod.mk.injEq] at h
    exact Or.inl ⟨h.1.symm, h.2.symm⟩
  rename_i recent
  split at h
  · simp only [Option.some.injEq, Prod.mk.injEq] at h
    exact Or.inl ⟨h.1.symm, h.2.symm⟩
  · obtain ⟨seen, inserted, rest⟩ := Option.bind_eq_some_iff.mp h
    obtain ⟨swept, done, same⟩ := Option.map_eq_some_iff.mp rest
    rw [Prod.mk.injEq] at same
    rw [← same.1, ← same.2]
    exact Or.inr ⟨rfl, Nat.le_of_not_lt recent, seen, inserted, sweep_swept done⟩

theorem step_window {t t' : ProcessTree} {timestamp : Nat} {novel : Bool}
    (sorted : t.seenTimestamps.entries.Pairwise (· ≤ ·))
    (h : t.step timestamp = some (novel, t')) :
    t'.seenTimestamps.entries.Pairwise (· ≤ ·) ∧
      t.seenTimestamps.front ≤ t'.seenTimestamps.front := by
  rcases step_cases h with ⟨_, same⟩ | ⟨_, recent, seen, inserted, swept⟩
  · rw [same]
    exact ⟨sorted, le_refl _⟩
  · rw [swept.seen]
    obtain ⟨after, _, only, _⟩ := Timestamps.insert_window sorted inserted
    refine ⟨after, ?_⟩
    rcases only _ (Timestamps.front_mem seen) with new | old
    · rw [← new] at recent
      exact recent
    · exact Timestamps.front_le sorted old

/-! ### What a client can read -/

structure SameLooks (t t' : ProcessTree) : Prop where
  next : t.nextObject ≤ t'.nextObject
  same : ∀ r, r < t.nextObject → (t'.objects r).pid = (t.objects r).pid ∧
    (t'.objects r).program = (t.objects r).program ∧
    (t'.objects r).annotations = (t.objects r).annotations

theorem SameLooks.refl (t : ProcessTree) : SameLooks t t :=
  ⟨le_refl _, fun _ _ => ⟨rfl, rfl, rfl⟩⟩

theorem SameLooks.trans {t t' t'' : ProcessTree} (first : SameLooks t t')
    (second : SameLooks t' t'') : SameLooks t t'' := by
  refine ⟨le_trans first.next second.next, ?_⟩
  intro r old
  obtain ⟨pid, program, annotations⟩ := first.same r old
  obtain ⟨pid', program', annotations'⟩ := second.same r (lt_of_lt_of_le old first.next)
  exact ⟨pid'.trans pid, program'.trans program, annotations'.trans annotations⟩

theorem looks_swept {cutoff : Nat} {entries : List (Nat × Pid)} {t t' : ProcessTree}
    (swept : Swept cutoff entries t t') : SameLooks t t' := by
  refine ⟨le_of_eq swept.next.symm, ?_⟩
  intro r _
  obtain ⟨b, same⟩ := swept.same r
  rw [same]
  exact ⟨rfl, rfl, rfl⟩

theorem looks_makeShared (t : ProcessTree) (p : Process) : SameLooks t (t.makeShared p).1 := by
  refine ⟨Nat.le_succ _, ?_⟩
  intro r old
  have other : r ≠ t.nextObject := Nat.ne_of_lt old
  simp [makeShared, other]

theorem looks_counted (t : ProcessTree) (r : ProcessRef) (f : Int → Int) :
    SameLooks t (t.update r fun process => { process with refcnt := f process.refcnt }) := by
  refine ⟨le_refl _, ?_⟩
  intro q _
  by_cases same : q = r
  · simp [update, same]
  · simp [update, same]

theorem looks_setEntry (t : ProcessTree) (p : Pid) (value : Option (Option ProcessRef)) :
    SameLooks t (t.setEntry p value) :=
  ⟨le_refl _, fun _ _ => ⟨rfl, rfl, rfl⟩⟩

theorem emplace_frame (t : ProcessTree) (p : Pid) (r : ProcessRef) :
    (t.emplace p r).objects = t.objects ∧ (t.emplace p r).nextObject = t.nextObject ∧
      (t.emplace p r).removeAt = t.removeAt ∧
      (t.emplace p r).seenTimestamps = t.seenTimestamps := by
  unfold emplace
  split
  · exact ⟨rfl, rfl, rfl, rfl⟩
  · exact ⟨rfl, rfl, rfl, rfl⟩

theorem looks_emplace (t : ProcessTree) (p : Pid) (r : ProcessRef) :
    SameLooks t (t.emplace p r) := by
  obtain ⟨objects, next, _⟩ := emplace_frame t p r
  exact ⟨le_of_eq next.symm, fun q _ => by rw [objects]; exact ⟨rfl, rfl, rfl⟩⟩

theorem releaseOne_frame {t t' : ProcessTree} {p : Pid} (h : t.releaseOne p = some t') :
    t'.seenTimestamps = t.seenTimestamps ∧ t'.removeAt = t.removeAt ∧ SameLooks t t' ∧
      ∀ q v, t'.map q = some v → t.map q = some v := by
  unfold releaseOne at h
  split at h
  · rw [← Option.some.inj h]
    exact ⟨rfl, rfl, SameLooks.refl t, fun _ _ here => here⟩
  · cases h
  · simp only at h
    split at h
    · rw [← Option.some.inj h]
      refine ⟨rfl, rfl, (looks_counted t _ fun n => n - 1).trans (looks_setEntry _ p none), ?_⟩
      intro q v here
      by_cases same : q = p
      · simp [erase, setEntry, same] at here
      · simpa [erase, setEntry, update, same] using here
    · rw [← Option.some.inj h]
      exact ⟨rfl, rfl, looks_counted t _ fun n => n - 1, fun _ _ here => here⟩

end ProcessTree
end SantaProcessTree
