import Santa.Library.Runs
import Santa.Sync.SyncManager

/-!
Requests for a clean sync, and the syncs that answer them. The daemon keeps the
type that is required; a preflight reads it, and the postflight of a sync that was
clean resets it. Syncs on the queue of the manager run one at a time and requests
wait there as well, but a push notification starts a sync in its own thread. A
preflight that fails, or that no sync follows, changes nothing and is no step, nor
is a request that is refused.
-/
namespace SantaCleanRequests
open SantaConfigurator SantaPreflight SantaSettingsDelivery
open SantaSyncManager (Client received)

inductive Lane where
  | queue
  | push (thread : Nat)
  deriving DecidableEq, Repr

structure Request where
  type : SNTSyncType
  readBy : List Lane
  deriving DecidableEq, Repr

/-- The requests outstanding are no part of the program: they are what the settings owe. -/
structure State (Data : Type) where
  settings : SyncState Data
  syncs : Lane → Option SNTSyncState
  outstanding : List Request

inductive Label where
  | request (syncType : SNTSyncType)
  | preflight (lane : Lane) (resp : PreflightResponse)
  | ruleSync (lane : Lane) (now : Int)
  | postflight (lane : Lane) (now : Int)
  | fail (lane : Lane)

section
variable {Data : Type}

def State.required (s : State Data) : Int := Environment.syncTypeRequired s.settings

def Request.read (lane : Lane) (required : Int) (r : Request) : Request :=
  if r.type.rawValue ≤ required then { r with readBy := lane :: r.readBy } else r

def Request.forget (lane : Lane) (r : Request) : Request :=
  { r with readBy := r.readBy.filter (· ≠ lane) }

def step (c : Client Data) (s : State Data) : Label → Option (State Data)
  | .request syncType =>
      if (s.syncs .queue).isSome then none
      else if syncType = .normal then some s
      else some
        { s with
          settings := received c s.settings (SyncTypeConfigBundle syncType)
          outstanding := s.outstanding ++ [⟨syncType, []⟩] }
  | .preflight lane resp =>
      if (s.syncs lane).isSome then none
      else
        let syncState := preflight c.isURL resp (syncTypeOfRaw s.required)
        some
          { s with
            syncs := Function.update s.syncs lane (some syncState)
            outstanding := s.outstanding.map (Request.read lane s.required) }
  | .ruleSync lane now =>
      -- that of the sync under way, or one on its own
      if lane = .queue ∨ (s.syncs lane).isSome then
        some { s with settings := received c s.settings (RuleSyncConfigBundle now) }
      else none
  | .postflight lane now =>
      (s.syncs lane).map fun syncState =>
        { settings := received c s.settings (PostflightConfigBundle syncState now)
          syncs := Function.update s.syncs lane none
          outstanding := s.outstanding.filter fun r => !r.readBy.contains lane }
  | .fail lane =>
      (s.syncs lane).map fun _ =>
        { s with
          syncs := Function.update s.syncs lane none
          outstanding := s.outstanding.map (Request.forget lane) }

def start (settings : SyncState Data) : State Data where
  settings := settings
  syncs := fun _ => none
  outstanding :=
    let stored := syncTypeOfRaw (((settings .syncTypeRequired).map Value.integerValue).getD 0)
    if stored = .normal then [] else [⟨stored, []⟩]

/-- The settings require what was requested until a sync that has read it is through. -/
def Kept (s : State Data) : Prop := ∀ r ∈ s.outstanding, r.type.rawValue ≤ s.required

/-- No request takes the place of a stronger one, and no sync resets what it has not read. -/
def NotLost (s : State Data) : Label → Prop
  | .request syncType =>
      syncType ≠ .normal → ∀ r ∈ s.outstanding, r.type.rawValue ≤ syncType.rawValue
  | .postflight lane _ => ∀ syncState, s.syncs lane = some syncState →
      syncState.syncType ≠ .normal → ∀ r ∈ s.outstanding, lane ∈ r.readBy
  | .preflight _ _ | .ruleSync _ _ | .fail _ => True

/-! ### The type required -/

theorem received_required (c : Client Data) (settings : SyncState Data) (b : SNTConfigBundle) :
    received c settings b .syncTypeRequired =
      b.syncType.elim (settings .syncTypeRequired) fun type =>
        some (.number (.ofInt (syncTypeOfRaw type.integerValue).rawValue)) := by
  rw [received, updateSyncSettings_eq, SNTConfigBundle.decode_encode]
  rfl

theorem required_of_stored {settings : SyncState Data} {value : Value Data}
    (stored : settings .syncTypeRequired = some value) :
    Environment.syncTypeRequired settings = value.integerValue := by
  have entry : settings.count ≠ 0 := by
    intro empty
    rw [count_eq_zero_iff.mp empty] at stored
    cases stored
  rw [Environment.syncTypeRequired, if_neg entry, stored]
  rfl

theorem required_of_requested (c : Client Data) (settings : SyncState Data)
    {b : SNTConfigBundle} {type : SNTSyncType}
    (requested : b.syncType = some (.ofInt type.rawValue)) :
    (received c settings b .syncTypeRequired).isSome = true ∧
      Environment.syncTypeRequired (received c settings b) = type.rawValue := by
  have stored := received_required c settings b
  rw [requested, Option.elim_some] at stored
  refine ⟨by rw [stored]; rfl, ?_⟩
  rw [required_of_stored stored]
  cases type <;> rfl

theorem required_of_absent (c : Client Data) {settings : SyncState Data} {b : SNTConfigBundle}
    (absent : b.syncType = none) (stored : (settings .syncTypeRequired).isSome = true) :
    (received c settings b .syncTypeRequired).isSome = true ∧
      Environment.syncTypeRequired (received c settings b) =
        Environment.syncTypeRequired settings := by
  have same := received_required c settings b
  rw [absent, Option.elim_none] at same
  obtain ⟨value, there⟩ := Option.isSome_iff_exists.mp stored
  rw [there] at same
  rw [required_of_stored same, required_of_stored there, same]
  exact ⟨rfl, rfl⟩

theorem rawValue_pos {type : SNTSyncType} (clean : type ≠ .normal) : 0 < type.rawValue := by
  cases type with
  | normal => exact absurd rfl clean
  | clean | cleanAll => decide

theorem syncTypeOfRaw_rawValue {n : Int} (clean : syncTypeOfRaw n ≠ .normal) :
    (syncTypeOfRaw n).rawValue = n := by
  revert clean
  unfold syncTypeOfRaw
  split
  · exact fun _ => rfl
  · exact fun _ => rfl
  · exact fun clean => absurd rfl clean

/-! ### Steps -/

structure Inv (s : State Data) : Prop where
  kept : Kept s
  clean : ∀ r ∈ s.outstanding, r.type ≠ .normal
  stored : s.outstanding ≠ [] → (s.settings .syncTypeRequired).isSome = true

theorem Inv.of_older {s t : State Data} (inv : Inv s)
    (older : ∀ r ∈ t.outstanding, ∃ q ∈ s.outstanding, r.type = q.type)
    (same : (s.settings .syncTypeRequired).isSome = true → t.outstanding ≠ [] →
      (t.settings .syncTypeRequired).isSome = true ∧ t.required = s.required) : Inv t := by
  have stored : t.outstanding ≠ [] → (s.settings .syncTypeRequired).isSome = true := by
    intro ne
    obtain ⟨r, member⟩ := List.exists_mem_of_ne_nil _ ne
    obtain ⟨q, old, -⟩ := older r member
    exact inv.stored (List.ne_nil_of_mem old)
  constructor
  · intro r member
    have ne := List.ne_nil_of_mem member
    obtain ⟨q, old, type⟩ := older r member
    rw [type, (same (stored ne) ne).2]
    exact inv.kept q old
  · intro r member
    obtain ⟨q, old, type⟩ := older r member
    rw [type]
    exact inv.clean q old
  · exact fun ne => (same (stored ne) ne).1

theorem older_map {s : State Data} {f : Request → Request} (type : ∀ r, (f r).type = r.type) :
    ∀ r ∈ s.outstanding.map f, ∃ q ∈ s.outstanding, r.type = q.type := by
  intro r member
  obtain ⟨q, old, rfl⟩ := List.mem_map.mp member
  exact ⟨q, old, type q⟩

theorem read_type (lane : Lane) (required : Int) (r : Request) :
    (r.read lane required).type = r.type := by
  unfold Request.read
  split
  · rfl
  · rfl

theorem inv_start (settings : SyncState Data) : Inv (start settings) := by
  cases there : settings .syncTypeRequired with
  | none =>
    have nothing : (start settings).outstanding = [] := by
      simp only [start, there]
      rfl
    refine ⟨?_, ?_, fun ne => absurd nothing ne⟩
    · intro r member
      rw [nothing] at member
      cases member
    · intro r member
      rw [nothing] at member
      cases member
  | some value =>
    have outstanding : (start settings).outstanding =
        if syncTypeOfRaw value.integerValue = .normal then []
        else [⟨syncTypeOfRaw value.integerValue, []⟩] := by
      simp only [start, there]
      rfl
    have required : (start settings).required = value.integerValue := required_of_stored there
    have one : ∀ r ∈ (start settings).outstanding, r.type = syncTypeOfRaw value.integerValue ∧
        r.type ≠ .normal := by
      intro r member
      rw [outstanding] at member
      split at member
      · cases member
      next clean =>
        rw [List.mem_singleton.mp member]
        exact ⟨rfl, clean⟩
    refine ⟨?_, fun r member => (one r member).2, fun _ => ?_⟩
    · intro r member
      obtain ⟨type, clean⟩ := one r member
      rw [type] at clean
      rw [required, type, syncTypeOfRaw_rawValue clean]
    · change (settings .syncTypeRequired).isSome = true
      rw [there]
      rfl

theorem step_request {c : Client Data} {s t : State Data} {syncType : SNTSyncType}
    (stepped : step c s (.request syncType) = some t) :
    (syncType = .normal ∧ t = s) ∨ (syncType ≠ .normal ∧ t =
      { s with
        settings := received c s.settings (SyncTypeConfigBundle syncType)
        outstanding := s.outstanding ++ [⟨syncType, []⟩] }) := by
  rw [step] at stepped
  by_cases busy : (s.syncs .queue).isSome = true
  · rw [if_pos busy] at stepped
    cases stepped
  rw [if_neg busy] at stepped
  by_cases normal : syncType = .normal
  · rw [if_pos normal, Option.some.injEq] at stepped
    exact .inl ⟨normal, stepped.symm⟩
  · rw [if_neg normal, Option.some.injEq] at stepped
    exact .inr ⟨normal, stepped.symm⟩

theorem step_keeps (c : Client Data) (s : State Data) (l : Label) (t : State Data) (inv : Inv s)
    (met : NotLost s l) (stepped : step c s l = some t) : Inv t := by
  cases l with
  | request syncType =>
    rcases step_request stepped with ⟨-, rfl⟩ | ⟨clean, rfl⟩
    · exact inv
    · have requested : (SyncTypeConfigBundle syncType).syncType = some (.ofInt syncType.rawValue) :=
        rfl
      obtain ⟨stored, required⟩ := required_of_requested c s.settings requested
      constructor
      · intro r member
        change r.type.rawValue ≤ Environment.syncTypeRequired _
        rw [required]
        rcases List.mem_append.mp member with old | new
        · exact met clean r old
        · rw [List.mem_singleton.mp new]
      · intro r member
        rcases List.mem_append.mp member with old | new
        · exact inv.clean r old
        · rw [List.mem_singleton.mp new]
          exact clean
      · exact fun _ => stored
  | preflight lane resp =>
    rw [step] at stepped
    split at stepped
    · cases stepped
    · cases stepped
      exact inv.of_older (older_map (read_type lane s.required)) fun stored _ => ⟨stored, rfl⟩
  | ruleSync lane now =>
    rw [step] at stepped
    split at stepped
    · cases stepped
      have absent : (RuleSyncConfigBundle now).syncType = none := rfl
      apply inv.of_older
      · exact fun r member => ⟨r, member, rfl⟩
      intro stored _
      dsimp only [State.required]
      exact required_of_absent c absent stored
    · cases stepped
  | postflight lane now =>
    obtain ⟨syncState, under_way, rfl⟩ := Option.map_eq_some_iff.mp stepped
    have older : ∀ r ∈ s.outstanding.filter fun r => !r.readBy.contains lane,
        ∃ q ∈ s.outstanding, r.type = q.type :=
      fun r member => ⟨r, (List.mem_filter.mp member).1, rfl⟩
    apply inv.of_older older
    intro stored ne
    dsimp only [State.required] at ne ⊢
    by_cases performed : syncState.syncType = .normal
    · have absent : (PostflightConfigBundle syncState now).syncType = none :=
        if_neg (not_not.mpr performed)
      exact required_of_absent c absent stored
    · obtain ⟨r, member⟩ := List.exists_mem_of_ne_nil _ ne
      obtain ⟨old, unread⟩ := List.mem_filter.mp member
      have read := met syncState under_way performed r old
      rw [List.contains_iff_mem.mpr read] at unread
      cases unread
  | fail lane =>
    obtain ⟨syncState, under_way, rfl⟩ := Option.map_eq_some_iff.mp stepped
    exact inv.of_older (older_map fun _ => rfl) fun stored _ => ⟨stored, rfl⟩

theorem step_breaks (c : Client Data) (s : State Data) (l : Label) (t : State Data) (inv : Inv s)
    (lost : ¬ NotLost s l) (stepped : step c s l = some t) : ¬ Kept t := by
  intro kept
  apply lost
  cases l with
  | request syncType =>
    intro clean r member
    rcases step_request stepped with ⟨normal, -⟩ | ⟨-, rfl⟩
    · exact absurd normal clean
    have requested : (SyncTypeConfigBundle syncType).syncType = some (.ofInt syncType.rawValue) :=
      rfl
    have required := (required_of_requested c s.settings requested).2
    have bound := kept r (List.mem_append_left _ member)
    rwa [State.required, required] at bound
  | postflight lane now =>
    intro syncState under_way performed r member
    obtain ⟨same_state, found, rfl⟩ := Option.map_eq_some_iff.mp stepped
    rw [under_way, Option.some.injEq] at found
    subst found
    have requested : (PostflightConfigBundle syncState now).syncType =
        some (.ofInt SNTSyncType.normal.rawValue) := if_pos performed
    have required := (required_of_requested c s.settings requested).2
    by_cases read : lane ∈ r.readBy
    · exact read
    have unread : r ∈ s.outstanding.filter fun r => !r.readBy.contains lane := by
      apply List.mem_filter.mpr
      refine ⟨member, ?_⟩
      rw [Bool.not_eq_true', ← Bool.not_eq_true, List.contains_iff_mem]
      exact read
    have bound := kept r unread
    rw [State.required, required] at bound
    have positive := rawValue_pos (inv.clean r member)
    exact absurd bound (by simp only [SNTSyncType.rawValue] at *; omega)
  | preflight | ruleSync | fail => trivial

/-- Requests are kept just in the runs that lose none. -/
theorem kept_iff (c : Client Data) (settings : SyncState Data) (ls : List Label) :
    Runs.Always (step c) Kept (start settings) ls ↔
      Runs.Meets (step c) NotLost (start settings) ls :=
  Runs.always_iff_meets Inv (fun _ inv => inv.kept) (step_keeps c) (step_breaks c)
    (inv_start settings) ls

/-! ### The queue alone -/

def OnQueue : Label → Prop
  | .request _ => True
  | .preflight lane _ | .ruleSync lane _ | .postflight lane _ | .fail lane => lane = .queue

/-- Without syncs in other threads only a request can take the place of another. -/
def Serial (s : State Data) (l : Label) : Prop :=
  OnQueue l ∧ ∀ syncType, l = .request syncType → NotLost s l

def AllRead (s : State Data) : Prop :=
  (s.syncs .queue).isSome = true → ∀ r ∈ s.outstanding, Lane.queue ∈ r.readBy

theorem notLost_of_serial {s : State Data} {l : Label} (all : AllRead s) (serial : Serial s l) :
    NotLost s l := by
  cases l with
  | request syncType => exact serial.2 syncType rfl
  | postflight lane now =>
    obtain ⟨on_queue, -⟩ := serial
    change lane = .queue at on_queue
    subst on_queue
    intro syncState under_way _ r member
    apply all _ r member
    rw [under_way]
    rfl
  | preflight | ruleSync | fail => trivial

theorem step_allRead {c : Client Data} {s t : State Data} {l : Label} (kept : Kept s)
    (all : AllRead s) (on_queue : OnQueue l) (stepped : step c s l = some t) : AllRead t := by
  cases l with
  | request syncType =>
    intro busy
    rw [step] at stepped
    split at stepped
    · cases stepped
    next idle =>
      split at stepped
      · cases stepped
        exact absurd busy idle
      · cases stepped
        exact absurd busy idle
  | preflight lane resp =>
    change lane = .queue at on_queue
    subst on_queue
    rw [step] at stepped
    split at stepped
    · cases stepped
    · cases stepped
      intro _ r member
      obtain ⟨q, old, rfl⟩ := List.mem_map.mp member
      rw [Request.read, if_pos (kept q old)]
      exact List.mem_cons_self
  | ruleSync lane now =>
    rw [step] at stepped
    split at stepped
    · cases stepped
      exact all
    · cases stepped
  | postflight lane now | fail lane =>
    change lane = .queue at on_queue
    subst on_queue
    obtain ⟨syncState, -, rfl⟩ := Option.map_eq_some_iff.mp stepped
    intro busy
    change (Function.update s.syncs Lane.queue none Lane.queue).isSome = true at busy
    rw [Function.update_self] at busy
    cases busy

/-- On the queue no request is lost but to a weaker one. -/
theorem kept_on_queue (c : Client Data) (settings : SyncState Data) {ls : List Label}
    (serial : Runs.Meets (step c) Serial (start settings) ls) :
    Runs.Always (step c) Kept (start settings) ls := by
  have together : Runs.Always (step c) (fun s => Inv s ∧ AllRead s) (start settings) ls := by
    apply Runs.always_of_meets _ ⟨inv_start settings, fun busy => nomatch busy⟩ serial
    rintro s l t ⟨inv, all⟩ met stepped
    have notLost := notLost_of_serial all met
    exact ⟨step_keeps c s l t inv notLost stepped, step_allRead inv.kept all met.1 stepped⟩
  exact Runs.always_mono (fun _ both => both.1.kept) together

end

/-- A sync of a push notification has read that nothing is required, and the server made it clean.
    Its postflight resets what was requested in the meantime. -/
theorem request_reset_unread :
    let daemon : SantaRuleDownload.Daemon :=
      ⟨fun _ _ => none, fun _ => "0", fun _ => none, ⟨none, 0⟩, ⟨none, 0, false⟩, true⟩
    let c : Client _ :=
      ⟨"https://santa", "1", true, false, fun _ => none, objects, fun _ => true, daemon, 2⟩
    let synced : SyncState _ := SyncState.empty.update .fullSyncLastSuccess (some (.date 1))
    ¬ Runs.Always (step c) Kept (start synced)
      [.preflight (.push 0) { auditOnlyResponse with syncType := some .clean },
        .request .cleanAll, .postflight (.push 0) 2] := by
  intro daemon c synced always
  have read := always.2 _ rfl
  have requested := read.2 _ rfl
  have reset : Kept _ := requested.2 _ rfl
  have bound := reset ⟨.cleanAll, []⟩ (.head _)
  rw [State.required, (required_of_requested c _ rfl).2] at bound
  exact absurd bound (by decide)

end SantaCleanRequests
