import Santa.Library.Histories
import Santa.Library.Runs
import Santa.Library.Words
import Santa.Library.KeyedRows
import Mathlib.Algebra.Group.Nat.Defs
import Mathlib.Algebra.GroupWithZero.Nat
import Mathlib.Data.List.Dedup
import Mathlib.Data.List.Lex
import Mathlib.Data.List.Sort
import Mathlib.Data.Nat.Notation

/-!
The hashing of a bundle's binaries. One block is dispatched for each file of the bundle and
then one for each executable among them; the blocks of a stage run at the same time, and each
asks once, when it begins, whether the request was cancelled. The timeout and the loss of the
client cancel it at any moment. Between its question and its end a block goes on, so a request
that is cancelled late is answered for the binaries whose blocks had begun. The disk does not
change while it is searched.
-/
namespace SantaBundleService
open Histories Runs Words

abbrev Path := List Char

def bundleBinary : ℕ := 1

structure HexDigest where
  digits : List (Fin 16)
  full : digits.length = 64
  deriving DecidableEq

structure FileInfo where
  path : Path
  isExecutable : Bool
  /-- `none` where the file ends before its size. -/
  SHA256 : Option HexDigest
  deriving DecidableEq

structure Bundle where
  bundlePath : Path
  bundleIdentifier : Option String
  bundleName : Option String
  bundleVersion : Option String
  bundleShortVersionString : Option String
  executablePath : Option Path
  deriving DecidableEq

structure Disk where
  highestBundle : Path → Option Bundle
  subpathsOfDirectory : Path → List Path
  appendingPathComponent : Path → Path → Path
  initWithResolvedPath : Path → Option FileInfo

structure StoredExecutionEvent where
  filePath : Path
  fileSHA256 : HexDigest
  decision : ℕ
  fileBundlePath : Path
  fileBundleExecutableRelPath : Option Path
  fileBundleID : Option String
  fileBundleName : Option String
  fileBundleVersion : Option String
  fileBundleVersionString : Option String
  deriving DecidableEq

structure BlockedEvent where
  fileBundlePath : Option Path
  fileBundleExecutableRelPath : Option Path
  deriving DecidableEq

abbrev RelatedEvents := KeyedRows HexDigest StoredExecutionEvent StoredExecutionEvent.fileSHA256

inductive Block where
  | waiting
  | running
  | returned
  deriving DecidableEq, Repr

inductive Phase where
  | finding
  | generating
  | hashing
  | replied
  /-- An event without a hash cannot be a key, and the exception ends the process. -/
  | died
  deriving DecidableEq, Repr

structure Service where
  phase : Phase
  /-- Whether it is cancelled, where the caller reports progress at all. -/
  progress : Option Bool
  blocks : List Block
  fis : List (Option FileInfo)
  fileInfos : List FileInfo
  relatedEvents : RelatedEvents
  reply : Option (Option HexDigest × List StoredExecutionEvent)

inductive Act where
  | cancel
  | enter (i : ℕ)
  | leave (i : ℕ)
  | generate
  | collect
  | reply
  deriving DecidableEq, Repr

def Service.isCancelled (s : Service) : Bool := s.progress = some true

def executableRelPath (event : BlockedEvent) (b : Bundle) : Option Path :=
  if (b.executablePath.getD []).length > b.bundlePath.length then
    b.executablePath.map fun path => path.drop (b.bundlePath.length + 1)
  else event.fileBundleExecutableRelPath

def relatedEvent (event : BlockedEvent) (b : Bundle) (fi : FileInfo) (sha256 : HexDigest) :
    StoredExecutionEvent :=
  ⟨fi.path, sha256, bundleBinary, b.bundlePath, executableRelPath event b, b.bundleIdentifier,
    b.bundleName, b.bundleVersion, b.bundleShortVersionString⟩

def subpaths (disk : Disk) (b : Bundle) : List Path := disk.subpathsOfDirectory b.bundlePath

def executableAt (disk : Disk) (b : Bundle) (subpath : Path) : Option FileInfo :=
  (disk.initWithResolvedPath (disk.appendingPathComponent b.bundlePath subpath)).filter
    (·.isExecutable)

/-- Digit by digit, without regard to case; those of a digest are never in upper case. Which of two
    texts comes first depends on the locale (a Danish one has aa at the end); this is the order
    of one that compares digits one by one. -/
def ascending (a b : HexDigest) : Bool := decide (a.digits ≤ b.digits)

/-- What is hashed. The length of the text is cut to 32 bits. -/
def sha256Hashes (hashes : List HexDigest) : List (Fin 16) :=
  let text := ((hashes.mergeSort ascending).map (·.digits)).flatten
  text.take (text.length % 2 ^ 32)

def calculateBundleHash (sha256 : List (Fin 16) → HexDigest) (hashes : List HexDigest) :
    Option HexDigest :=
  if hashes = [] then none else some (sha256 (sha256Hashes hashes))

section
variable (disk : Disk) (sha256 : List (Fin 16) → HexDigest) (event : BlockedEvent) (b : Bundle)

/-- The state at the first stage; without a bundle the answer is given at once. -/
def hashBundleBinaries (reportsProgress : Bool) : Service :=
  let progress := if reportsProgress then some false else none
  match event.fileBundlePath.bind disk.highestBundle with
  | none => ⟨.replied, progress, [], [], [], .empty, some (none, [])⟩
  | some b =>
      let count := (subpaths disk b).length
      ⟨.finding, progress, List.replicate count .waiting, List.replicate count none, [], .empty,
        none⟩

def enter (s : Service) (i : ℕ) : Option Service :=
  if (s.phase = .finding ∨ s.phase = .generating) ∧ s.blocks[i]? = some .waiting then
    some { s with blocks := s.blocks.set i (if s.isCancelled then .returned else .running) }
  else none

def leave (s : Service) (i : ℕ) : Option Service :=
  if s.blocks[i]? = some .running then
    match s.phase with
    | .finding => ((subpaths disk b)[i]?).map fun subpath =>
        { s with
          blocks := s.blocks.set i .returned
          fis := s.fis.set i (executableAt disk b subpath) }
    | .generating => (s.fileInfos[i]?).map fun fi =>
        match fi.SHA256 with
        | none => { s with phase := .died }
        | some hash =>
            { s with
              blocks := s.blocks.set i .returned
              relatedEvents := s.relatedEvents.put (relatedEvent event b fi hash) }
    | _ => none
  else none

def Service.finished (s : Service) : Bool := s.blocks.all (· = .returned)

def generate (s : Service) : Option Service :=
  if s.phase = .finding ∧ s.finished then
    if s.isCancelled then some { s with phase := .hashing, blocks := [] }
    else
      let fileInfos := s.fis.filterMap id
      some { s with
        phase := .generating
        fileInfos := fileInfos
        blocks := List.replicate fileInfos.length .waiting }
  else none

def collect (s : Service) : Option Service :=
  if s.phase = .generating ∧ s.finished then some { s with phase := .hashing } else none

def answer (s : Service) : Option Service :=
  if s.phase = .hashing then
    some { s with
      phase := .replied
      reply := some
        (calculateBundleHash sha256 (s.relatedEvents.rows.map (·.fileSHA256)),
          s.relatedEvents.rows) }
  else none

def step (s : Service) : Act → Option Service
  | .cancel => some { s with progress := s.progress.map fun _ => true }
  | .enter i => enter s i
  | .leave i => leave disk event b s i
  | .generate => generate s
  | .collect => collect s
  | .reply => answer sha256 s
end

/-! ### The text that is hashed -/

theorem ascending_trans (a b c : HexDigest) (first : ascending a b) (second : ascending b c) :
    ascending a c := by
  simp only [ascending, decide_eq_true_eq] at *
  exact le_trans first second

theorem ascending_total (a b : HexDigest) : ascending a b || ascending b a := by
  simp only [ascending, Bool.or_eq_true, decide_eq_true_eq]
  exact le_total a.digits b.digits

theorem HexDigest.ext_digits {a b : HexDigest} (same : a.digits = b.digits) : a = b := by
  cases a
  cases b
  cases same
  rfl

theorem ascending_antisymm {a b : HexDigest} (first : ascending a b) (second : ascending b a) :
    a = b := by
  simp only [ascending, decide_eq_true_eq] at *
  exact HexDigest.ext_digits (le_antisymm first second)

theorem mergeSort_congr {hashes hashes' : List HexDigest} (perm : hashes.Perm hashes') :
    hashes.mergeSort ascending = hashes'.mergeSort ascending := by
  have same : (hashes.mergeSort ascending).Perm (hashes'.mergeSort ascending) :=
    (List.mergeSort_perm _ _).trans (perm.trans (List.mergeSort_perm _ _).symm)
  refine same.eq_of_pairwise ?_ (List.pairwise_mergeSort ascending_trans ascending_total _)
    (List.pairwise_mergeSort ascending_trans ascending_total _)
  intro a b _ _ first second
  exact ascending_antisymm first second

theorem calculateBundleHash_congr (sha256 : List (Fin 16) → HexDigest)
    {hashes hashes' : List HexDigest} (perm : hashes.Perm hashes') :
    calculateBundleHash sha256 hashes = calculateBundleHash sha256 hashes' := by
  unfold calculateBundleHash sha256Hashes
  rw [mergeSort_congr perm]
  by_cases empty : hashes = []
  · rw [if_pos empty, if_pos (by rw [empty] at perm; exact perm.nil_eq.symm)]
  · rw [if_neg empty, if_neg fun none => empty (by rw [none] at perm; exact perm.eq_nil)]

def digest (w : List (Fin 16)) : Prop := w.length = 64

theorem digest_prefixFree : PrefixFree digest :=
  fun _ _ full full' before => before.eq_of_length (full.trans full'.symm)

theorem length_flatten_digests (hashes : List HexDigest) :
    ((hashes.map (·.digits)).flatten).length = 64 * hashes.length := by
  induction hashes with
  | nil => rfl
  | cons hash hashes ih =>
    rw [List.map_cons, List.flatten_cons, List.length_append, ih, hash.full, List.length_cons]
    omega

theorem sha256Hashes_whole {hashes : List HexDigest} (few : hashes.length < 2 ^ 26) :
    sha256Hashes hashes = ((hashes.mergeSort ascending).map (·.digits)).flatten := by
  have length := length_flatten_digests (hashes.mergeSort ascending)
  rw [List.length_mergeSort] at length
  simp only [sha256Hashes]
  rw [length, Nat.mod_eq_of_lt (by omega)]
  exact List.take_of_length_le (Nat.le_of_eq length)

theorem sha256Hashes_inj {hashes hashes' : List HexDigest} (unique : hashes.Nodup)
    (unique' : hashes'.Nodup) (few : hashes.length < 2 ^ 26) (few' : hashes'.length < 2 ^ 26) :
    sha256Hashes hashes = sha256Hashes hashes' ↔ ∀ hash, hash ∈ hashes ↔ hash ∈ hashes' := by
  rw [sha256Hashes_whole few, sha256Hashes_whole few', ← List.perm_ext_iff_of_nodup unique unique']
  have digests : ∀ hashes : List HexDigest, ∀ w ∈ hashes.map (·.digits), digest w := by
    intro hashes w member
    obtain ⟨hash, -, rfl⟩ := List.mem_map.mp member
    exact hash.full
  have some_word : ∀ w, digest w → w ≠ [] := by
    rintro w full rfl
    cases full
  rw [digest_prefixFree.flatten_inj some_word (digests _) (digests _)]
  constructor
  · intro same
    have sorted := List.map_injective_iff.mpr (fun _ _ => HexDigest.ext_digits) same
    exact (List.mergeSort_perm hashes ascending).symm.trans
      (sorted ▸ List.mergeSort_perm hashes' ascending)
  · exact fun perm => by rw [mergeSort_congr perm]

/-! ### What the blocks leave behind -/

section
variable (disk : Disk) (sha256 : List (Fin 16) → HexDigest) (event : BlockedEvent) (b : Bundle)

def binaries : List FileInfo := (subpaths disk b).filterMap (executableAt disk b)

def bundleHash : Option HexDigest :=
  calculateBundleHash sha256 ((binaries disk b).filterMap (·.SHA256)).dedup

def Cancelled (reportsProgress : Bool) (past : List Act) : Prop :=
  reportsProgress = true ∧ .cancel ∈ past

instance (reportsProgress : Bool) (past : List Act) : Decidable (Cancelled reportsProgress past) :=
  inferInstanceAs (Decidable (_ ∧ _))

def Begun (reportsProgress : Bool) (past : List Act) (i : ℕ) : Prop :=
  Occurs (.enter i) (fun before => .generate ∈ before ∧ ¬ Cancelled reportsProgress before) past

def CutShort (reportsProgress : Bool) (past : List Act) : Prop :=
  Occurs .generate (Cancelled reportsProgress) past

structure Finding (s : Service) : Prop where
  phase : s.phase = .finding
  count : s.blocks.length = (subpaths disk b).length
  slots : s.fis.length = (subpaths disk b).length
  found : s.isCancelled = false → ∀ i : ℕ, s.blocks[i]? = some .returned →
    s.fis[i]? = (subpaths disk b)[i]?.map (executableAt disk b)
  none_yet : s.relatedEvents = .empty

structure Passed (s : Service) : Prop where
  phase : s.phase = .hashing ∨ s.phase = .replied
  none_ever : s.relatedEvents = .empty

structure Generating (began : ℕ → Prop) (s : Service) : Prop where
  phase : s.phase ≠ .finding
  infos : s.fileInfos = binaries disk b
  count : s.blocks.length = (binaries disk b).length
  running : ∀ i : ℕ, s.blocks[i]? = some .running → began i
  done : ∀ i : ℕ, began i → ∃ fi, (binaries disk b)[i]? = some fi ∧
    (s.blocks[i]? = some .running ∨ s.blocks[i]? = some .returned ∧
      ∃ hash, fi.SHA256 = some hash ∧ hash ∈ s.relatedEvents.rows.map (·.fileSHA256))
  complete : s.isCancelled = false → ∀ i : ℕ, s.blocks[i]? = some .returned → began i
  rows : ∀ e ∈ s.relatedEvents.rows, ∃ (i : ℕ) (fi : FileInfo) (hash : HexDigest), began i ∧
    (binaries disk b)[i]? = some fi ∧ fi.SHA256 = some hash ∧ e = relatedEvent event b fi hash
  ended : s.phase = .hashing ∨ s.phase = .replied → s.finished = true
  died : s.phase = .died → ∃ fi ∈ binaries disk b, fi.SHA256 = none

structure Holds (reportsProgress : Bool) (past : List Act) (s : Service) : Prop where
  progress : s.progress = if reportsProgress then some (decide (.cancel ∈ past)) else none
  reply : s.reply = if s.phase = .replied then
    some (calculateBundleHash sha256 (s.relatedEvents.rows.map (·.fileSHA256)),
      s.relatedEvents.rows) else none
  stage : (Finding disk b s ∧ .generate ∉ past) ∨
    (Passed s ∧ CutShort reportsProgress past ∧ ∀ i, ¬ Begun reportsProgress past i) ∨
    (Generating disk event b (Begun reportsProgress past) s ∧ .generate ∈ past ∧
      ¬ CutShort reportsProgress past)

/-! ### Each act -/

variable {disk : Disk} {sha256 : List (Fin 16) → HexDigest} {event : BlockedEvent} {b : Bundle}
  {reportsProgress : Bool} {past : List Act} {s t : Service}

theorem Holds.isCancelled (holds : Holds disk sha256 event b reportsProgress past s) :
    s.isCancelled = true ↔ Cancelled reportsProgress past := by
  rw [Service.isCancelled, holds.progress, Cancelled]
  cases reportsProgress <;> simp

theorem begun_concat {l : Act} {i : ℕ} :
    Begun reportsProgress (past ++ [l]) i ↔ Begun reportsProgress past i ∨
      (l = .enter i ∧ .generate ∈ past ∧ ¬ Cancelled reportsProgress past) :=
  occurs_concat_iff

theorem cutShort_concat {l : Act} :
    CutShort reportsProgress (past ++ [l]) ↔ CutShort reportsProgress past ∨
      (l = .generate ∧ Cancelled reportsProgress past) :=
  occurs_concat_iff

theorem begun_other {l : Act} (other : ∀ i, l ≠ .enter i) (i : ℕ) :
    Begun reportsProgress (past ++ [l]) i ↔ Begun reportsProgress past i := by
  rw [begun_concat, or_iff_left fun entered => other i entered.1]

theorem cutShort_other {l : Act} (other : l ≠ .generate) :
    CutShort reportsProgress (past ++ [l]) ↔ CutShort reportsProgress past := by
  rw [cutShort_concat, or_iff_left fun generated => other generated.1]

theorem not_begun {i : ℕ} (before : .generate ∉ past) : ¬ Begun reportsProgress past i := by
  rintro ⟨first, rest, rfl, generated, -⟩
  exact before (List.mem_append_left _ generated)

theorem not_cutShort (before : .generate ∉ past) : ¬ CutShort reportsProgress past := by
  rintro ⟨first, rest, rfl, -⟩
  exact before (List.mem_append_right _ List.mem_cons_self)

theorem progress_other {l : Act} (other : l ≠ .cancel)
    (progress : s.progress = if reportsProgress then some (decide (.cancel ∈ past)) else none) :
    s.progress = if reportsProgress then some (decide (.cancel ∈ past ++ [l])) else none := by
  rw [progress]
  simp only [List.mem_append, List.mem_singleton, other.symm, or_false]

theorem mem_keys_put {events : RelatedEvents} {e : StoredExecutionEvent} {hash : HexDigest} :
    hash ∈ (events.put e).rows.map (·.fileSHA256) ↔
      hash = e.fileSHA256 ∨ hash ∈ events.rows.map (·.fileSHA256) := by
  have key : ∀ {events : RelatedEvents} {hash : HexDigest},
      hash ∈ events.rows.map (·.fileSHA256) ↔ (events.get hash).isSome := by
    intro events hash
    rw [List.mem_map, Option.isSome_iff_exists]
    constructor
    · rintro ⟨e, member, rfl⟩
      exact ⟨e, KeyedRows.mem_get member⟩
    · rintro ⟨e, found⟩
      exact ⟨e, KeyedRows.get_mem found, KeyedRows.get_key found⟩
  rw [key, key, KeyedRows.get_put]
  by_cases same : hash = e.fileSHA256
  · simp [same]
  · simp [same]

theorem getElem?_set_self {blocks : List Block} {i : ℕ} {old new : Block}
    (at_i : blocks[i]? = some old) (j : ℕ) :
    (blocks.set i new)[j]? = if i = j then some new else blocks[j]? := by
  have within : i < blocks.length := (List.getElem?_eq_some_iff.mp at_i).1
  rw [List.getElem?_set, if_pos within]

theorem Generating.enter {i : ℕ} (phase : s.phase = .generating) (generated : .generate ∈ past)
    (cancelled : s.isCancelled = true ↔ Cancelled reportsProgress past)
    (generating : Generating disk event b (Begun reportsProgress past) s)
    (waiting : s.blocks[i]? = some .waiting) :
    Generating disk event b (Begun reportsProgress (past ++ [.enter i]))
      { s with blocks := s.blocks.set i (if s.isCancelled then .returned else .running) } := by
  have began : ∀ j, Begun reportsProgress (past ++ [.enter i]) j ↔
      Begun reportsProgress past j ∨ (i = j ∧ s.isCancelled = false) := by
    intro j
    rw [begun_concat, ← cancelled, Bool.not_eq_true, Act.enter.injEq]
    simp only [generated, true_and]
  have not_yet : ¬ Begun reportsProgress past i := by
    intro earlier
    obtain ⟨fi, -, states⟩ := generating.done i earlier
    rw [waiting] at states
    rcases states with running | ⟨returned, -⟩
    · cases running
    · cases returned
  have within : i < (binaries disk b).length := by
    rw [← generating.count]
    exact (List.getElem?_eq_some_iff.mp waiting).1
  constructor
  · exact generating.phase
  · exact generating.infos
  · rw [List.length_set]
    exact generating.count
  · intro j running
    rw [getElem?_set_self waiting] at running
    rw [began]
    split at running
    · rename_i same
      cases going : s.isCancelled with
      | false => exact .inr ⟨same, rfl⟩
      | true =>
        rw [going] at running
        cases running
    · exact .inl (generating.running j running)
  · intro j started
    rw [getElem?_set_self waiting]
    rcases (began j).mp started with earlier | ⟨rfl, going⟩
    · have other : i ≠ j := by
        rintro rfl
        exact not_yet earlier
      rw [if_neg other]
      exact generating.done j earlier
    · refine ⟨(binaries disk b)[i], List.getElem?_eq_getElem within, .inl ?_⟩
      rw [if_pos rfl, going]
      rfl
  · intro going j returned
    rw [getElem?_set_self waiting] at returned
    rw [began]
    split at returned
    · rename_i same
      exact .inr ⟨same, going⟩
    · exact .inl (generating.complete going j returned)
  · intro e member
    obtain ⟨j, fi, hash, earlier, rest⟩ := generating.rows e member
    exact ⟨j, fi, hash, (began j).mpr (.inl earlier), rest⟩
  · intro ended
    rw [phase] at ended
    rcases ended with ended | ended <;> cases ended
  · intro died
    rw [phase] at died
    cases died

theorem Generating.leave {i : ℕ} {fi : FileInfo} (phase : s.phase = .generating)
    (generating : Generating disk event b (Begun reportsProgress past) s)
    (running : s.blocks[i]? = some .running) (info : (binaries disk b)[i]? = some fi)
    {hash : HexDigest} (hashed : fi.SHA256 = some hash) :
    Generating disk event b (Begun reportsProgress past)
      { s with
        blocks := s.blocks.set i .returned
        relatedEvents := s.relatedEvents.put (relatedEvent event b fi hash) } := by
  constructor
  · exact generating.phase
  · exact generating.infos
  · rw [List.length_set]
    exact generating.count
  · intro j running'
    rw [getElem?_set_self running] at running'
    split at running'
    · cases running'
    · exact generating.running j running'
  · intro j started
    obtain ⟨fi', info', states⟩ := generating.done j started
    refine ⟨fi', info', ?_⟩
    rw [getElem?_set_self running]
    by_cases same : i = j
    · subst same
      rw [info] at info'
      cases info'
      rw [if_pos rfl]
      exact .inr ⟨rfl, hash, hashed, mem_keys_put.mpr (.inl rfl)⟩
    · rw [if_neg same]
      refine states.imp_right ?_
      rintro ⟨returned, hash', hashed', member⟩
      exact ⟨returned, hash', hashed', mem_keys_put.mpr (.inr member)⟩
  · intro going j returned
    rw [getElem?_set_self running] at returned
    split at returned
    · rename_i same
      rw [← same]
      exact generating.running i running
    · exact generating.complete going j returned
  · intro e member
    rcases KeyedRows.mem_put member with new | old
    · exact ⟨i, fi, hash, generating.running i running, info, hashed, new⟩
    · exact generating.rows e old
  · intro ended
    rw [phase] at ended
    rcases ended with ended | ended <;> cases ended
  · intro died
    rw [phase] at died
    cases died

theorem Generating.unread {i : ℕ} {fi : FileInfo}
    (generating : Generating disk event b (Begun reportsProgress past) s)
    (info : (binaries disk b)[i]? = some fi) (none_read : fi.SHA256 = none) :
    Generating disk event b (Begun reportsProgress past) { s with phase := .died } where
  phase := by
    intro finding
    cases finding
  infos := generating.infos
  count := generating.count
  running := generating.running
  done := generating.done
  complete := generating.complete
  rows := generating.rows
  ended := by
    rintro (ended | ended) <;> cases ended
  died := fun _ => ⟨fi, List.mem_of_getElem? info, none_read⟩

theorem finished_returned (finished : s.finished = true) {i : ℕ} (within : i < s.blocks.length) :
    s.blocks[i]? = some .returned := by
  rw [List.getElem?_eq_getElem within]
  have returned := List.all_eq_true.mp finished _ (List.getElem_mem within)
  rw [of_decide_eq_true returned]

theorem Finding.infos (finding : Finding disk b s) (finished : s.finished = true)
    (going : s.isCancelled = false) : s.fis.filterMap id = binaries disk b := by
  have slots : s.fis = (subpaths disk b).map (executableAt disk b) := by
    apply List.ext_getElem?
    intro i
    rw [List.getElem?_map]
    by_cases within : i < s.blocks.length
    · exact finding.found going i (finished_returned finished within)
    · rw [finding.count] at within
      rw [List.getElem?_eq_none (by rw [finding.slots]; omega),
        List.getElem?_eq_none (by omega)]
      rfl
  rw [slots, List.filterMap_map]
  rfl

theorem Finding.generate (finding : Finding disk b s) (finished : s.finished = true)
    (before : .generate ∉ past) (going : s.isCancelled = false) :
    Generating disk event b (Begun reportsProgress (past ++ [.generate]))
      { s with
        phase := .generating
        fileInfos := s.fis.filterMap id
        blocks := List.replicate (s.fis.filterMap id).length .waiting } := by
  have none_begun : ∀ i, ¬ Begun reportsProgress (past ++ [.generate]) i := by
    intro i begun
    exact not_begun before ((begun_other (by simp) i).mp begun)
  have none_other : ∀ (state : Block) (n i : ℕ), state ≠ .waiting →
      (List.replicate n Block.waiting)[i]? ≠ some state := by
    intro state n i other found
    exact other (List.eq_of_mem_replicate (List.mem_of_getElem? found))
  have infos := finding.infos finished going
  constructor
  · intro finding
    cases finding
  · exact infos
  · rw [List.length_replicate, infos]
  · intro i running
    exact absurd running (none_other _ _ i (by decide))
  · exact fun i begun => absurd begun (none_begun i)
  · intro _ i returned
    exact absurd returned (none_other _ _ i (by decide))
  · intro e member
    rw [finding.none_yet] at member
    cases member
  · rintro (ended | ended) <;> cases ended
  · intro died
    cases died

theorem Finding.enter {i : ℕ} (finding : Finding disk b s)
    (waiting : s.blocks[i]? = some .waiting) :
    Finding disk b
      { s with blocks := s.blocks.set i (if s.isCancelled then .returned else .running) } where
  phase := finding.phase
  count := by
    rw [List.length_set]
    exact finding.count
  slots := finding.slots
  found := by
    intro going j returned
    have same : s.isCancelled = false := going
    rw [getElem?_set_self waiting, same] at returned
    split at returned
    · cases returned
    · exact finding.found same j returned
  none_yet := finding.none_yet

theorem Finding.leave {i : ℕ} {subpath : Path} (finding : Finding disk b s)
    (running : s.blocks[i]? = some .running) (here : (subpaths disk b)[i]? = some subpath) :
    Finding disk b
      { s with
        blocks := s.blocks.set i .returned
        fis := s.fis.set i (executableAt disk b subpath) } where
  phase := finding.phase
  count := by
    rw [List.length_set]
    exact finding.count
  slots := by
    rw [List.length_set]
    exact finding.slots
  found := by
    intro going j returned
    rw [getElem?_set_self running] at returned
    rw [List.getElem?_set]
    have within : i < s.fis.length := by
      rw [finding.slots]
      exact (List.getElem?_eq_some_iff.mp here).1
    by_cases same : i = j
    · subst same
      rw [if_pos rfl, if_pos within, here]
      rfl
    · rw [if_neg same] at returned ⊢
      exact finding.found going j returned
  none_yet := finding.none_yet

theorem holds_cancel (holds : Holds disk sha256 event b reportsProgress past s) :
    Holds disk sha256 event b reportsProgress (past ++ [.cancel])
      { s with progress := s.progress.map fun _ => true } := by
  have same : ∀ i, Begun reportsProgress (past ++ [.cancel]) i ↔ Begun reportsProgress past i :=
    begun_other (by simp)
  have ever : ∀ t : Service, t = { s with progress := s.progress.map fun _ => true } →
      t.isCancelled = false → s.isCancelled = false := by
    rintro t rfl going
    cases progress : s.progress with
    | none => simp [Service.isCancelled, progress]
    | some flag => simp [Service.isCancelled, progress] at going
  constructor
  · simp only [holds.progress, List.mem_append, List.mem_singleton, or_true, decide_true]
    cases reportsProgress <;> rfl
  · exact holds.reply
  · rcases holds.stage with ⟨finding, before⟩ | ⟨passed, cut, none⟩ | ⟨generating, after, whole⟩
    · refine .inl ⟨⟨finding.phase, finding.count, finding.slots, ?_, finding.none_yet⟩, ?_⟩
      · exact fun going => finding.found (ever _ rfl going)
      · simpa using before
    · refine .inr (.inl ⟨⟨passed.phase, passed.none_ever⟩, ?_, fun i => ?_⟩)
      · exact (cutShort_other (by simp)).mpr cut
      · rw [same]
        exact none i
    · refine .inr (.inr ⟨?_, List.mem_append_left _ after, ?_⟩)
      · rw [show Begun reportsProgress (past ++ [.cancel]) = Begun reportsProgress past from
          funext fun i => propext (same i)]
        exact { generating with
          phase := generating.phase
          complete := fun going => generating.complete (ever _ rfl going)
          ended := generating.ended }
      · rwa [cutShort_other (by simp)]

theorem holds_enter {i : ℕ} (holds : Holds disk sha256 event b reportsProgress past s)
    (entered : enter s i = some t) :
    Holds disk sha256 event b reportsProgress (past ++ [.enter i]) t := by
  simp only [enter, Option.ite_none_right_eq_some, Option.some.injEq] at entered
  obtain ⟨⟨phase, waiting⟩, rfl⟩ := entered
  have unanswered : s.phase ≠ .replied := by
    rintro replied
    rw [replied] at phase
    rcases phase with phase | phase <;> cases phase
  constructor
  · exact progress_other (by simp) holds.progress
  · simp only [holds.reply, if_neg unanswered]
  · rcases holds.stage with ⟨finding, before⟩ | ⟨passed, -, -⟩ | ⟨generating, after, whole⟩
    · exact .inl ⟨finding.enter waiting, by simpa using before⟩
    · rcases passed.phase with ended | ended <;> rw [ended] at phase <;>
        rcases phase with phase | phase <;> cases phase
    · have now := phase.resolve_left generating.phase
      refine .inr (.inr ⟨generating.enter now after holds.isCancelled waiting, ?_, ?_⟩)
      · exact List.mem_append_left _ after
      · rwa [cutShort_other (by simp)]

theorem holds_leave {i : ℕ} (holds : Holds disk sha256 event b reportsProgress past s)
    (left : leave disk event b s i = some t) :
    Holds disk sha256 event b reportsProgress (past ++ [.leave i]) t := by
  simp only [leave, Option.ite_none_right_eq_some] at left
  obtain ⟨running, left⟩ := left
  have same : Begun reportsProgress (past ++ [.leave i]) = Begun reportsProgress past :=
    funext fun j => propext (begun_other (by simp) j)
  have whole : CutShort reportsProgress (past ++ [.leave i]) ↔ CutShort reportsProgress past :=
    cutShort_other (by simp)
  cases phase : s.phase with
  | finding =>
    simp only [phase, Option.map_eq_some_iff] at left
    obtain ⟨subpath, here, rfl⟩ := left
    refine ⟨progress_other (by simp) holds.progress, by simpa [phase] using holds.reply, ?_⟩
    rcases holds.stage with ⟨finding, before⟩ | ⟨passed, -, -⟩ | ⟨generating, -, -⟩
    · have left := finding.leave running here
      rw [phase] at left
      exact .inl ⟨left, by simpa using before⟩
    · rcases passed.phase with ended | ended <;> rw [phase] at ended <;> cases ended
    · exact absurd phase generating.phase
  | generating =>
    simp only [phase, Option.map_eq_some_iff] at left
    obtain ⟨fi, info, stored⟩ := left
    rcases holds.stage with ⟨finding, -⟩ | ⟨passed, -, -⟩ | ⟨generating, after, uncut⟩
    · rw [finding.phase] at phase
      cases phase
    · rcases passed.phase with ended | ended <;> rw [phase] at ended <;> cases ended
    · have after' := List.mem_append_left [Act.leave i] after
      rw [generating.infos] at info
      cases hashed : fi.SHA256 with
      | none =>
        simp only [hashed] at stored
        subst stored
        refine ⟨progress_other (by simp) holds.progress, by simpa [phase] using holds.reply, ?_⟩
        rw [whole, same]
        exact .inr (.inr ⟨generating.unread info hashed, after', uncut⟩)
      | some hash =>
        simp only [hashed] at stored
        subst stored
        refine ⟨progress_other (by simp) holds.progress, by simpa [phase] using holds.reply, ?_⟩
        have left := generating.leave phase running info hashed
        rw [phase] at left
        rw [whole, same]
        exact .inr (.inr ⟨left, after', uncut⟩)
  | hashing =>
    simp only [phase] at left
    cases left
  | replied =>
    simp only [phase] at left
    cases left
  | died =>
    simp only [phase] at left
    cases left

theorem holds_generate (holds : Holds disk sha256 event b reportsProgress past s)
    (generated : generate s = some t) :
    Holds disk sha256 event b reportsProgress (past ++ [.generate]) t := by
  simp only [generate, Option.ite_none_right_eq_some] at generated
  obtain ⟨⟨phase, finished⟩, generated⟩ := generated
  have progress := progress_other (l := .generate) (by simp) holds.progress
  have cancelled := holds.isCancelled
  rcases holds.stage with ⟨finding, before⟩ | ⟨passed, -, -⟩ | ⟨generating, -, -⟩
  · cases going : s.isCancelled with
    | true =>
      rw [going, if_pos rfl, Option.some.injEq] at generated
      obtain rfl := generated
      have cut := cancelled.mp going
      refine ⟨progress, by simpa [phase] using holds.reply, .inr (.inl ⟨⟨.inl rfl, ?_⟩, ?_, ?_⟩)⟩
      · exact finding.none_yet
      · exact cutShort_concat.mpr (.inr ⟨rfl, cut⟩)
      · intro i begun
        exact not_begun before ((begun_other (by simp) i).mp begun)
    | false =>
      rw [going, if_neg (by decide), Option.some.injEq] at generated
      obtain rfl := generated
      refine ⟨progress, by simpa [phase] using holds.reply, .inr (.inr ⟨?_, by simp, ?_⟩)⟩
      · exact finding.generate finished before going
      · rw [cutShort_concat]
        rintro (cut | ⟨-, cut⟩)
        · exact not_cutShort before cut
        · rw [cancelled.mpr cut] at going
          cases going
  · rcases passed.phase with ended | ended <;> rw [phase] at ended <;> cases ended
  · exact absurd phase generating.phase

theorem holds_later {l : Act} (other : ∀ i, l ≠ .enter i) (not_generate : l ≠ .generate)
    (not_cancel : l ≠ .cancel) (holds : Holds disk sha256 event b reportsProgress past s)
    (same : t = { s with phase := t.phase, reply := t.reply })
    (phase : s.phase ≠ .finding) (ended : t.phase = .hashing ∨ t.phase = .replied)
    (finished : s.phase = .generating → s.finished = true)
    (alive : s.phase ≠ .died)
    (reply : t.reply = if t.phase = .replied then
      some (calculateBundleHash sha256 (s.relatedEvents.rows.map (·.fileSHA256)),
        s.relatedEvents.rows) else none) :
    Holds disk sha256 event b reportsProgress (past ++ [l]) t := by
  have begun : Begun reportsProgress (past ++ [l]) = Begun reportsProgress past :=
    funext fun j => propext (begun_other other j)
  have cut : CutShort reportsProgress (past ++ [l]) ↔ CutShort reportsProgress past :=
    cutShort_other not_generate
  have events : t.relatedEvents = s.relatedEvents := by rw [same]
  refine ⟨?_, ?_, ?_⟩
  · rw [show t.progress = s.progress by rw [same]]
    exact progress_other not_cancel holds.progress
  · rw [reply, events]
  · rw [begun, cut]
    rcases holds.stage with ⟨finding, -⟩ | ⟨passed, short, none⟩ | ⟨generating, after, whole⟩
    · exact absurd finding.phase phase
    · exact .inr (.inl ⟨⟨ended, events.trans passed.none_ever⟩, short, none⟩)
    · refine .inr (.inr ⟨?_, List.mem_append_left _ after, whole⟩)
      have done : s.finished = true := by
        cases now : s.phase with
        | finding => exact absurd now phase
        | generating => exact finished now
        | hashing => exact generating.ended (.inl now)
        | replied => exact generating.ended (.inr now)
        | died => exact absurd now alive
      rw [same]
      exact { generating with
        phase := by rcases ended with ended | ended <;> rw [ended] <;> decide
        ended := fun _ => done
        died := by
          intro died
          rcases ended with ended | ended <;> rw [ended] at died <;> cases died }

theorem holds_step {l : Act} (holds : Holds disk sha256 event b reportsProgress past s)
    (next : step disk sha256 event b s l = some t) :
    Holds disk sha256 event b reportsProgress (past ++ [l]) t := by
  cases l with
  | cancel =>
    simp only [step, Option.some.injEq] at next
    obtain rfl := next
    exact holds_cancel holds
  | enter i => exact holds_enter holds next
  | leave i => exact holds_leave holds next
  | generate => exact holds_generate holds next
  | collect =>
    simp only [step, collect, Option.ite_none_right_eq_some, Option.some.injEq] at next
    obtain ⟨⟨phase, finished⟩, rfl⟩ := next
    refine holds_later (by simp) (by simp) (by simp) holds rfl ?_ (.inl rfl)
      (fun _ => finished) ?_ ?_
    · rw [phase]
      decide
    · rw [phase]
      decide
    · simpa [phase] using holds.reply
  | reply =>
    simp only [step, answer, Option.ite_none_right_eq_some, Option.some.injEq] at next
    obtain ⟨phase, rfl⟩ := next
    refine holds_later (by simp) (by simp) (by simp) holds rfl ?_ (.inr rfl) ?_ ?_ rfl
    · rw [phase]
      decide
    · rw [phase]
      intro generating
      cases generating
    · rw [phase]
      decide

theorem holds_start (found : event.fileBundlePath.bind disk.highestBundle = some b) :
    Holds disk sha256 event b reportsProgress []
      (hashBundleBinaries disk event reportsProgress) := by
  simp only [hashBundleBinaries, found]
  refine ⟨?_, rfl, .inl ⟨⟨rfl, List.length_replicate, List.length_replicate, ?_, rfl⟩, by simp⟩⟩
  · cases reportsProgress <;> rfl
  · intro _ i returned
    cases List.eq_of_mem_replicate (List.mem_of_getElem? returned)

/-! ### How long it takes -/

def Act.works : Act → Bool
  | .cancel => false
  | _ => true

def Block.remaining : Block → ℕ
  | .waiting => 2
  | .running => 1
  | .returned => 0

def Service.remaining (s : Service) : ℕ :=
  match s.phase with
  | .finding => (s.blocks.map Block.remaining).sum + (2 * s.fis.length + 3)
  | .generating => (s.blocks.map Block.remaining).sum + 2
  | .hashing => 1
  | .replied | .died => 0

theorem sum_set {blocks : List Block} {i : ℕ} {old n : Block} (at_i : blocks[i]? = some old)
    (fewer : n.remaining < old.remaining) :
    ((blocks.set i n).map Block.remaining).sum < (blocks.map Block.remaining).sum := by
  induction blocks generalizing i with
  | nil => cases at_i
  | cons block blocks ih =>
    cases i with
    | zero =>
      obtain rfl := Option.some.inj at_i
      simp only [List.set_cons_zero, List.map_cons, List.sum_cons]
      omega
    | succ i =>
      have later := ih (i := i) at_i
      simp only [List.set_cons_succ, List.map_cons, List.sum_cons]
      omega

theorem sum_replicate (n : ℕ) :
    ((List.replicate n Block.waiting).map Block.remaining).sum = 2 * n := by
  rw [List.map_replicate, List.sum_replicate_nat]
  exact Nat.mul_comm n 2

theorem remaining_step {l : Act} (next : step disk sha256 event b s l = some t) :
    t.remaining + (if l.works then 1 else 0) ≤ s.remaining := by
  cases l with
  | cancel =>
    simp only [step, Option.some.injEq] at next
    subst next
    exact Nat.le_refl _
  | enter i =>
    simp only [step, enter, Option.ite_none_right_eq_some, Option.some.injEq] at next
    obtain ⟨⟨phase, waiting⟩, rfl⟩ := next
    have fewer := sum_set waiting (n := if s.isCancelled then .returned else .running)
      (by split <;> decide)
    rw [if_pos (show (Act.enter i).works = true from rfl)]
    rcases phase with phase | phase
    · simp only [Service.remaining, phase]
      omega
    · simp only [Service.remaining, phase]
      omega
  | leave i =>
    simp only [step, leave, Option.ite_none_right_eq_some] at next
    obtain ⟨running, next⟩ := next
    have fewer := sum_set running (n := .returned) (by decide)
    rw [if_pos (by rfl)]
    cases phase : s.phase with
    | finding =>
      simp only [phase, Option.map_eq_some_iff] at next
      obtain ⟨subpath, -, rfl⟩ := next
      simp only [Service.remaining, phase, List.length_set]
      omega
    | generating =>
      simp only [phase, Option.map_eq_some_iff] at next
      obtain ⟨fi, -, next⟩ := next
      split at next
      · subst next
        simp only [Service.remaining, phase]
        omega
      · subst next
        simp only [Service.remaining, phase]
        omega
    | hashing =>
      simp only [phase] at next
      cases next
    | replied =>
      simp only [phase] at next
      cases next
    | died =>
      simp only [phase] at next
      cases next
  | generate =>
    simp only [step, generate, Option.ite_none_right_eq_some] at next
    obtain ⟨⟨phase, -⟩, next⟩ := next
    have fewer := List.length_filterMap_le id s.fis
    rw [if_pos (by rfl)]
    split at next
    · simp only [Option.some.injEq] at next
      subst next
      simp only [Service.remaining, phase]
      omega
    · simp only [Option.some.injEq] at next
      subst next
      simp only [Service.remaining, phase, sum_replicate]
      omega
  | collect =>
    simp only [step, collect, Option.ite_none_right_eq_some, Option.some.injEq] at next
    obtain ⟨⟨phase, -⟩, rfl⟩ := next
    simp only [Service.remaining, phase]
    rw [if_pos (by rfl)]
    omega
  | reply =>
    simp only [step, answer, Option.ite_none_right_eq_some, Option.some.injEq] at next
    obtain ⟨phase, rfl⟩ := next
    simp only [Service.remaining, phase]
    decide

theorem remaining_run {ls : List Act} (ends : run (step disk sha256 event b) s ls = some t) :
    t.remaining + ls.countP Act.works ≤ s.remaining := by
  refine history_of_keep (fun past t => t.remaining + past.countP Act.works ≤ s.remaining) ?_
    (Nat.le_refl _) ends
  intro past u l v before next
  have fewer := remaining_step next
  rw [List.countP_append, List.countP_singleton]
  omega

theorem unfinished {s : Service} (open_block : s.finished = false) :
    ∃ i : ℕ, s.blocks[i]? = some .waiting ∨ s.blocks[i]? = some .running := by
  obtain ⟨block, member, other⟩ := List.all_eq_false.mp open_block
  obtain ⟨i, here⟩ := List.getElem?_of_mem member
  refine ⟨i, ?_⟩
  cases block with
  | waiting => exact .inl here
  | running => exact .inr here
  | returned => exact absurd (decide_eq_true rfl) other

theorem Holds.moves (holds : Holds disk sha256 event b reportsProgress past s)
    (unanswered : s.phase ≠ .replied) (alive : s.phase ≠ .died) :
    ∃ l : Act, l.works ∧ (step disk sha256 event b s l).isSome := by
  have blocks : (s.phase = .finding ∨ s.phase = .generating) → s.finished = false →
      ∃ l : Act, l.works ∧ (step disk sha256 event b s l).isSome := by
    intro phase open_block
    obtain ⟨i, waiting | running⟩ := unfinished open_block
    · exact ⟨.enter i, rfl, by simp [step, enter, phase, waiting]⟩
    · refine ⟨.leave i, rfl, ?_⟩
      have within := (List.getElem?_eq_some_iff.mp running).1
      rcases holds.stage with ⟨finding, -⟩ | ⟨passed, -, -⟩ | ⟨generating, -, -⟩
      · rw [finding.count] at within
        simp [step, leave, running, finding.phase, List.getElem?_eq_getElem within]
      · rcases passed.phase with ended | ended <;> rw [ended] at phase <;>
          rcases phase with phase | phase <;> cases phase
      · rw [generating.count, ← generating.infos] at within
        simp [step, leave, running, phase.resolve_left generating.phase,
          List.getElem?_eq_getElem within]
  cases phase : s.phase with
  | finding =>
    cases finished : s.finished with
    | false => exact blocks (.inl phase) finished
    | true =>
      refine ⟨.generate, rfl, ?_⟩
      simp only [step, generate, phase, finished, and_self, if_true]
      split <;> rfl
  | generating =>
    cases finished : s.finished with
    | false => exact blocks (.inr phase) finished
    | true => exact ⟨.collect, rfl, by simp [step, collect, phase, finished]⟩
  | hashing => exact ⟨.reply, rfl, by simp [step, answer, phase]⟩
  | replied => exact absurd phase unanswered
  | died => exact absurd phase alive

/-! ### Whole requests -/

structure Answers (disk : Disk) (sha256 : List (Fin 16) → HexDigest) (event : BlockedEvent)
    (b : Bundle) (reportsProgress : Bool) (past : List Act) (s : Service) : Prop where
  /-- It is never stuck before its end, which comes after so many acts. -/
  moves : s.phase ≠ .replied → s.phase ≠ .died →
    ∃ l : Act, l.works ∧ (step disk sha256 event b s l).isSome
  ends : past.countP Act.works ≤ 4 * (subpaths disk b).length + 3
  /-- The process dies only of an executable that could not be read. -/
  dies : s.phase = .died → ∃ fi ∈ binaries disk b, fi.SHA256 = none
  /-- The answer is the hash of its own events, each of an executable of the bundle. -/
  hashed : ∀ hash events, s.reply = some (hash, events) →
    hash = calculateBundleHash sha256 (events.map (·.fileSHA256)) ∧
      (events.map (·.fileSHA256)).Nodup ∧
      ∀ e ∈ events, ∃ fi ∈ binaries disk b, fi.SHA256 = some e.fileSHA256 ∧
        e = relatedEvent event b fi e.fileSHA256
  /-- It covers the executables with a block of the second stage that began in time. -/
  covers : ∀ hash events, s.reply = some (hash, events) → ∀ digest : HexDigest,
    digest ∈ events.map (·.fileSHA256) ↔ ∃ (i : ℕ) (fi : FileInfo),
      Begun reportsProgress past i ∧ (binaries disk b)[i]? = some fi ∧ fi.SHA256 = some digest
  /-- A request that was not cancelled has one answer, in whatever order its blocks ran. -/
  whole : ¬ Cancelled reportsProgress past → ∀ hash events, s.reply = some (hash, events) →
    hash = bundleHash disk sha256 b ∧ ∀ fi ∈ binaries disk b, fi.SHA256 ≠ none
  /-- One that was cancelled before the second stage has none. -/
  early : CutShort reportsProgress past → ∀ hash events, s.reply = some (hash, events) →
    hash = none ∧ events = []
  /-- What is hashed tells the binaries of the answer from any others. -/
  names : ∀ hash events, s.reply = some (hash, events) → events.length < 2 ^ 26 →
    ∀ other : List HexDigest, other.Nodup → other.length < 2 ^ 26 →
      (sha256Hashes other = sha256Hashes (events.map (·.fileSHA256)) ↔
        ∀ digest, digest ∈ other ↔ digest ∈ events.map (·.fileSHA256))

theorem Holds.replied (holds : Holds disk sha256 event b reportsProgress past s)
    {hash : Option HexDigest} {events : List StoredExecutionEvent}
    (reply : s.reply = some (hash, events)) : s.phase = .replied ∧ s.relatedEvents.rows = events ∧
      hash = calculateBundleHash sha256 (events.map (·.fileSHA256)) := by
  rw [holds.reply] at reply
  split at reply
  · rename_i phase
    simp only [Option.some.injEq, Prod.mk.injEq] at reply
    obtain ⟨rfl, rfl⟩ := reply
    exact ⟨phase, rfl, rfl⟩
  · cases reply

theorem Generating.mem_iff (generating : Generating disk event b (Begun reportsProgress past) s)
    (finished : s.finished = true) (digest : HexDigest) :
    digest ∈ s.relatedEvents.rows.map (·.fileSHA256) ↔ ∃ (i : ℕ) (fi : FileInfo),
      Begun reportsProgress past i ∧ (binaries disk b)[i]? = some fi ∧
        fi.SHA256 = some digest := by
  constructor
  · intro member
    obtain ⟨e, stored, rfl⟩ := List.mem_map.mp member
    obtain ⟨i, fi, hash, begun, info, hashed, rfl⟩ := generating.rows e stored
    exact ⟨i, fi, begun, info, hashed⟩
  · rintro ⟨i, fi, begun, info, hashed⟩
    obtain ⟨fi', info', states⟩ := generating.done i begun
    rw [info] at info'
    cases info'
    rcases states with running | ⟨-, hash, hashed', member⟩
    · have within := (List.getElem?_eq_some_iff.mp running).1
      rw [finished_returned finished within] at running
      cases running
    · rw [hashed] at hashed'
      cases hashed'
      exact member

theorem Holds.covers (holds : Holds disk sha256 event b reportsProgress past s)
    {hash : Option HexDigest} {events : List StoredExecutionEvent}
    (reply : s.reply = some (hash, events)) (digest : HexDigest) :
    digest ∈ events.map (·.fileSHA256) ↔ ∃ (i : ℕ) (fi : FileInfo),
      Begun reportsProgress past i ∧ (binaries disk b)[i]? = some fi ∧
        fi.SHA256 = some digest := by
  obtain ⟨phase, rfl, -⟩ := holds.replied reply
  rcases holds.stage with ⟨finding, -⟩ | ⟨passed, -, none_begun⟩ | ⟨generating, -, -⟩
  · rw [finding.phase] at phase
    cases phase
  · rw [passed.none_ever]
    constructor
    · intro member
      cases member
    · rintro ⟨i, fi, begun, -⟩
      exact absurd begun (none_begun i)
  · exact generating.mem_iff (generating.ended (.inr phase)) digest

theorem Holds.whole (holds : Holds disk sha256 event b reportsProgress past s)
    (going : ¬ Cancelled reportsProgress past) {hash : Option HexDigest}
    {events : List StoredExecutionEvent} (reply : s.reply = some (hash, events)) :
    hash = bundleHash disk sha256 b ∧ ∀ fi ∈ binaries disk b, fi.SHA256 ≠ none := by
  obtain ⟨phase, rfl, rfl⟩ := holds.replied reply
  have uncancelled : s.isCancelled = false := by
    rw [← Bool.not_eq_true, holds.isCancelled]
    exact going
  rcases holds.stage with ⟨finding, -⟩ | ⟨-, ⟨before, rest, rfl, cancelled⟩, -⟩ |
    ⟨generating, -, -⟩
  · rw [finding.phase] at phase
    cases phase
  · exact absurd ⟨cancelled.1, List.mem_append_left _ cancelled.2⟩ going
  · have finished := generating.ended (.inr phase)
    have all_begun : ∀ (i : ℕ) (fi : FileInfo), (binaries disk b)[i]? = some fi →
        Begun reportsProgress past i := by
      intro i fi info
      have within := (List.getElem?_eq_some_iff.mp info).1
      rw [← generating.count] at within
      exact generating.complete uncancelled i (finished_returned finished within)
    constructor
    · apply calculateBundleHash_congr
      refine (List.perm_ext_iff_of_nodup s.relatedEvents.unique (List.nodup_dedup _)).mpr ?_
      intro digest
      rw [generating.mem_iff finished, List.mem_dedup, List.mem_filterMap]
      constructor
      · rintro ⟨i, fi, -, info, hashed⟩
        exact ⟨fi, List.mem_of_getElem? info, hashed⟩
      · rintro ⟨fi, member, hashed⟩
        obtain ⟨i, info⟩ := List.getElem?_of_mem member
        exact ⟨i, fi, all_begun i fi info, info, hashed⟩
    · intro fi member unread
      obtain ⟨i, info⟩ := List.getElem?_of_mem member
      obtain ⟨fi', info', states⟩ := generating.done i (all_begun i fi info)
      rw [info] at info'
      cases info'
      rcases states with running | ⟨-, hash, hashed, -⟩
      · have within := (List.getElem?_eq_some_iff.mp running).1
        rw [finished_returned finished within] at running
        cases running
      · rw [unread] at hashed
        cases hashed

theorem bundle_answered (disk : Disk) (sha256 : List (Fin 16) → HexDigest) (event : BlockedEvent)
    (b : Bundle) (reportsProgress : Bool) (ls : List Act) (s : Service)
    (found : event.fileBundlePath.bind disk.highestBundle = some b)
    (ends : run (step disk sha256 event b) (hashBundleBinaries disk event reportsProgress) ls =
      some s) : Answers disk sha256 event b reportsProgress ls s := by
  have holds := history_of_keep (Holds disk sha256 event b reportsProgress)
    (fun _ _ _ _ before next => holds_step before next) (holds_start found) ends
  constructor
  · exact holds.moves
  · have within := remaining_run ends
    simp only [hashBundleBinaries, found, Service.remaining, sum_replicate,
      List.length_replicate] at within
    omega
  · intro died
    rcases holds.stage with ⟨finding, -⟩ | ⟨passed, -, -⟩ | ⟨generating, -, -⟩
    · rw [finding.phase] at died
      cases died
    · rcases passed.phase with ended | ended <;> rw [ended] at died <;> cases died
    · exact generating.died died
  · intro hash events reply
    obtain ⟨phase, rfl, same⟩ := holds.replied reply
    refine ⟨same, s.relatedEvents.unique, fun e member => ?_⟩
    rcases holds.stage with ⟨finding, -⟩ | ⟨passed, -, -⟩ | ⟨generating, -, -⟩
    · rw [finding.phase] at phase
      cases phase
    · rw [passed.none_ever] at member
      cases member
    · obtain ⟨i, fi, digest, -, info, hashed, rfl⟩ := generating.rows e member
      exact ⟨fi, List.mem_of_getElem? info, hashed, rfl⟩
  · exact fun hash events reply digest => holds.covers reply digest
  · exact fun going hash events reply => holds.whole going reply
  · intro cut hash events reply
    obtain ⟨phase, rfl, rfl⟩ := holds.replied reply
    rcases holds.stage with ⟨finding, before⟩ | ⟨passed, -, -⟩ | ⟨-, -, whole⟩
    · exact absurd cut (not_cutShort before)
    · rw [passed.none_ever]
      exact ⟨rfl, rfl⟩
    · exact absurd cut whole
  · intro hash events reply few other unique few'
    obtain ⟨phase, rfl, -⟩ := holds.replied reply
    exact sha256Hashes_inj unique s.relatedEvents.unique few' (by rwa [List.length_map])
end

def applicationDisk : Disk where
  highestBundle := fun path => some ⟨path, none, none, none, none, some (path ++ ['/', 'a'])⟩
  subpathsOfDirectory := fun _ => [['a'], ['b'], ['c']]
  appendingPathComponent := fun path subpath => path ++ '/' :: subpath
  initWithResolvedPath := fun path =>
    match path.getLast? with
    | some 'a' => some ⟨path, true, some ⟨List.replicate 64 1, by decide⟩⟩
    | some 'b' => some ⟨path, false, none⟩
    | some 'c' => some ⟨path, true, some ⟨List.replicate 64 0, by decide⟩⟩
    | _ => none

/-- The blocks run in another order than that of the files, and the timeout comes between those
    of the two executables. -/
def applicationRun : List Act :=
  [.enter 2, .enter 0, .leave 2, .enter 1, .leave 1, .leave 0, .generate, .enter 1, .cancel,
    .enter 0, .leave 1, .collect, .reply]

theorem application_answered :
    ∃ s, run (step applicationDisk (fun _ => ⟨List.replicate 64 2, by decide⟩)
        ⟨some ['/', 'A'], none⟩ ⟨['/', 'A'], none, none, none, none, some ['/', 'A', '/', 'a']⟩)
      (hashBundleBinaries applicationDisk ⟨some ['/', 'A'], none⟩ true) applicationRun = some s ∧
      s.relatedEvents.rows.map (·.filePath) = [['/', 'A', '/', 'c']] ∧
      Answers applicationDisk (fun _ => ⟨List.replicate 64 2, by decide⟩) ⟨some ['/', 'A'], none⟩
        ⟨['/', 'A'], none, none, none, none, some ['/', 'A', '/', 'a']⟩ true applicationRun s :=
  ⟨_, rfl, rfl, bundle_answered _ _ _ _ _ _ _ rfl rfl⟩

end SantaBundleService
