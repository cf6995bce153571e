import Santa.Common.Configurator

/-!
What is left of the sync state after a restart. The configurator is started with
a file of any content, and its setters are called in any order; each update is
saved at once. `loaded` is the state that was read at the start, kept for the
statements only. There is a sync server and the process is root, so that the file
is read and written at all.
-/
namespace SantaSettingsRestart
open SantaConfigurator

variable {Data : Type}

structure Configurator (Data : Type) where
  syncState : SyncState Data
  disk : Option (SyncStateFile Data)
  loaded : SyncState Data

/-- A restart finds the file as it was left, or as somebody else has changed it. -/
inductive Event (Data : Type) where
  | set (setter : Setter Data)
  | clearSyncState
  | restart (disk : Option (SyncStateFile Data))

namespace Configurator

def start (engine : RegexEngine) (disk : Option (SyncStateFile Data)) : Configurator Data :=
  let read := (disk.map (readSyncStateFromDisk engine)).getD .empty
  match migrateDeprecatedSyncStateKeys read with
  | some migrated => ⟨migrated, saveSyncStateToDisk migrated disk, read⟩
  | none => ⟨read, disk, read⟩

def updateSyncStateForKey (c : Configurator Data) (update : SyncKey × Option (Value Data)) :
    Configurator Data :=
  let s := c.syncState.update update.1 update.2
  { c with syncState := s, disk := saveSyncStateToDisk s c.disk }

def step (engine : RegexEngine) (c : Configurator Data) : Event Data → Configurator Data
  | .set setter => (setter.updates engine).foldl updateSyncStateForKey c
  | .clearSyncState => { c with syncState := .empty }
  | .restart disk => start engine disk

def run (engine : RegexEngine) (disk : Option (SyncStateFile Data)) (events : List (Event Data)) :
    Configurator Data :=
  events.foldl (step engine) (start engine disk)

def savedAndRead (engine : RegexEngine) (c : Configurator Data) : SyncState Data :=
  ((saveSyncStateToDisk c.syncState c.disk).map (readSyncStateFromDisk engine)).getD .empty

def Preserved (env : Environment Data) (c : Configurator Data) : Prop :=
  env.getters (c.savedAndRead env.engine) = env.getters c.syncState

end Configurator

/-! ### The values of each key -/

def Typed (s : SyncState Data) : Prop :=
  ∀ key value, s key = some value → value.objectClass = (syncServerKeyTypes key).getD .number

theorem typed_empty : Typed (SyncState.empty : SyncState Data) := by
  intro key value there
  cases there

theorem typed_update {s : SyncState Data} {key : SyncKey} {value : Option (Value Data)}
    (typed : Typed s)
    (class_of_value : ∀ v, value = some v → v.objectClass = (syncServerKeyTypes key).getD .number) :
    Typed (s.update key value) := by
  intro k v there
  by_cases at_key : k = key
  · subst k
    rw [SyncState.update, Function.update_self] at there
    exact class_of_value v there
  · rw [SyncState.update, Function.update_of_ne at_key] at there
    exact typed k v there

theorem readValue_class {engine : RegexEngine} {key : SyncKey} {value v : Value Data}
    (kept : readValue engine key value = some v) :
    v.objectClass = (syncServerKeyTypes key).getD .number := by
  unfold readValue at kept
  split at kept
  · rename_i regex
    rw [regex]
    obtain ⟨pattern, -, compiled⟩ := Option.bind_eq_some_iff.mp kept
    rw [expressionForPattern, regularExpressionWithPattern, Option.map_eq_some_iff] at compiled
    obtain ⟨-, -, rfl⟩ := compiled
    rfl
  · split at kept
    · rename_i same
      rw [Option.some.injEq] at kept
      rw [same, ← kept]
      rfl
    · cases kept

theorem typed_read (engine : RegexEngine) (file : SyncStateFile Data) :
    Typed (readSyncStateFromDisk engine file) := by
  intro key value there
  obtain ⟨stored, -, kept⟩ := Option.bind_eq_some_iff.mp there
  exact readValue_class kept

theorem typed_migrated {s migrated : SyncState Data} (typed : Typed s)
    (done : migrateDeprecatedSyncStateKeys s = some migrated) : Typed migrated := by
  rw [migrateDeprecatedSyncStateKeys, Option.map_eq_some_iff] at done
  obtain ⟨cleanRequired, -, rfl⟩ := done
  apply typed_update
  · split
    · apply typed_update typed
      rintro v ⟨⟩
      rfl
    · exact typed
  · intro v impossible
    cases impossible

def isDeprecatedRegex : SyncKey → Bool
  | .allowedPathRegexDeprecated | .blockedPathRegexDeprecated => true
  | _ => false

def Unwritable (s : SyncState Data) : Prop :=
  ∃ key, isDeprecatedRegex key = true ∧ (s key).isSome = true

theorem unwritable_update {s : SyncState Data} {key : SyncKey} {value : Option (Value Data)}
    (current : isDeprecatedRegex key = false) :
    Unwritable (s.update key value) ↔ Unwritable s := by
  apply exists_congr
  intro k
  apply and_congr_right
  intro deprecated
  have other : k ≠ key := by
    rintro rfl
    exact absurd deprecated (by rw [current]; decide)
  rw [SyncState.update, Function.update_of_ne other]

/-- An update of a current key, by a value of the key's class if by any. -/
structure Fits (key : SyncKey) (value : Option (Value Data)) : Prop where
  of_class : ∀ v, value = some v → v.objectClass = (syncServerKeyTypes key).getD .number
  current : isDeprecatedRegex key = false

theorem fits_value {key : SyncKey} {value : Value Data}
    (of_class : value.objectClass = (syncServerKeyTypes key).getD .number)
    (current : isDeprecatedRegex key = false) : Fits key (some value) := by
  refine ⟨?_, current⟩
  rintro v ⟨⟩
  exact of_class

theorem fits_map {α : Type} {key : SyncKey} {value : Option α} {f : α → Value Data}
    (of_class : ∀ a, (f a).objectClass = (syncServerKeyTypes key).getD .number)
    (current : isDeprecatedRegex key = false) : Fits key (value.map f) := by
  refine ⟨?_, current⟩
  intro v there
  obtain ⟨a, -, rfl⟩ := Option.map_eq_some_iff.mp there
  exact of_class a

theorem fits_regex {key : SyncKey} {engine : RegexEngine} {pattern : Option String}
    (of_class : syncServerKeyTypes key = some .regularExpression)
    (current : isDeprecatedRegex key = false) :
    Fits key (pattern.bind (@regularExpressionWithPattern Data engine)) := by
  refine ⟨?_, current⟩
  intro v there
  obtain ⟨p, -, compiled⟩ := Option.bind_eq_some_iff.mp there
  obtain ⟨-, -, rfl⟩ := Option.map_eq_some_iff.mp compiled
  rw [of_class]
  rfl

theorem updates_fit {engine : RegexEngine} {setter : Setter Data}
    {update : SyncKey × Option (Value Data)} (member : update ∈ setter.updates engine) :
    Fits update.1 update.2 := by
  cases setter with
  | clientMode newMode =>
    rw [Setter.updates] at member
    split at member
    · cases member
    · obtain rfl := List.mem_singleton.mp member
      exact fits_value rfl rfl
  | overrideFileAccessAction action =>
    rw [Setter.updates] at member
    split at member
    · obtain rfl := List.mem_singleton.mp member
      exact fits_value rfl rfl
    · cases member
  | modeTransition type serialized =>
    obtain rfl := List.mem_singleton.mp member
    dsimp only
    split
    · exact ⟨by simp, rfl⟩
    · exact fits_map (fun _ => rfl) rfl
  | fullSyncLastSuccess date =>
    rcases List.mem_pair.mp member with rfl | rfl
    · exact fits_map (fun _ => rfl) rfl
    · exact fits_map (fun _ => rfl) rfl
  | allowedPathRegex | blockedPathRegex =>
    obtain rfl := List.mem_singleton.mp member
    exact fits_regex rfl rfl
  | exportConfig | remountUSBMode | eventDetailURL | eventDetailText | ruleSyncLastSuccess
  | bannedNetworkMountBlockMessage | allowedNetworkMountHosts =>
    obtain rfl := List.mem_singleton.mp member
    exact fits_map (fun _ => rfl) rfl
  | enableTransitiveRules | enableBundles | syncTypeRequired | enableAllEventUpload
  | disableUnknownEventUpload | blockUSBMount | blockNetworkMount =>
    obtain rfl := List.mem_singleton.mp member
    exact fits_value rfl rfl

/-! ### What is written -/

theorem writeToFile_plain {s : SyncState Data}
    (plain : ∀ key value, s key = some value → value.isPropertyList = true) :
    ∃ file, writeToFile s = some file ∧ file.values = s := by
  have all : SyncKey.all.all (fun key => (s key).all Value.isPropertyList) = true := by
    apply List.all_eq_true.mpr
    intro key _
    exact Option.all_eq_true _ _ |>.mpr (plain key)
  rw [writeToFile, dif_pos all]
  exact ⟨_, rfl, rfl⟩

theorem writeToFile_other {s : SyncState Data} {key : SyncKey} {value : Value Data}
    (there : s key = some value) (other : value.isPropertyList = false) : writeToFile s = none := by
  apply dif_neg
  intro all
  have plain := List.all_eq_true.mp all key (SyncKey.mem_all key)
  rw [there, Option.all_some, other] at plain
  cases plain

theorem save_unwritable {s : SyncState Data} (typed : Typed s) (unwritable : Unwritable s)
    (disk : Option (SyncStateFile Data)) : saveSyncStateToDisk s disk = disk := by
  obtain ⟨key, deprecated, there⟩ := unwritable
  obtain ⟨value, there⟩ := Option.isSome_iff_exists.mp there
  have regex := typed key value there
  have kept : withPatterns s key = some value ∧ value.isPropertyList = false := by
    cases key <;> cases deprecated <;>
      exact ⟨there, by rw [Value.isPropertyList, regex]; rfl⟩
  rw [saveSyncStateToDisk, writeToFile_other kept.1 kept.2, Option.none_or]

theorem regex_key {key : SyncKey} (regex : syncServerKeyTypes key = some .regularExpression) :
    (key = .allowedPathRegex ∨ key = .blockedPathRegex) ∨ isDeprecatedRegex key = true := by
  cases key <;> first | decide | cases regex

theorem classless_key {key : SyncKey} (classless : syncServerKeyTypes key = none) :
    key = .disableUnknownEventUpload := by
  cases key <;> first | rfl | cases classless

theorem unset_of_writable {s : SyncState Data} {key : SyncKey} (writable : ¬ Unwritable s)
    (deprecated : isDeprecatedRegex key = true) : s key = none := by
  rw [← Option.not_isSome_iff_eq_none]
  exact fun there => writable ⟨key, deprecated, there⟩

theorem plain_elsewhere {s : SyncState Data} {key : SyncKey} {value : Value Data}
    (typed : Typed s) (writable : ¬ Unwritable s)
    (elsewhere : ¬ (key = .allowedPathRegex ∨ key = .blockedPathRegex))
    (there : s key = some value) : value.objectClass ≠ .regularExpression := by
  rw [typed key value there]
  intro regex
  cases table : syncServerKeyTypes key with
  | none =>
    rw [table] at regex
    cases regex
  | some c =>
    rw [table, Option.getD_some] at regex
    rw [regex] at table
    rcases regex_key table with path | deprecated
    · exact elsewhere path
    · rw [unset_of_writable writable deprecated] at there
      cases there

theorem save_writable {s : SyncState Data} (typed : Typed s) (writable : ¬ Unwritable s)
    (disk : Option (SyncStateFile Data)) :
    ∃ file, saveSyncStateToDisk s disk = some file ∧ file.values = withPatterns s := by
  have plain : ∀ key value, withPatterns s key = some value → value.isPropertyList = true := by
    intro key value there
    by_cases path_regex : key = .allowedPathRegex ∨ key = .blockedPathRegex
    · rw [withPatterns, if_pos path_regex, Option.bind_eq_some_iff] at there
      obtain ⟨expression, -, pattern⟩ := there
      cases expression <;> cases pattern
      rfl
    · rw [withPatterns, if_neg path_regex] at there
      exact decide_eq_true (plain_elsewhere typed writable path_regex there)
  obtain ⟨file, written, values⟩ := writeToFile_plain plain
  refine ⟨file, ?_, values⟩
  rw [saveSyncStateToDisk, written, Option.some_or]

/-! ### What is read back -/

/-- A path regex is read from its pattern, and `disableUnknownEventUpload` not at all. -/
def readBack (engine : RegexEngine) (s : SyncState Data) : SyncState Data := fun key =>
  if key = .disableUnknownEventUpload then none
  else if key = .allowedPathRegex ∨ key = .blockedPathRegex then
    ((s key).bind Value.pattern).bind fun value => value.string?.bind (expressionForPattern engine)
  else s key

theorem read_withPatterns {engine : RegexEngine} {s : SyncState Data} {file : SyncStateFile Data}
    (typed : Typed s) (writable : ¬ Unwritable s) (values : file.values = withPatterns s) :
    readSyncStateFromDisk engine file = readBack engine s := by
  funext key
  rw [readSyncStateFromDisk, values, withPatterns, readBack]
  by_cases path_regex : key = .allowedPathRegex ∨ key = .blockedPathRegex
  · have regex : syncServerKeyTypes key = some .regularExpression := by
      rcases path_regex with rfl | rfl <;> rfl
    have known : key ≠ .disableUnknownEventUpload := by
      rcases path_regex with rfl | rfl <;> decide
    rw [if_pos path_regex, if_neg known, if_pos path_regex]
    congr
    funext value
    exact if_pos regex
  · rw [if_neg path_regex, if_neg path_regex]
    cases there : s key with
    | none => rw [Option.bind_none, ite_self]
    | some value =>
      have plain := plain_elsewhere typed writable path_regex there
      have of_class := typed key value there
      rw [Option.bind_some, readValue]
      cases table : syncServerKeyTypes key with
      | none => rw [if_pos (classless_key table)]; rfl
      | some c =>
        rw [table, Option.getD_some] at of_class
        have known : key ≠ .disableUnknownEventUpload := by
          rintro rfl
          cases table
        rw [of_class] at plain
        rw [if_neg (fun same => plain (Option.some.inj same)), of_class, if_pos rfl, if_neg known]

/-! ### The getters of two states -/

structure SameElsewhere (s t : SyncState Data) : Prop where
  same : ∀ key, key ≠ .allowedPathRegex → key ≠ .blockedPathRegex →
    key ≠ .disableUnknownEventUpload → s key = t key

theorem getters_eq_iff (env : Environment Data) {s t : SyncState Data} (h : SameElsewhere s t) :
    env.getters s = env.getters t ↔
      (env.pathRegex s .allowedPathRegex .allowedPathRegexDeprecated =
          env.pathRegex t .allowedPathRegex .allowedPathRegexDeprecated ∧
        env.pathRegex s .blockedPathRegex .blockedPathRegexDeprecated =
          env.pathRegex t .blockedPathRegex .blockedPathRegexDeprecated) ∧
      env.flag s .disableUnknownEventUpload = env.flag t .disableUnknownEventUpload ∧
      Environment.syncTypeRequired s = Environment.syncTypeRequired t := by
  constructor
  · intro same
    exact ⟨⟨congrArg Getters.allowedPathRegex same, congrArg Getters.blockedPathRegex same⟩,
      congrArg Getters.disableUnknownEventUpload same, congrArg Getters.syncTypeRequired same⟩
  · rintro ⟨⟨allowed, blocked⟩, disable, required⟩
    simp only [Environment.flag] at disable
    simp (disch := decide) only [Environment.getters, Environment.clientMode,
      Environment.enableTransitiveRules, Environment.flag, Environment.text,
      Environment.interval, Environment.overrideFileAccessAction, Environment.remountUSBMode,
      Environment.exportConfig, Environment.modeTransition, allowed, blocked, disable, required,
      h.same]

theorem readBack_none {engine : RegexEngine} {s : SyncState Data} {key : SyncKey}
    (unset : s key = none) : readBack engine s key = none := by
  rw [readBack, unset]
  split
  · rfl
  · split <;> rfl

theorem sameElsewhere_readBack (engine : RegexEngine) (s : SyncState Data) :
    SameElsewhere (readBack engine s) s := by
  constructor
  intro key not_allowed not_blocked known
  rw [readBack, if_neg known, if_neg]
  rintro (allowed | blocked)
  · exact not_allowed allowed
  · exact not_blocked blocked

def ReadAlike (env : Environment Data) (s : SyncState Data) (key deprecated : SyncKey) : Prop :=
  ∀ pattern, s key = some (.regularExpression pattern) →
    (env.engine (anchored pattern)).or (env.pathRegex .empty key deprecated) = env.engine pattern

theorem pathRegex_of_regex {env : Environment Data} {s : SyncState Data}
    {key : SyncKey} {pattern : String} (there : s key = some (.regularExpression pattern))
    (deprecated : SyncKey) : env.pathRegex s key deprecated = env.engine pattern := by
  rw [Environment.pathRegex, there]
  rfl

theorem pathRegex_of_none {env : Environment Data} {s : SyncState Data}
    {key deprecated : SyncKey} (unset : s key = none) (unset_deprecated : s deprecated = none) :
    env.pathRegex s key deprecated = env.pathRegex .empty key deprecated := by
  rw [Environment.pathRegex, unset, unset_deprecated]
  rfl

theorem readBack_regex {engine : RegexEngine} {s : SyncState Data} {key : SyncKey}
    (path_regex : key = .allowedPathRegex ∨ key = .blockedPathRegex) :
    readBack engine s key = ((s key).bind Value.pattern).bind fun value =>
      value.string?.bind (expressionForPattern engine) := by
  have known : key ≠ .disableUnknownEventUpload := by
    rcases path_regex with rfl | rfl <;> decide
  rw [readBack, if_neg known, if_pos path_regex]

theorem readBack_of_regex {engine : RegexEngine} {s : SyncState Data} {key : SyncKey}
    {pattern : String} (path_regex : key = .allowedPathRegex ∨ key = .blockedPathRegex)
    (there : s key = some (.regularExpression pattern)) :
    readBack engine s key =
      (engine (anchored pattern)).map fun _ => .regularExpression (anchored pattern) := by
  rw [readBack_regex path_regex, there]
  rfl

theorem typed_regex {s : SyncState Data} {key : SyncKey} {value : Value Data} (typed : Typed s)
    (path_regex : key = .allowedPathRegex ∨ key = .blockedPathRegex)
    (there : s key = some value) : ∃ pattern, value = .regularExpression pattern := by
  have regex : value.objectClass = .regularExpression := by
    rw [typed key value there]
    rcases path_regex with rfl | rfl <;> rfl
  cases value <;> cases regex
  exact ⟨_, rfl⟩

theorem pathRegex_readBack {env : Environment Data} {s : SyncState Data} {key deprecated : SyncKey}
    (typed : Typed s) (writable : ¬ Unwritable s)
    (path_regex : key = .allowedPathRegex ∨ key = .blockedPathRegex)
    (deprecated_regex : isDeprecatedRegex deprecated = true) :
    env.pathRegex (readBack env.engine s) key deprecated = env.pathRegex s key deprecated ↔
      ReadAlike env s key deprecated := by
  have unset := unset_of_writable writable deprecated_regex
  have of_deprecated : readBack env.engine s deprecated = none := by
    rw [(sameElsewhere_readBack env.engine s).same deprecated, unset]
    all_goals rintro rfl; cases deprecated_regex
  cases there : s key with
  | none =>
    rw [pathRegex_of_none (readBack_none there) of_deprecated, pathRegex_of_none there unset]
    apply iff_of_true rfl
    intro pattern set
    rw [there] at set
    cases set
  | some value =>
    obtain ⟨pattern, rfl⟩ := typed_regex typed path_regex there
    have of_key := @readBack_of_regex Data env.engine s key pattern path_regex there
    have alike : ReadAlike env s key deprecated ↔
        (env.engine (anchored pattern)).or (env.pathRegex .empty key deprecated) =
          env.engine pattern := by
      constructor
      · exact fun each => each pattern there
      · intro same p set
        rw [there] at set
        cases set
        exact same
    rw [alike, pathRegex_of_regex there]
    cases compiled : env.engine (anchored pattern) with
    | none =>
      rw [compiled, Option.map_none] at of_key
      rw [pathRegex_of_none of_key of_deprecated, Option.none_or]
    | some matching =>
      rw [compiled, Option.map_some] at of_key
      rw [pathRegex_of_regex of_key, compiled, Option.some_or]

theorem flag_readBack (env : Environment Data) (s : SyncState Data) :
    env.flag (readBack env.engine s) .disableUnknownEventUpload =
        env.flag s .disableUnknownEventUpload ↔
      ∀ value, s .disableUnknownEventUpload = some value →
        value.boolValue = env.flag .empty .disableUnknownEventUpload := by
  have dropped : env.flag (readBack env.engine s) .disableUnknownEventUpload =
      env.flag .empty .disableUnknownEventUpload := rfl
  rw [dropped, Environment.flag, Environment.flag]
  cases s .disableUnknownEventUpload with
  | none => exact iff_of_true rfl fun _ impossible => nomatch impossible
  | some value =>
    constructor
    · rintro same v ⟨⟩
      exact same.symm
    · exact fun same => (same value rfl).symm

def Kept (engine : RegexEngine) (key : SyncKey) (value : Value Data) : Prop :=
  key ≠ .disableUnknownEventUpload ∧
    ∀ pattern, value = .regularExpression pattern → (engine (anchored pattern)).isSome = true

theorem readBack_isSome {engine : RegexEngine} {s : SyncState Data} {key : SyncKey}
    {value : Value Data} (typed : Typed s) (writable : ¬ Unwritable s)
    (there : s key = some value) :
    (readBack engine s key).isSome = true ↔ Kept engine key value := by
  by_cases path_regex : key = .allowedPathRegex ∨ key = .blockedPathRegex
  · obtain ⟨pattern, rfl⟩ := typed_regex typed path_regex there
    have known : key ≠ .disableUnknownEventUpload := by
      rcases path_regex with rfl | rfl <;> decide
    rw [readBack_of_regex path_regex there, Option.isSome_map]
    constructor
    · intro compiles
      refine ⟨known, ?_⟩
      rintro p ⟨⟩
      exact compiles
    · exact fun kept => kept.2 pattern rfl
  · rw [readBack, if_neg path_regex, there]
    by_cases known : key = .disableUnknownEventUpload
    · rw [if_pos known]
      exact iff_of_false Bool.false_ne_true fun kept => kept.1 known
    · rw [if_neg known]
      apply iff_of_true rfl
      refine ⟨known, ?_⟩
      rintro pattern rfl
      exact absurd rfl (plain_elsewhere typed writable path_regex there)

theorem syncTypeRequired_readBack {engine : RegexEngine} {s : SyncState Data} (typed : Typed s)
    (writable : ¬ Unwritable s) :
    Environment.syncTypeRequired (readBack engine s) = Environment.syncTypeRequired s ↔
      (s.count ≠ 0 → ∃ key value, s key = some value ∧ Kept engine key value) := by
  have same := (sameElsewhere_readBack engine s).same .syncTypeRequired
    (by decide) (by decide) (by decide)
  have fewer : s.count = 0 → (readBack engine s).count = 0 := by
    intro empty
    apply count_eq_zero_iff.mpr
    exact fun key => readBack_none (count_eq_zero_iff.mp empty key)
  rw [syncTypeRequired_eq_iff same fewer, ← not_imp_not]
  apply imp_congr_right
  intro _
  rw [count_eq_zero_iff, not_forall]
  constructor
  · rintro ⟨key, there⟩
    cases before : s key with
    | none => exact absurd (readBack_none before) there
    | some value =>
      have kept := Option.isSome_iff_ne_none.mpr there
      exact ⟨key, value, before, (readBack_isSome typed writable before).mp kept⟩
  · rintro ⟨key, value, there, kept⟩
    have there := (readBack_isSome typed writable there).mpr kept
    exact ⟨key, Option.isSome_iff_ne_none.mp there⟩

structure Restorable (env : Environment Data) (s : SyncState Data) : Prop where
  allowedPathRegex : ReadAlike env s .allowedPathRegex .allowedPathRegexDeprecated
  blockedPathRegex : ReadAlike env s .blockedPathRegex .blockedPathRegexDeprecated
  disableUnknownEventUpload : ∀ value, s .disableUnknownEventUpload = some value →
    value.boolValue = env.flag .empty .disableUnknownEventUpload
  some_kept : s.count ≠ 0 → ∃ key value, s key = some value ∧ Kept env.engine key value

theorem restorable_iff {env : Environment Data} {s : SyncState Data} (typed : Typed s)
    (writable : ¬ Unwritable s) :
    env.getters (readBack env.engine s) = env.getters s ↔ Restorable env s := by
  rw [getters_eq_iff env (sameElsewhere_readBack env.engine s), flag_readBack,
    syncTypeRequired_readBack typed writable,
    pathRegex_readBack typed writable (.inl rfl) rfl,
    pathRegex_readBack typed writable (.inr rfl) rfl]
  constructor
  · rintro ⟨⟨allowed, blocked⟩, disable, kept⟩
    exact ⟨allowed, blocked, disable, kept⟩
  · rintro ⟨allowed, blocked, disable, kept⟩
    exact ⟨⟨allowed, blocked⟩, disable, kept⟩

/-! ### Runs -/

/-- While a deprecated regex is in the state, the file is the one that was read. -/
structure Inv (engine : RegexEngine) (c : Configurator Data) : Prop where
  typed : Typed c.syncState
  as_loaded : Unwritable c.syncState → c.disk.map (readSyncStateFromDisk engine) = some c.loaded

theorem inv_start (engine : RegexEngine) (disk : Option (SyncStateFile Data)) :
    Inv engine (Configurator.start engine disk) := by
  cases disk with
  | none =>
    refine ⟨typed_empty, ?_⟩
    rintro ⟨key, -, there⟩
    cases there
  | some file =>
    have typed := typed_read engine file
    simp only [Configurator.start, Option.map_some, Option.getD_some]
    cases done : migrateDeprecatedSyncStateKeys (readSyncStateFromDisk engine file) with
    | none => exact ⟨typed, fun _ => rfl⟩
    | some migrated =>
      have typed := typed_migrated typed done
      refine ⟨typed, ?_⟩
      intro unwritable
      dsimp only
      rw [save_unwritable typed unwritable]
      rfl

theorem inv_update {engine : RegexEngine} {c : Configurator Data}
    {update : SyncKey × Option (Value Data)} (inv : Inv engine c)
    (fits : Fits update.1 update.2) : Inv engine (c.updateSyncStateForKey update) := by
  have typed := typed_update inv.typed fits.of_class
  refine ⟨typed, ?_⟩
  intro unwritable
  have before := (unwritable_update fits.current).mp unwritable
  change (saveSyncStateToDisk _ c.disk).map _ = _
  rw [save_unwritable typed unwritable]
  exact inv.as_loaded before

theorem inv_step {engine : RegexEngine} {c : Configurator Data} (inv : Inv engine c)
    (event : Event Data) : Inv engine (c.step engine event) := by
  cases event with
  | set setter =>
    have each : ∀ updates : List (SyncKey × Option (Value Data)),
        (∀ update ∈ updates, Fits update.1 update.2) →
        ∀ c, Inv engine c → Inv engine (updates.foldl Configurator.updateSyncStateForKey c) := by
      intro updates
      induction updates with
      | nil => exact fun _ _ inv => inv
      | cons update updates ih =>
        intro fit c inv
        exact ih (fun u member => fit u (.tail _ member)) _ (inv_update inv (fit update (.head _)))
    exact each _ (fun update member => updates_fit member) c inv
  | clearSyncState =>
    refine ⟨typed_empty, ?_⟩
    rintro ⟨key, -, there⟩
    cases there
  | restart disk => exact inv_start engine disk

theorem inv_run (engine : RegexEngine) (disk : Option (SyncStateFile Data))
    (events : List (Event Data)) : Inv engine (Configurator.run engine disk events) := by
  have each : ∀ c : Configurator Data, Inv engine c →
      Inv engine (events.foldl (Configurator.step engine) c) := by
    induction events with
    | nil => exact fun _ inv => inv
    | cons event events ih => exact fun c inv => ih _ (inv_step inv event)
  exact each _ (inv_start engine disk)

/-- A state that no file can hold comes back as it was loaded; any other as far as it can be
    restored from a file. -/
def Survives (env : Environment Data) (c : Configurator Data) : Prop :=
  (Unwritable c.syncState → env.getters c.loaded = env.getters c.syncState) ∧
    (¬ Unwritable c.syncState → Restorable env c.syncState)

theorem preserved_iff (env : Environment Data) (disk : Option (SyncStateFile Data))
    (events : List (Event Data)) :
    (Configurator.run env.engine disk events).Preserved env ↔
      Survives env (Configurator.run env.engine disk events) := by
  have inv := inv_run env.engine disk events
  generalize Configurator.run env.engine disk events = c at inv
  rw [Configurator.Preserved, Configurator.savedAndRead, Survives]
  by_cases unwritable : Unwritable c.syncState
  · rw [save_unwritable inv.typed unwritable, inv.as_loaded unwritable, Option.getD_some]
    constructor
    · exact fun same => ⟨fun _ => same, fun writable => absurd unwritable writable⟩
    · exact fun survives => survives.1 unwritable
  · obtain ⟨file, saved, values⟩ := save_writable inv.typed unwritable c.disk
    rw [saved, Option.map_some, Option.getD_some, read_withPatterns inv.typed unwritable values,
      restorable_iff inv.typed unwritable]
    constructor
    · exact fun restorable => ⟨fun impossible => absurd impossible unwritable, fun _ => restorable⟩
    · exact fun survives => survives.2 unwritable

/-- The server asks for no upload of unknown events, the profile does not. -/
theorem disableUnknownEventUpload_lost :
    let env : Environment Unit :=
      ⟨fun _ => none, ⟨fun _ => none, fun _ => none⟩, .empty, false⟩
    let c := Configurator.run env.engine none [.set (.disableUnknownEventUpload true)]
    ¬ c.Preserved env := by
  intro env c same
  exact absurd (congrArg Getters.disableUnknownEventUpload same) (by decide)

end SantaSettingsRestart
