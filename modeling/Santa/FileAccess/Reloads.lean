import Santa.Library.Runs
import Santa.FileAccess.WatchItems

/-!
Threads that set the source of the file access rules and threads of the timer that
reload them. The source is read before the configuration is parsed, and what was
parsed is installed later under the lock. The files change at any time.
-/
namespace SantaReloads
open SantaWatchItems

abbrev Path := String

/-- What a thread does next. The embedded configuration is read without the lock. -/
inductive Stage (Config : Type) where
  | idle
  | readsEmbedded
  | readsPath
  | installs (newConfig : Option Config)

/-- The last call that updated the source. What its argument gave is the configuration, or each
    content of the file since then. -/
structure LastSet (Config : Type) where
  configPath : Option Path
  gave : List (Option Config)

variable {Config Base Rules : Type}

structure System (Config Base : Type) where
  configPath : Option Path
  embeddedConfig : Option Config
  items : WatchItems Config Base
  files : Path → Option Config
  threads : Nat → Stage Config
  lastSet : Option (LastSet Config)

def System.start (configPath : Option Path) (embeddedConfig : Option Config)
    (files : Path → Option Config) : System Config Base :=
  ⟨configPath, embeddedConfig, .new, files, fun _ => .idle, none⟩

inductive Label (Config Rules : Type) where
  | setConfig (thread : Nat) (config : Option Config)
  | setDBRules (thread : Nat) (rules : Rules)
  | setConfigPath (thread : Nat) (configPath : Option Path)
  | onTimer (thread : Nat)
  | readEmbedded (thread : Nat)
  | readPath (thread : Nat)
  | install (thread : Nat) (findMatches : FindMatches)
  | writeFile (path : Path) (contents : Option Config)

def System.goTo (s : System Config Base) (thread : Nat) (stage : Stage Config) :
    System Config Base :=
  { s with threads := fun other => if other = thread then stage else s.threads other }

def readConfigLocked (s : System Config Base) : Option Config :=
  s.configPath.bind s.files

def setEmbedded (s : System Config Base) (thread : Nat) (config : Option Config) :
    System Config Base :=
  { s with
    configPath := none
    embeddedConfig := config
    lastSet := some ⟨none, [config]⟩ }.goTo thread .readsEmbedded

def setPath (s : System Config Base) (thread : Nat) (configPath : Option Path) :
    System Config Base :=
  let s := { s with configPath := configPath, embeddedConfig := none }
  let config := readConfigLocked s
  { s with lastSet := some ⟨configPath, [config]⟩ }.goTo thread (.installs config)

def LastSet.written (path : Path) (contents : Option Config) (set : LastSet Config) :
    LastSet Config :=
  if set.configPath = some path then { set with gave := contents :: set.gave } else set

section
variable [DecidableEq Config]

def step (parseConfig : Config → Option (ParsedConfig Base)) (wrap : Rules → Config)
    (s : System Config Base) : Label Config Rules → Option (System Config Base)
  | .setConfig t config => match s.threads t with
      | .idle => some (setEmbedded s t config)
      | _ => none
  | .setDBRules t rules => match s.threads t with
      | .idle => some (setEmbedded s t (some (wrap rules)))
      | _ => none
  | .setConfigPath t configPath => match s.threads t with
      | .idle => some (setPath s t configPath)
      | _ => none
  | .onTimer t => match s.threads t with
      | .idle => some (s.goTo t (match s.embeddedConfig with
          | some config => .installs (some config)
          | none => .readsPath))
      | _ => none
  | .readEmbedded t => match s.threads t with
      | .readsEmbedded => some (s.goTo t (.installs s.embeddedConfig))
      | _ => none
  | .readPath t => match s.threads t with
      | .readsPath => some (s.goTo t (.installs (readConfigLocked s)))
      | _ => none
  | .install t findMatches => match s.threads t with
      | .installs newConfig => some ({ s with
          items := reloadConfig parseConfig findMatches s.items newConfig }.goTo t .idle)
      | _ => none
  | .writeFile path contents => some { s with
      files := fun other => if other = path then contents else s.files other
      lastSet := s.lastSet.map (.written path contents) }

end

def System.Quiet (s : System Config Base) : Prop := ∀ t, s.threads t = .idle

/-- What is installed is what the last call to set the source gave. -/
def Serialised (parseConfig : Config → Option (ParsedConfig Base)) (s : System Config Base) :
    Prop :=
  s.Quiet → ∀ set, s.lastSet = some set → s.items.currentConfig ∈ set.gave ∧
    ∃ findMatches, BuiltWith parseConfig findMatches s.items

/-- The call that finishes last holds a configuration that the last call to set the source gave. If
    it does not parse, such a configuration is already installed. -/
def FinishesCurrent (parseConfig : Config → Option (ParsedConfig Base)) (s : System Config Base) :
    Label Config Rules → Prop
  | .install t _ => ∀ newConfig set, s.threads t = .installs newConfig →
      (∀ other, other ≠ t → s.threads other = .idle) → s.lastSet = some set →
      (if parses parseConfig newConfig then newConfig else s.items.currentConfig) ∈ set.gave
  | _ => True

/-! ### Where the threads are -/

theorem goTo_busy (s : System Config Base) (t : Nat) {stage : Stage Config}
    (busy : stage ≠ .idle) : ¬ (s.goTo t stage).Quiet := by
  intro quiet
  have idle := quiet t
  simp only [System.goTo, if_true] at idle
  exact busy idle

theorem goTo_idle (s : System Config Base) (t : Nat) :
    (s.goTo t .idle).Quiet ↔ ∀ other, other ≠ t → s.threads other = .idle := by
  simp only [System.Quiet, System.goTo]
  constructor
  · intro quiet other different
    simpa [different] using quiet other
  · intro others other
    split
    · rfl
    · exact others other ‹_›

theorem serialised_of_busy {parseConfig : Config → Option (ParsedConfig Base)}
    {s : System Config Base} (busy : ¬ s.Quiet) : Serialised parseConfig s :=
  fun quiet => absurd quiet busy

theorem written_gave {path : Path} {contents config : Option Config} {set : LastSet Config}
    (given : config ∈ set.gave) : config ∈ (set.written path contents).gave := by
  unfold LastSet.written
  split
  · exact List.mem_cons_of_mem _ given
  · exact given

/-! ### Every step -/

section
variable [DecidableEq Config]

theorem step_install {parseConfig : Config → Option (ParsedConfig Base)} {wrap : Rules → Config}
    {s u : System Config Base} {t : Nat} {findMatches : FindMatches}
    (accepted : step parseConfig wrap s (.install t findMatches) = some u) :
    ∃ newConfig, s.threads t = .installs newConfig ∧
      u = { s with items := reloadConfig parseConfig findMatches s.items newConfig }.goTo t .idle :=
    by
  simp only [step] at accepted
  split at accepted
  · rename_i newConfig held
    exact ⟨newConfig, held, (Option.some.inj accepted).symm⟩
  · cases accepted

theorem built_step {parseConfig : Config → Option (ParsedConfig Base)} {wrap : Rules → Config}
    {s u : System Config Base} {l : Label Config Rules}
    (built : ∃ findMatches, BuiltWith parseConfig findMatches s.items)
    (accepted : step parseConfig wrap s l = some u) :
    ∃ findMatches, BuiltWith parseConfig findMatches u.items := by
  cases l with
  | install t findMatches =>
    obtain ⟨newConfig, -, rfl⟩ := step_install accepted
    exact reloadConfig_built built findMatches newConfig
  | writeFile path contents =>
    rw [← Option.some.inj accepted]
    exact built
  | _ =>
    simp only [step] at accepted
    split at accepted
    · rw [← Option.some.inj accepted]
      exact built
    · cases accepted

theorem serialised_step_iff {parseConfig : Config → Option (ParsedConfig Base)}
    {wrap : Rules → Config} {s u : System Config Base} {l : Label Config Rules}
    (built : ∃ findMatches, BuiltWith parseConfig findMatches s.items)
    (before : Serialised parseConfig s) (accepted : step parseConfig wrap s l = some u) :
    Serialised parseConfig u ↔ FinishesCurrent parseConfig s l := by
  have after := built_step built accepted
  cases l with
  | install t findMatches =>
    obtain ⟨newConfig, held, rfl⟩ := step_install accepted
    constructor
    · intro serialised config set same others last
      obtain rfl : newConfig = config := by rw [held] at same; exact Stage.installs.inj same
      have current := (serialised ((goTo_idle _ t).mpr others) set last).1
      rw [← reloadConfig_currentConfig parseConfig findMatches]
      exact current
    · intro current quiet set last
      have given := current newConfig set held ((goTo_idle _ t).mp quiet) last
      rw [← reloadConfig_currentConfig parseConfig findMatches] at given
      exact ⟨given, after⟩
  | writeFile path contents =>
    rw [← Option.some.inj accepted]
    refine iff_of_true ?_ trivial
    intro quiet set' last'
    obtain ⟨set, last, rfl⟩ := Option.map_eq_some_iff.mp last'
    have given := before quiet set last
    exact ⟨written_gave given.1, given.2⟩
  | onTimer t =>
    simp only [step] at accepted
    split at accepted
    · rw [← Option.some.inj accepted]
      refine iff_of_true (serialised_of_busy (goTo_busy _ t ?_)) trivial
      split <;> nofun
    · cases accepted
  | _ =>
    simp only [step] at accepted
    split at accepted
    · rw [← Option.some.inj accepted]
      exact iff_of_true (serialised_of_busy (goTo_busy _ _ nofun)) trivial
    · cases accepted

/-- In the runs in which each call that finishes last is current, and in no others, what is
    installed is what the last call to set the source gave. -/
theorem serialised_iff (parseConfig : Config → Option (ParsedConfig Base)) (wrap : Rules → Config)
    (configPath : Option Path) (embeddedConfig : Option Config) (files : Path → Option Config)
    (ls : List (Label Config Rules)) :
    Runs.Always (step parseConfig wrap) (Serialised parseConfig)
        (.start configPath embeddedConfig files) ls ↔
      Runs.Meets (step parseConfig wrap) (FinishesCurrent parseConfig)
        (.start configPath embeddedConfig files) ls :=
  Runs.always_iff_meets
    (fun s => (∃ findMatches, BuiltWith parseConfig findMatches s.items) ∧
      Serialised parseConfig s)
    (fun _ inv => inv.2)
    (fun _ _ _ inv current accepted => ⟨built_step inv.1 accepted,
      (serialised_step_iff inv.1 inv.2 accepted).mpr current⟩)
    (fun _ _ _ inv stale accepted serialised =>
      stale ((serialised_step_iff inv.1 inv.2 accepted).mp serialised))
    ⟨⟨fun _ => [], new_built parseConfig _⟩, fun _ _ last => by cases last⟩ ls

end

/-- A configuration that is set is no longer there when it is read back, and what the file gave is
    uninstalled. -/
example : (Runs.run (step (fun rules => some ⟨[], [], rules⟩ : Nat → Option (ParsedConfig Unit)) id)
    (.start none none fun _ => some 2)
    [.setConfig 0 (some 1), .setConfigPath 1 (some "/p"), .install 1 fun _ => [],
      .readEmbedded 0, .install 0 fun _ => []]).map (·.items.currentConfig) = some none := rfl

/-- The timer has read the embedded configuration, and installs it when a later one has been set
    and installed. -/
theorem timer_installs_old :
    ¬ Runs.Always (step (fun rules => some ⟨[], [], rules⟩ : Nat → Option (ParsedConfig Unit)) id)
      (Serialised fun rules => some ⟨[], [], rules⟩) (.start none (some 1) fun _ => none)
      [.onTimer 0, .setConfig 1 (some 2), .readEmbedded 1, .install 1 fun _ => [],
        .install 0 fun _ => []] := by
  intro always
  have serialised := Runs.always_last always rfl
  have others (other : Nat) (different : other ≠ 0) :
      (if other = 1 then Stage.idle else if other = 1 then .installs (some 2) else
        if other = 1 then .readsEmbedded else if other = 0 then .installs (some 1) else .idle) =
          (.idle : Stage Nat) := by
    split
    · rfl
    · rfl
  have current := (serialised ((goTo_idle _ 0).mpr others) _ rfl).1
  exact absurd current (by decide)

/-! ### Calls that do not overlap -/

/-- A call starts when all others have finished, and what it installs parses. -/
def Alone (parseConfig : Config → Option (ParsedConfig Base)) (s : System Config Base) :
    Label Config Rules → Prop
  | .setConfig _ _ | .setDBRules _ _ | .setConfigPath _ _ | .onTimer _ => s.Quiet
  | .install t _ => ∀ newConfig, s.threads t = .installs newConfig →
      parses parseConfig newConfig = true
  | _ => True

def Stage.Current (s : System Config Base) (gave : List (Option Config)) : Stage Config → Prop
  | .idle => True
  | .readsEmbedded => s.embeddedConfig ∈ gave
  | .readsPath => s.embeddedConfig = none
  | .installs newConfig => newConfig ∈ gave

/-- The source gives what the last call to set it gave, and one thread at most is under way. -/
structure Current (s : System Config Base) : Prop where
  single : ∃ t, ∀ other, other ≠ t → s.threads other = .idle
  path : ∀ set, s.lastSet = some set → set.configPath = s.configPath
  source : ∀ set, s.lastSet = some set → s.embeddedConfig.or (readConfigLocked s) ∈ set.gave
  threads : ∀ set t, s.lastSet = some set → (s.threads t).Current s set.gave

theorem current_start (configPath : Option Path) (embeddedConfig : Option Config)
    (files : Path → Option Config) :
    Current (.start configPath embeddedConfig files : System Config Base) where
  single := ⟨0, fun _ _ => rfl⟩
  path _ last := by cases last
  source _ last := by cases last
  threads _ _ last := by cases last

theorem Current.goTo {s : System Config Base} (current : Current s) {t : Nat} {stage : Stage Config}
    (alone : ∀ other, other ≠ t → s.threads other = .idle)
    (next : ∀ set, s.lastSet = some set → stage.Current s set.gave) :
    Current (s.goTo t stage) where
  single := ⟨t, fun other different => by simp [System.goTo, different, alone other different]⟩
  path := current.path
  source := current.source
  threads set other last := by
    simp only [System.goTo]
    split
    · exact next set last
    · rw [alone other ‹_›]
      trivial

theorem Current.others {s : System Config Base} (current : Current s) {t : Nat}
    (busy : s.threads t ≠ .idle) (other : Nat) (different : other ≠ t) :
    s.threads other = .idle := by
  obtain ⟨one, idle⟩ := current.single
  obtain rfl : t = one := Classical.byContradiction fun no => busy (idle t no)
  exact idle other different

theorem current_of_quiet {s : System Config Base} (quiet : s.Quiet) {set : LastSet Config}
    (last : s.lastSet = some set) (path : set.configPath = s.configPath)
    (source : s.embeddedConfig.or (readConfigLocked s) ∈ set.gave) : Current s where
  single := ⟨0, fun other _ => quiet other⟩
  path given same := by
    rw [last] at same
    rw [← Option.some.inj same]
    exact path
  source given same := by
    rw [last] at same
    rw [← Option.some.inj same]
    exact source
  threads given other _ := by
    rw [quiet other]
    trivial

theorem current_setEmbedded {s : System Config Base} (quiet : s.Quiet) (t : Nat)
    (config : Option Config) : Current (setEmbedded s t config) := by
  refine Current.goTo (current_of_quiet ?_ rfl rfl ?_) (fun other _ => quiet other) ?_
  · exact quiet
  · simp [readConfigLocked]
  · intro set last
    rw [← Option.some.inj last]
    exact List.mem_singleton_self config

theorem current_setPath {s : System Config Base} (quiet : s.Quiet) (t : Nat)
    (configPath : Option Path) : Current (setPath s t configPath) := by
  refine Current.goTo (current_of_quiet ?_ rfl rfl ?_) (fun other _ => quiet other) ?_
  · exact quiet
  · simp [readConfigLocked]
  · intro set last
    rw [← Option.some.inj last]
    exact List.mem_singleton_self _

theorem Current.ofItems {s : System Config Base} (current : Current s)
    (items : WatchItems Config Base) : Current { s with items := items } :=
  ⟨current.single, current.path, current.source, current.threads⟩

theorem Current.writeFile {s : System Config Base} (current : Current s) (path : Path)
    (contents : Option Config) :
    Current { s with
      files := fun other => if other = path then contents else s.files other
      lastSet := s.lastSet.map (.written path contents) } where
  single := current.single
  path set' last' := by
    obtain ⟨set, last, rfl⟩ := Option.map_eq_some_iff.mp last'
    rw [← current.path set last]
    unfold LastSet.written
    split <;> rfl
  source set' last' := by
    obtain ⟨set, last, rfl⟩ := Option.map_eq_some_iff.mp last'
    have given := current.source set last
    have same := current.path set last
    simp only [readConfigLocked] at given ⊢
    cases embedded : s.embeddedConfig with
    | some config =>
      rw [embedded] at given
      exact written_gave given
    | none =>
      rw [embedded, Option.none_or] at given
      cases reads : s.configPath with
      | none =>
        rw [reads] at given
        exact written_gave given
      | some read =>
        rw [reads] at given same
        simp only [Option.none_or, Option.bind_some] at given ⊢
        split
        · rename_i here
          subst here
          simp [LastSet.written, same]
        · exact written_gave given
  threads set' t last' := by
    obtain ⟨set, last, rfl⟩ := Option.map_eq_some_iff.mp last'
    have holds := current.threads set t last
    cases stage : s.threads t with
    | idle => trivial
    | readsPath => rw [stage] at holds; exact holds
    | readsEmbedded => rw [stage] at holds; exact written_gave holds
    | installs newConfig => rw [stage] at holds; exact written_gave holds

theorem Current.finishesCurrent {parseConfig : Config → Option (ParsedConfig Base)}
    {s : System Config Base} (current : Current s) {l : Label Config Rules}
    (alone : Alone parseConfig s l) : FinishesCurrent parseConfig s l := by
  cases l with
  | install t findMatches =>
    intro newConfig set stage _ last
    rw [if_pos (alone newConfig stage)]
    have holds := current.threads set t last
    rw [stage] at holds
    exact holds
  | _ => trivial

section
variable [DecidableEq Config]

theorem current_step {parseConfig : Config → Option (ParsedConfig Base)} {wrap : Rules → Config}
    {s u : System Config Base} {l : Label Config Rules} (current : Current s)
    (alone : Alone parseConfig s l) (accepted : step parseConfig wrap s l = some u) :
    Current u := by
  cases l with
  | setConfig t config =>
    simp only [step] at accepted
    split at accepted
    · rw [← Option.some.inj accepted]
      exact current_setEmbedded alone t config
    · cases accepted
  | setDBRules t rules =>
    simp only [step] at accepted
    split at accepted
    · rw [← Option.some.inj accepted]
      exact current_setEmbedded alone t _
    · cases accepted
  | setConfigPath t configPath =>
    simp only [step] at accepted
    split at accepted
    · rw [← Option.some.inj accepted]
      exact current_setPath alone t configPath
    · cases accepted
  | onTimer t =>
    simp only [step] at accepted
    split at accepted
    · rw [← Option.some.inj accepted]
      refine current.goTo (fun other _ => alone other) fun set last => ?_
      have given := current.source set last
      cases embedded : s.embeddedConfig with
      | none => exact embedded
      | some config =>
        rw [embedded] at given
        exact given
    · cases accepted
  | readEmbedded t =>
    simp only [step] at accepted
    split at accepted
    · rename_i stage
      rw [← Option.some.inj accepted]
      refine current.goTo (current.others (by rw [stage]; nofun)) fun set last => ?_
      have holds := current.threads set t last
      rw [stage] at holds
      exact holds
    · cases accepted
  | readPath t =>
    simp only [step] at accepted
    split at accepted
    · rename_i stage
      rw [← Option.some.inj accepted]
      refine current.goTo (current.others (by rw [stage]; nofun)) fun set last => ?_
      have empty : s.embeddedConfig = none := by
        have holds := current.threads set t last
        rw [stage] at holds
        exact holds
      have given := current.source set last
      rw [empty, Option.none_or] at given
      exact given
    · cases accepted
  | install t findMatches =>
    obtain ⟨newConfig, held, rfl⟩ := step_install accepted
    exact current.ofItems (reloadConfig parseConfig findMatches s.items newConfig)
      |>.goTo (current.others (by rw [held]; nofun)) fun _ _ => trivial
  | writeFile path contents =>
    rw [← Option.some.inj accepted]
    exact current.writeFile path contents

/-- Calls that do not overlap are serialised. -/
theorem serialised_of_alone {parseConfig : Config → Option (ParsedConfig Base)}
    {wrap : Rules → Config} (configPath : Option Path) (embeddedConfig : Option Config)
    (files : Path → Option Config) {ls : List (Label Config Rules)}
    (alone : Runs.Meets (step parseConfig wrap) (Alone parseConfig)
      (.start configPath embeddedConfig files) ls) :
    Runs.Always (step parseConfig wrap) (Serialised parseConfig)
      (.start configPath embeddedConfig files) ls := by
  rw [serialised_iff]
  exact Runs.meets_of_meets (fun _ _ current alone => current.finishesCurrent alone)
    (fun _ _ _ => current_step) (current_start configPath embeddedConfig files) alone

end

end SantaReloads
