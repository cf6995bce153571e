import Santa.Library.Runs
import Santa.FileAccess.WatchItems

/-!
Process policies across reloads. Their patterns are expanded when they are built, and
what was built is installed only if the configuration or the watched data paths have
changed. The calls follow one another; the files and the matches of patterns change in
between.
-/
namespace SantaProcessPolicies
open SantaWatchItems

variable {Config Base Rules : Type}

/-- The matches by which the installed items were built are remembered beside them. -/
structure System (Config Base : Type) where
  configPath : Option String
  embeddedConfig : Option Config
  items : WatchItems Config Base
  files : String → Option Config
  findMatches : FindMatches
  builtAt : FindMatches

def System.start (configPath : Option String) (embeddedConfig : Option Config)
    (files : String → Option Config) (findMatches : FindMatches) : System Config Base :=
  ⟨configPath, embeddedConfig, .new, files, findMatches, findMatches⟩

inductive Label (Config Rules : Type) where
  | setConfig (config : Option Config)
  | setDBRules (rules : Rules)
  | setConfigPath (configPath : Option String)
  | onTimer
  | changeFiles (files : String → Option Config) (findMatches : FindMatches)

def readConfig (s : System Config Base) : Option Config := s.configPath.bind s.files

section
variable [DecidableEq Config]

def updates (parseConfig : Config → Option (ParsedConfig Base)) (s : System Config Base)
    (newConfig : Option Config) : Bool :=
  match buildItems parseConfig s.findMatches newConfig with
  | none => false
  | some (newData, _, _) => needsUpdate s.items newData newConfig

def reload (parseConfig : Config → Option (ParsedConfig Base)) (s : System Config Base)
    (newConfig : Option Config) : System Config Base :=
  { s with
    items := reloadConfig parseConfig s.findMatches s.items newConfig
    builtAt := if updates parseConfig s newConfig then s.findMatches else s.builtAt }

def setConfig (parseConfig : Config → Option (ParsedConfig Base)) (s : System Config Base)
    (config : Option Config) : System Config Base :=
  reload parseConfig { s with configPath := none, embeddedConfig := config } config

def setConfigPath (parseConfig : Config → Option (ParsedConfig Base)) (s : System Config Base)
    (configPath : Option String) : System Config Base :=
  let s := { s with configPath := configPath, embeddedConfig := none }
  reload parseConfig s (readConfig s)

def onTimer (parseConfig : Config → Option (ParsedConfig Base)) (s : System Config Base) :
    System Config Base :=
  reload parseConfig s (s.embeddedConfig.or (readConfig s))

def step (parseConfig : Config → Option (ParsedConfig Base)) (wrap : Rules → Config)
    (s : System Config Base) : Label Config Rules → Option (System Config Base)
  | .setConfig config => some (setConfig parseConfig s config)
  | .setDBRules rules => some (setConfig parseConfig s (some (wrap rules)))
  | .setConfigPath configPath => some (setConfigPath parseConfig s configPath)
  | .onTimer => some (onTimer parseConfig s)
  | .changeFiles files findMatches => some { s with files := files, findMatches := findMatches }

end

def matching (policies : List (ProcessWatchItemPolicy Base)) (target : String) : List Bool :=
  policies.map fun policy => policy.tree.contains target

/-- The installed policies match what policies built now from the current configuration match. -/
def MatchesNow (parseConfig : Config → Option (ParsedConfig Base)) (s : System Config Base) :
    Prop :=
  ∃ data proc rulesLoaded,
    buildItems parseConfig s.findMatches s.items.currentConfig = some (data, proc, rulesLoaded) ∧
      ∀ target, matching s.items.procWatchItems target = matching proc target

/-- The installed policies match as new ones do iff the matches of their patterns cover the same
    targets as before. -/
theorem matchesNow_iff {parseConfig : Config → Option (ParsedConfig Base)}
    {s : System Config Base} (inv : BuiltWith parseConfig s.builtAt s.items) :
    MatchesNow parseConfig s ↔
      ∀ config parsed, s.items.currentConfig = some config → parseConfig config = some parsed →
        ∀ target, matching (buildProc s.builtAt parsed) target =
          matching (buildProc s.findMatches parsed) target := by
  unfold BuiltWith at inv
  unfold MatchesNow
  cases current : s.items.currentConfig with
  | none =>
    rw [current, buildItems, Option.some.injEq, Prod.mk.injEq, Prod.mk.injEq] at inv
    obtain ⟨-, nothing, -⟩ := inv
    constructor
    · intro _ config parsed equal
      cases equal
    · intro _
      refine ⟨.empty, [], 0, rfl, fun target => ?_⟩
      rw [← nothing]
  | some config =>
    rw [current] at inv
    obtain ⟨parsed, parses, items⟩ := Option.map_eq_some_iff.mp inv
    obtain ⟨-, installed, -⟩ : _ ∧ buildProc s.builtAt parsed = s.items.procWatchItems ∧ _ := by
      simpa using items
    have now : buildItems parseConfig s.findMatches (some config) =
        some (.build s.findMatches parsed.dataPolicies, buildProc s.findMatches parsed,
          parsed.rulesLoaded) := by
      rw [buildItems, parses]
      rfl
    rw [now, ← installed]
    constructor
    · rintro ⟨data, proc, rulesLoaded, same, agree⟩ config' parsed' config_eq parses'
      obtain rfl := Option.some.inj config_eq
      obtain rfl := Option.some.inj (parses.symm.trans parses')
      obtain ⟨-, rfl, -⟩ : _ ∧ buildProc s.findMatches parsed = proc ∧ _ := by
        simpa using same
      exact agree
    · intro agree
      exact ⟨_, _, _, rfl, agree config parsed rfl parses⟩

section
variable [DecidableEq Config]

def Refreshed (parseConfig : Config → Option (ParsedConfig Base)) (s : System Config Base) :
    Label Config Rules → Prop
  | .onTimer => MatchesNow parseConfig (onTimer parseConfig s)
  | _ => True

/-- The reload installs what it has built, or the matches that the patterns of the process rules
    had when the installed policies were built cover the same targets as the matches now. -/
def Unchanged (parseConfig : Config → Option (ParsedConfig Base)) (s : System Config Base) :
    Label Config Rules → Prop
  | .onTimer => updates parseConfig s (s.embeddedConfig.or (readConfig s)) = true ∨
      ∀ config parsed, s.items.currentConfig = some config → parseConfig config = some parsed →
        ∀ target, matching (buildProc s.builtAt parsed) target =
          matching (buildProc s.findMatches parsed) target
  | _ => True

/-! ### Every step -/

theorem reload_cases (parseConfig : Config → Option (ParsedConfig Base)) (s : System Config Base)
    (newConfig : Option Config) :
    (updates parseConfig s newConfig = true ∧
      (reload parseConfig s newConfig).builtAt = s.findMatches ∧
      BuiltWith parseConfig s.findMatches (reload parseConfig s newConfig).items) ∨
    (updates parseConfig s newConfig = false ∧ reload parseConfig s newConfig = s) := by
  unfold reload reloadConfig updates
  cases built : buildItems parseConfig s.findMatches newConfig with
  | none => exact .inr ⟨rfl, rfl⟩
  | some items =>
    obtain ⟨newData, newProc, rulesLoaded⟩ := items
    cases differs : needsUpdate s.items newData newConfig with
    | true => exact .inl ⟨differs, by simp [differs], updateCurrentState_built built differs⟩
    | false => exact .inr ⟨differs, by simp [updateCurrentState, differs]⟩

theorem reload_built {parseConfig : Config → Option (ParsedConfig Base)} {s : System Config Base}
    (inv : BuiltWith parseConfig s.builtAt s.items) (newConfig : Option Config) :
    BuiltWith parseConfig (reload parseConfig s newConfig).builtAt
      (reload parseConfig s newConfig).items := by
  rcases reload_cases parseConfig s newConfig with ⟨-, now, built⟩ | ⟨-, same⟩
  · rw [now]
    exact built
  · rw [same]
    exact inv

theorem built_step {parseConfig : Config → Option (ParsedConfig Base)} {wrap : Rules → Config}
    {s t : System Config Base} {l : Label Config Rules}
    (inv : BuiltWith parseConfig s.builtAt s.items) (accepted : step parseConfig wrap s l = some t) :
    BuiltWith parseConfig t.builtAt t.items := by
  cases l with
  | setConfig config =>
    rw [← Option.some.inj accepted]
    exact reload_built inv config
  | setDBRules rules =>
    rw [← Option.some.inj accepted]
    exact reload_built inv (some (wrap rules))
  | setConfigPath configPath =>
    rw [← Option.some.inj accepted]
    exact reload_built inv _
  | onTimer =>
    rw [← Option.some.inj accepted]
    exact reload_built inv _
  | changeFiles files findMatches =>
    rw [← Option.some.inj accepted]
    exact inv

theorem refreshed_iff_unchanged {parseConfig : Config → Option (ParsedConfig Base)}
    {s : System Config Base} (inv : BuiltWith parseConfig s.builtAt s.items)
    (l : Label Config Rules) : Refreshed parseConfig s l ↔ Unchanged parseConfig s l := by
  cases l with
  | onTimer =>
    simp only [Refreshed, Unchanged, onTimer]
    rcases reload_cases parseConfig s (s.embeddedConfig.or (readConfig s)) with
      ⟨installs, -, built⟩ | ⟨skips, same⟩
    · exact iff_of_true ⟨_, _, _, built, fun target => rfl⟩ (.inl installs)
    · rw [same, matchesNow_iff inv, skips]
      simp
  | _ => exact Iff.rfl

/-- Process policies are refreshed by the timer exactly in the runs in which each of its reloads
    installs, or finds the patterns of process rules to cover what they covered. -/
theorem refreshed_iff (parseConfig : Config → Option (ParsedConfig Base)) (wrap : Rules → Config)
    (configPath : Option String) (embeddedConfig : Option Config)
    (files : String → Option Config) (findMatches : FindMatches)
    (ls : List (Label Config Rules)) :
    Runs.Meets (step parseConfig wrap) (Refreshed parseConfig)
        (.start configPath embeddedConfig files findMatches) ls ↔
      Runs.Meets (step parseConfig wrap) (Unchanged parseConfig)
        (.start configPath embeddedConfig files findMatches) ls :=
  Runs.meets_iff (fun _ l inv => refreshed_iff_unchanged inv l)
    (fun _ _ _ inv accepted => built_step inv accepted) (new_built parseConfig findMatches) ls

end

def listed (patterns : List String) : Option (ParsedConfig Unit) :=
  some ⟨[], [((), patterns.map fun pattern => (pattern, .kLiteral))], 1⟩

def inDirectory (found : List String) : FindMatches :=
  fun pattern => if pattern = "/opt/*" then found else [pattern]

/-- A second file appears in the directory of a process rule. -/
theorem appearing_file_not_matched :
    ¬ Runs.Meets (step listed id) (Refreshed listed)
      (.start none none (fun _ => none) (inDirectory ["/opt/a"]))
      [.setConfig (some ["/opt/*"]),
        .changeFiles (fun _ => none) (inDirectory ["/opt/a", "/opt/b"]), .onTimer] := by
  intro meets
  obtain ⟨data, proc, rulesLoaded, built, agree⟩ := (((meets _ rfl).2 _ rfl).2 _ rfl).1
  have rebuilt : buildProc (inDirectory ["/opt/a", "/opt/b"])
      ⟨[], [((), [("/opt/*", .kLiteral)])], 1⟩ = proc := by
    injection built with same
    exact (Prod.mk.inj (Prod.mk.inj same).2).1
  have matched := agree "/opt/b"
  rw [← rebuilt] at matched
  exact absurd matched (by decide +kernel)

end SantaProcessPolicies
