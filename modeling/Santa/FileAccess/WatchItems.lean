import Santa.Library.Deltas
import Mathlib.Data.Finset.Dedup
import Mathlib.Data.Finset.Card

/-!
The file access rules that are installed. A configuration is parsed and its paths
are expanded before the lock is taken; what has been built is installed if the
configuration or the set of watched paths has changed. The parser and the expansion
of patterns in the current file system are parameters. A prefix tree is given by what
is inserted into it; a later insertion of a string replaces an earlier one.
-/
namespace SantaWatchItems
open Deltas

inductive WatchItemPathType where
  | kPrefix
  | kLiteral
  deriving DecidableEq, Repr

abbrev PairPathAndType := String × WatchItemPathType

/-! ### Prefix trees -/

abbrev PrefixTree := List PairPathAndType

def PATH_MAX : Nat := 1024

/-- Strings that are empty or too long are not inserted. -/
def insertable (pair : PairPathAndType) : Bool :=
  pair.1 ≠ "" && pair.1.utf8ByteSize ≤ PATH_MAX

def PrefixTree.nodeType (tree : PrefixTree) (path : List Char) : Option WatchItemPathType :=
  ((tree.filter insertable).reverse.find? fun pair => pair.1.toList = path).map Prod.snd

def PrefixTree.contains (tree : PrefixTree) (input : String) : Bool :=
  input.toList.inits.any fun front =>
    tree.nodeType front = some .kPrefix ||
      (front = input.toList && tree.nodeType front = some .kLiteral)

/-! ### Policies -/

abbrev FindMatches := String → List String

structure DataWatchItemPolicy (Base : Type) where
  base : Base
  path : String
  pathType : WatchItemPathType

structure ProcessWatchItemPolicy (Base : Type) where
  base : Base
  pathTypePairs : List PairPathAndType
  tree : PrefixTree

variable {Config Base : Type}

def ProcessWatchItemPolicy.new (findMatches : FindMatches) (base : Base)
    (pathTypePairs : List PairPathAndType) : ProcessWatchItemPolicy Base :=
  ⟨base, pathTypePairs, pathTypePairs.flatMap fun pair =>
    (findMatches pair.1).map fun found => (found, pair.2)⟩

structure DataWatchItems (Base : Type) where
  tree : List (String × DataWatchItemPolicy Base)
  paths : Finset PairPathAndType

def DataWatchItems.empty : DataWatchItems Base := ⟨[], ∅⟩

def DataWatchItems.build (findMatches : FindMatches) (policies : List (DataWatchItemPolicy Base)) :
    DataWatchItems Base :=
  let tree := policies.flatMap fun item => (findMatches item.path).map fun found => (found, item)
  ⟨tree, (tree.map fun entry => (entry.1, entry.2.pathType)).toFinset⟩

def DataWatchItems.count (items : DataWatchItems Base) : Nat := items.paths.card

structure ParsedConfig (Base : Type) where
  dataPolicies : List (DataWatchItemPolicy Base)
  procPolicies : List (Base × List PairPathAndType)
  rulesLoaded : Nat

def buildProc (findMatches : FindMatches) (parsed : ParsedConfig Base) :
    List (ProcessWatchItemPolicy Base) :=
  parsed.procPolicies.map fun (base, pairs) => .new findMatches base pairs

def buildItems (parseConfig : Config → Option (ParsedConfig Base)) (findMatches : FindMatches) :
    Option Config → Option (DataWatchItems Base × List (ProcessWatchItemPolicy Base) × Nat)
  | none => some (.empty, [], 0)
  | some config => (parseConfig config).map fun parsed =>
      (.build findMatches parsed.dataPolicies, buildProc findMatches parsed, parsed.rulesLoaded)

/-! ### Installation -/

/-- The queue holds the changes of paths that the client is to be told of. -/
structure WatchItems (Config Base : Type) where
  currentConfig : Option Config
  dataWatchItems : DataWatchItems Base
  procWatchItems : List (ProcessWatchItemPolicy Base)
  rulesLoaded : Nat
  queue : List (Delta PairPathAndType)

def WatchItems.new : WatchItems Config Base := ⟨none, .empty, [], 0, []⟩

def parses (parseConfig : Config → Option (ParsedConfig Base)) (newConfig : Option Config) :
    Bool :=
  newConfig.all fun config => (parseConfig config).isSome

theorem buildItems_isSome (parseConfig : Config → Option (ParsedConfig Base))
    (findMatches : FindMatches) (newConfig : Option Config) :
    (buildItems parseConfig findMatches newConfig).isSome = parses parseConfig newConfig := by
  cases newConfig with
  | none => rfl
  | some config => simp [buildItems, parses]

def BuiltWith (parseConfig : Config → Option (ParsedConfig Base)) (findMatches : FindMatches)
    (w : WatchItems Config Base) : Prop :=
  buildItems parseConfig findMatches w.currentConfig =
    some (w.dataWatchItems, w.procWatchItems, w.rulesLoaded)

theorem new_built (parseConfig : Config → Option (ParsedConfig Base)) (findMatches : FindMatches) :
    BuiltWith parseConfig findMatches (.new : WatchItems Config Base) := rfl

section
variable [DecidableEq Config]

def needsUpdate (w : WatchItems Config Base) (newData : DataWatchItems Base)
    (newConfig : Option Config) : Bool :=
  (w.currentConfig.isSome && newConfig.isNone) || (w.currentConfig.isNone && newConfig.isSome) ||
    w.dataWatchItems.paths ≠ newData.paths || (newConfig.isSome && w.currentConfig ≠ newConfig)

def updateCurrentState (w : WatchItems Config Base) (newData : DataWatchItems Base)
    (newProc : List (ProcessWatchItemPolicy Base)) (newConfig : Option Config)
    (rulesLoaded : Nat) : WatchItems Config Base :=
  if needsUpdate w newData newConfig then
    ⟨newConfig, newData, newProc, if newConfig.isSome then rulesLoaded else 0,
      w.queue ++ [.between w.dataWatchItems.paths newData.paths]⟩
  else w

def reloadConfig (parseConfig : Config → Option (ParsedConfig Base)) (findMatches : FindMatches)
    (w : WatchItems Config Base) (newConfig : Option Config) : WatchItems Config Base :=
  match buildItems parseConfig findMatches newConfig with
  | none => w
  | some (newData, newProc, rulesLoaded) =>
      updateCurrentState w newData newProc newConfig rulesLoaded

theorem updateCurrentState_built {parseConfig : Config → Option (ParsedConfig Base)}
    {findMatches : FindMatches} {newConfig : Option Config} {newData : DataWatchItems Base}
    {newProc : List (ProcessWatchItemPolicy Base)} {rulesLoaded : Nat} {w : WatchItems Config Base}
    (built : buildItems parseConfig findMatches newConfig = some (newData, newProc, rulesLoaded))
    (updates : needsUpdate w newData newConfig = true) :
    BuiltWith parseConfig findMatches
      (updateCurrentState w newData newProc newConfig rulesLoaded) := by
  rw [updateCurrentState, if_pos updates]
  cases newConfig with
  | none =>
    obtain ⟨rfl, rfl, rfl⟩ : DataWatchItems.empty = newData ∧ [] = newProc ∧ 0 = rulesLoaded := by
      simpa [buildItems] using built
    rfl
  | some config => exact built

theorem reloadConfig_cases (parseConfig : Config → Option (ParsedConfig Base))
    (findMatches : FindMatches) (w : WatchItems Config Base) (newConfig : Option Config) :
    reloadConfig parseConfig findMatches w newConfig = w ∨
      ((reloadConfig parseConfig findMatches w newConfig).currentConfig = newConfig ∧
        BuiltWith parseConfig findMatches (reloadConfig parseConfig findMatches w newConfig) ∧
        (reloadConfig parseConfig findMatches w newConfig).queue = w.queue ++
          [.between w.dataWatchItems.paths
            (reloadConfig parseConfig findMatches w newConfig).dataWatchItems.paths]) := by
  unfold reloadConfig
  cases built : buildItems parseConfig findMatches newConfig with
  | none => exact .inl rfl
  | some items =>
    obtain ⟨newData, newProc, rulesLoaded⟩ := items
    by_cases updates : needsUpdate w newData newConfig = true
    · refine .inr ⟨?_, updateCurrentState_built built updates, ?_⟩
      · simp only [updateCurrentState, if_pos updates]
      · simp only [updateCurrentState, if_pos updates]
    · exact .inl (if_neg updates)

theorem reloadConfig_built {parseConfig : Config → Option (ParsedConfig Base)}
    {w : WatchItems Config Base} (built : ∃ findMatches, BuiltWith parseConfig findMatches w)
    (findMatches : FindMatches) (newConfig : Option Config) :
    ∃ findMatches', BuiltWith parseConfig findMatches'
      (reloadConfig parseConfig findMatches w newConfig) := by
  rcases reloadConfig_cases parseConfig findMatches w newConfig with same | ⟨-, installed, -⟩
  · rw [same]
    exact built
  · exact ⟨findMatches, installed⟩

theorem updateCurrentState_currentConfig (w : WatchItems Config Base)
    (newData : DataWatchItems Base) (newProc : List (ProcessWatchItemPolicy Base))
    (newConfig : Option Config) (rulesLoaded : Nat) :
    (updateCurrentState w newData newProc newConfig rulesLoaded).currentConfig = newConfig := by
  simp only [updateCurrentState]
  split
  · rfl
  · rename_i same
    cases current : w.currentConfig with
    | none => cases newConfig with
      | none => rfl
      | some config => simp [needsUpdate, current] at same
    | some old => cases newConfig with
      | none => simp [needsUpdate, current] at same
      | some config =>
        have equal : w.dataWatchItems.paths = newData.paths ∧ old = config := by
          simpa [needsUpdate, current] using same
        rw [equal.2]

theorem reloadConfig_currentConfig (parseConfig : Config → Option (ParsedConfig Base))
    (findMatches : FindMatches) (w : WatchItems Config Base) (newConfig : Option Config) :
    (reloadConfig parseConfig findMatches w newConfig).currentConfig =
      if parses parseConfig newConfig then newConfig else w.currentConfig := by
  rw [← buildItems_isSome parseConfig findMatches]
  unfold reloadConfig
  cases buildItems parseConfig findMatches newConfig with
  | none => rfl
  | some items => exact updateCurrentState_currentConfig w _ _ newConfig _

end

end SantaWatchItems
