import Mathlib.Algebra.Group.Nat.Defs
import Mathlib.Tactic.SplitIfs
import Santa.Library.Queries

/-!
CEL rules see an execution only through the variables of an activation. The CEL
compiler and interpreter are a third party's: compiling gives a plan, and a plan
is a program that asks for variables by name. The arguments, the environment,
the effective uid and the working directory are fetched on first use and
remembered; a result is cacheable as long as none of them was fetched.
-/
namespace SantaCel

/-- The values that the v2 enumeration declares; v1 has all but the last. -/
inductive ReturnValue where
  | unspecified
  | allowlist
  | allowlistCompiler
  | blocklist
  | silentBlocklist
  | requireTouchID
  deriving DecidableEq, Repr

/-- What `GetValue` finds out about a result. -/
inductive CelView where
  | bool (value : Bool)
  | int64 (value : Int)
  | error (message : String)
  | other (debugString : String)
  deriving DecidableEq, Repr

structure ExecutableFile where
  signingTime : Option Int
  secureSigningTime : Option Int
  deriving DecidableEq, Repr

structure ExecData where
  args : List String
  envs : List (String × String)
  euid : Nat
  cwd : String
  deriving DecidableEq, Repr

abbrev Plan (Value : Type) := Query String (Option Value) (Except String Value)

/-- The CEL library and the generated descriptors, of either version. -/
structure CelRuntime (Value : Type) where
  view : Value → CelView
  ofNumber : Int → Value
  ofFile : ExecutableFile → Value
  ofArgs : List String → Value
  ofEnvs : List (String × String) → Value
  ofEuid : Nat → Value
  ofCwd : String → Value
  descriptor : Bool → List (String × ReturnValue)
  number : ReturnValue → Int
  compile : Bool → String → Except String (Plan Value)

structure Memoizer (T : Type) where
  func : T
  cache : Option T
  deriving DecidableEq, Repr

def Memoizer.new {T : Type} (func : T) : Memoizer T := ⟨func, none⟩

def Memoizer.call {T : Type} (m : Memoizer T) : T × Memoizer T :=
  match m.cache with
  | some value => (value, m)
  | none => (m.func, { m with cache := some m.func })

def Memoizer.hasValue {T : Type} (m : Memoizer T) : Bool := m.cache.isSome

structure Activation where
  file : Option ExecutableFile
  args : Memoizer (List String)
  envs : Memoizer (List (String × String))
  euid : Memoizer Nat
  cwd : Memoizer String
  deriving DecidableEq, Repr

def createActivation (file : Option ExecutableFile) (e : ExecData) : Activation :=
  ⟨file, .new e.args, .new e.envs, .new e.euid, .new e.cwd⟩

def Activation.isResultCacheable (a : Activation) : Bool :=
  !a.args.hasValue && !a.envs.hasValue && !a.euid.hasValue && !a.cwd.hasValue

section
variable {Value : Type} (rt : CelRuntime Value) (isV2 : Bool)

def findValueByName (name : String) : Option ReturnValue :=
  ((rt.descriptor isV2).find? fun entry => entry.1 = name).map (·.2)

def findValueByNumber (number : Int) : Option ReturnValue :=
  ((rt.descriptor isV2).find? fun entry => rt.number entry.2 = number).map (·.2)

def findValue (name : String) (a : Activation) : Option Value × Activation :=
  match findValueByName rt isV2 name with
  | some value => (some (rt.ofNumber (rt.number value)), a)
  | none =>
      if name = "target" ∧ a.file.isSome then (a.file.map rt.ofFile, a)
      else if name = "args" then
        (some (rt.ofArgs a.args.call.1), { a with args := a.args.call.2 })
      else if name = "envs" then
        (some (rt.ofEnvs a.envs.call.1), { a with envs := a.envs.call.2 })
      else if name = "euid" then
        (some (rt.ofEuid a.euid.call.1), { a with euid := a.euid.call.2 })
      else if name = "cwd" then
        (some (rt.ofCwd a.cwd.call.1), { a with cwd := a.cwd.call.2 })
      else (none, a)

/-- The conversion to int keeps the low 32 bits. -/
def toInt (value : Int) : Int := value.bmod (2 ^ 32)

def checkResult (value : Value) : Except String ReturnValue :=
  match rt.view value with
  | .bool true => .ok .allowlist
  | .bool false => .ok .blocklist
  | .int64 number =>
      match findValueByNumber rt isV2 (toInt number) with
      | some value => .ok value
      | none => .error ("expected 'ReturnValue' result got 'int64: " ++ toString number ++ "'")
  | .error message => .error message
  | .other debugString => .error ("expected 'ReturnValue' result got '" ++ debugString ++ "'")

def evaluate (plan : Plan Value) (a : Activation) : Except String (ReturnValue × Bool) :=
  let (result, a) := plan.evalWith (findValue rt isV2) a
  result.bind fun value =>
    (checkResult rt isV2 value).map fun value => (value, a.isResultCacheable)

def compileAndEvaluate (expr : String) (a : Activation) : Except String (ReturnValue × Bool) :=
  (rt.compile isV2 expr).bind fun plan => evaluate rt isV2 plan a

/-! ### An activation is a table of answers -/

def PerExec (name : String) : Prop :=
  findValueByName rt isV2 name = none ∧
    (name = "args" ∨ name = "envs" ∨ name = "euid" ∨ name = "cwd")

instance (name : String) : Decidable (PerExec rt isV2 name) :=
  inferInstanceAs (Decidable (_ ∧ _))

def variableValue (file : Option ExecutableFile) (e : ExecData) (name : String) : Option Value :=
  match findValueByName rt isV2 name with
  | some value => some (rt.ofNumber (rt.number value))
  | none =>
      if name = "target" ∧ file.isSome then file.map rt.ofFile
      else if name = "args" then some (rt.ofArgs e.args)
      else if name = "envs" then some (rt.ofEnvs e.envs)
      else if name = "euid" then some (rt.ofEuid e.euid)
      else if name = "cwd" then some (rt.ofCwd e.cwd)
      else none

end

/-- The activation of this execution, whatever it has fetched so far. -/
structure Remembers (file : Option ExecutableFile) (e : ExecData) (a : Activation) : Prop where
  file : a.file = file
  args : a.args.func = e.args ∧ ∀ v, a.args.cache = some v → v = e.args
  envs : a.envs.func = e.envs ∧ ∀ v, a.envs.cache = some v → v = e.envs
  euid : a.euid.func = e.euid ∧ ∀ v, a.euid.cache = some v → v = e.euid
  cwd : a.cwd.func = e.cwd ∧ ∀ v, a.cwd.cache = some v → v = e.cwd

theorem call_remembers {T : Type} {m : Memoizer T} {value : T}
    (h : m.func = value ∧ ∀ v, m.cache = some v → v = value) :
    m.call.1 = value ∧ m.call.2.func = value ∧ ∀ v, m.call.2.cache = some v → v = value := by
  unfold Memoizer.call
  cases cached : m.cache with
  | some v =>
    have same := h.2 v cached
    subst same
    exact ⟨rfl, h.1, h.2⟩
  | none =>
    refine ⟨h.1, h.1, ?_⟩
    intro v fetched
    rw [← Option.some.inj fetched]
    exact h.1

theorem call_hasValue {T : Type} (m : Memoizer T) : m.call.2.hasValue = true := by
  unfold Memoizer.call Memoizer.hasValue
  cases cached : m.cache with
  | some v => simp [cached]
  | none => rfl

theorem remembers_new (file : Option ExecutableFile) (e : ExecData) :
    Remembers file e (createActivation file e) := by
  constructor <;> simp [createActivation, Memoizer.new]

section
variable {Value : Type} {rt : CelRuntime Value} {isV2 : Bool}
variable {file : Option ExecutableFile} {e : ExecData}

theorem findValue_value {name : String} {a : Activation} (h : Remembers file e a) :
    (findValue rt isV2 name a).1 = variableValue rt isV2 file e name := by
  have same := h.file
  subst same
  unfold variableValue findValue
  cases findValueByName rt isV2 name with
  | some value => rfl
  | none =>
    simp only [(call_remembers h.args).1, (call_remembers h.envs).1, (call_remembers h.euid).1,
      (call_remembers h.cwd).1]
    split_ifs <;> rfl

theorem findValue_remembers {name : String} {a : Activation} (h : Remembers file e a) :
    Remembers file e (findValue rt isV2 name a).2 := by
  unfold findValue
  cases findValueByName rt isV2 name with
  | some value => exact h
  | none =>
    simp only
    split_ifs
    · exact h
    · exact ⟨h.file, (call_remembers h.args).2, h.envs, h.euid, h.cwd⟩
    · exact ⟨h.file, h.args, (call_remembers h.envs).2, h.euid, h.cwd⟩
    · exact ⟨h.file, h.args, h.envs, (call_remembers h.euid).2, h.cwd⟩
    · exact ⟨h.file, h.args, h.envs, h.euid, (call_remembers h.cwd).2⟩
    · exact h

theorem findValue_cacheable {name : String} {a : Activation} :
    (findValue rt isV2 name a).2.isResultCacheable =
      (a.isResultCacheable && !decide (PerExec rt isV2 name)) := by
  unfold findValue
  cases declared : findValueByName rt isV2 name with
  | some value => simp [PerExec, declared]
  | none =>
    simp only
    split_ifs with target args envs euid cwd
    · simp [PerExec, target.1]
    · subst args
      simp [PerExec, declared, Activation.isResultCacheable, call_hasValue]
    · subst envs
      simp [PerExec, declared, Activation.isResultCacheable, call_hasValue]
    · subst euid
      simp [PerExec, declared, Activation.isResultCacheable, call_hasValue]
    · subst cwd
      simp [PerExec, declared, Activation.isResultCacheable, call_hasValue]
    · simp [PerExec, args, envs, euid, cwd]

theorem asked_cacheable (names : List String) (a : Activation) :
    (names.foldl (fun a name => (findValue rt isV2 name a).2) a).isResultCacheable = true ↔
      a.isResultCacheable = true ∧ ∀ name ∈ names, ¬ PerExec rt isV2 name := by
  induction names generalizing a with
  | nil => simp
  | cons name names ih =>
    rw [List.foldl_cons, ih, findValue_cacheable]
    simp only [Bool.and_eq_true, Bool.not_eq_true', decide_eq_false_iff_not, List.mem_cons,
      forall_eq_or_imp, and_assoc]

def Reads (rt : CelRuntime Value) (isV2 : Bool) (file : Option ExecutableFile) (plan : Plan Value)
    (e : ExecData) : Prop :=
  ∃ name ∈ plan.asked (variableValue rt isV2 file e), PerExec rt isV2 name

instance (plan : Plan Value) : Decidable (Reads rt isV2 file plan e) :=
  inferInstanceAs (Decidable (∃ name ∈ _, _))

/-- An evaluation is the plan's run on the table, with the flag saying what was read. -/
theorem evaluate_eq (plan : Plan Value) :
    evaluate rt isV2 plan (createActivation file e) =
      (plan.eval (variableValue rt isV2 file e)).bind fun value =>
        (checkResult rt isV2 value).map fun value => (value, !decide (Reads rt isV2 file plan e)) := by
  obtain ⟨result, last⟩ := Query.evalWith_eq (variableValue rt isV2 file e) (Remembers file e)
    (fun _ _ h => findValue_value h) (fun _ _ h => findValue_remembers h) (p := plan)
    (remembers_new file e)
  have flag : (plan.evalWith (findValue rt isV2) (createActivation file e)).2.isResultCacheable =
      !decide (Reads rt isV2 file plan e) := by
    rw [Bool.eq_iff_iff, last, asked_cacheable, Bool.not_eq_true', decide_eq_false_iff_not]
    have fresh : (createActivation file e).isResultCacheable = true := rfl
    simp only [fresh, true_and, Reads, not_exists, not_and]
  simp only [evaluate, result, flag]

theorem variableValue_shared {e' : ExecData} {name : String} (shared : ¬ PerExec rt isV2 name) :
    variableValue rt isV2 file e name = variableValue rt isV2 file e' name := by
  unfold variableValue
  cases declared : findValueByName rt isV2 name with
  | some value => rfl
  | none =>
    simp only [PerExec, declared, true_and, not_or] at shared
    simp [shared]

theorem evaluate_flag {plan : Plan Value} {value : ReturnValue} {cacheable : Bool}
    (h : evaluate rt isV2 plan (createActivation file e) = .ok (value, cacheable)) :
    cacheable = !decide (Reads rt isV2 file plan e) := by
  rw [evaluate_eq] at h
  cases result : plan.eval (variableValue rt isV2 file e) with
  | error message =>
    rw [result] at h
    exact nomatch h
  | ok found =>
    rw [result] at h
    cases checked : checkResult rt isV2 found with
    | error message =>
      simp only [Except.bind, checked, Except.map] at h
      exact nomatch h
    | ok number =>
      simp only [Except.bind, checked, Except.map, Except.ok.injEq, Prod.mk.injEq] at h
      exact h.2.symm

theorem reads_alike {plan : Plan Value} (reads : Reads rt isV2 file plan e) (e' : ExecData) :
    Reads rt isV2 file plan e' :=
  Query.asks_alike (fun _ shared => variableValue_shared shared) reads

/-- A plan that reads nothing of one execution reads nothing of any, and gives one result. -/
theorem unread_shared {plan : Plan Value} (unread : ¬ Reads rt isV2 file plan e) (e' : ExecData) :
    ¬ Reads rt isV2 file plan e' ∧
      evaluate rt isV2 plan (createActivation file e) =
        evaluate rt isV2 plan (createActivation file e') := by
  have quiet : ∀ name ∈ plan.asked (variableValue rt isV2 file e), ¬ PerExec rt isV2 name := by
    intro name member perExec
    exact unread ⟨name, member, perExec⟩
  have agree : ∀ name ∈ plan.asked (variableValue rt isV2 file e),
      variableValue rt isV2 file e name = variableValue rt isV2 file e' name :=
    fun name member => variableValue_shared (quiet name member)
  have unread' : ¬ Reads rt isV2 file plan e' := by
    rintro ⟨name, member, perExec⟩
    rw [← Query.asked_congr agree] at member
    exact quiet name member perExec
  refine ⟨unread', ?_⟩
  rw [evaluate_eq, evaluate_eq, Query.eval_congr agree]
  simp [unread, unread']

end

end SantaCel
