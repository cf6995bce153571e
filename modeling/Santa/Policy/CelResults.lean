import Santa.Policy.Cacheability

/-!
The check of CEL results. A result is a bool or the number of a return value, and everything
else is an error. A number of 64 bits is looked up by its low 32 bits.
-/
namespace SantaCelResults
open SantaCel SantaCacheability

variable {Value : Type} (rt : CelRuntime Value) (isV2 : Bool)

structure EnumNumbers : Prop where
  int32 : ∀ value, -2147483648 ≤ rt.number value ∧ rt.number value < 2147483648
  distinct : ∀ value value', rt.number value = rt.number value' → value = value'

def Declared (number : Int) : Prop := ∃ entry ∈ rt.descriptor isV2, rt.number entry.2 = number

instance (number : Int) : Decidable (Declared rt isV2 number) :=
  inferInstanceAs (Decidable (∃ entry ∈ _, _))

def StandsFor : CelView → ReturnValue → Prop
  | .bool true, r => r = .allowlist
  | .bool false, r => r = .blocklist
  | .int64 number, r => Declared rt isV2 number ∧ rt.number r = number
  | .error _, _ => False
  | .other _, _ => False

/-- Only the low 32 bits are the number of a return value. -/
def LooksDeclared : CelView → Prop
  | .int64 number => ¬ (-2147483648 ≤ number ∧ number < 2147483648) ∧ Declared rt isV2 (toInt number)
  | _ => False

instance (view : CelView) : Decidable (LooksDeclared rt isV2 view) := by
  cases view with
  | int64 number => exact inferInstanceAs (Decidable (_ ∧ _))
  | bool value => exact inferInstanceAs (Decidable False)
  | error message => exact inferInstanceAs (Decidable False)
  | other debugString => exact inferInstanceAs (Decidable False)

/-- The evaluation gives the return values that its result stands for, and no others. -/
def CheckedBeforeUse (view : CelView) (status : Except String (ReturnValue × Bool)) : Prop :=
  ∀ r, (∃ cacheable, status = .ok (r, cacheable)) ↔ StandsFor rt isV2 view r

variable {rt : CelRuntime Value} {isV2 : Bool}

theorem toInt_int32 {number : Int} (low : -2147483648 ≤ number) (high : number < 2147483648) :
    toInt number = number := by
  unfold toInt
  exact Int.bmod_eq_of_le (by omega) (by omega)

theorem declared_iff (number : Int) :
    Declared rt isV2 number ↔ ∃ r, findValueByNumber rt isV2 number = some r := by
  unfold Declared findValueByNumber
  rw [← Option.isSome_iff_exists, Option.isSome_map, List.find?_isSome]
  simp

theorem findValueByNumber_number {number : Int} {r : ReturnValue}
    (found : findValueByNumber rt isV2 number = some r) : rt.number r = number := by
  obtain ⟨entry, first, same⟩ := Option.map_eq_some_iff.mp found
  rw [← same]
  simpa using List.find?_some first

theorem checkResult_int64 {value : Value} {number : Int} (view : rt.view value = .int64 number)
    (numbers : EnumNumbers rt) (r : ReturnValue) :
    checkResult rt isV2 value = .ok r ↔
      Declared rt isV2 (toInt number) ∧ rt.number r = toInt number := by
  unfold checkResult
  rw [view, declared_iff]
  cases found : findValueByNumber rt isV2 (toInt number) with
  | none => simp [found]
  | some r' =>
    have here := findValueByNumber_number found
    simp only [found, Except.ok.injEq]
    constructor
    · rintro rfl
      exact ⟨⟨r', rfl⟩, here⟩
    · rintro ⟨-, there⟩
      exact numbers.distinct r' r (here.trans there.symm)

theorem evaluate_ok {plan : Plan Value} {a : Activation} {value : Value}
    (result : (plan.evalWith (findValue rt isV2) a).1 = .ok value) (r : ReturnValue) :
    (∃ cacheable, evaluate rt isV2 plan a = .ok (r, cacheable)) ↔
      checkResult rt isV2 value = .ok r := by
  unfold evaluate
  rw [show plan.evalWith (findValue rt isV2) a =
    (.ok value, (plan.evalWith (findValue rt isV2) a).2) from Prod.ext result rfl]
  simp only [Except.bind]
  cases checkResult rt isV2 value with
  | error message => simp [Except.map]
  | ok r' => simp [Except.map]

/-- A result is checked before its use iff it is no number of more than 32 bits whose low 32 bits
    are declared. -/
theorem checked_before_use_iff (numbers : EnumNumbers rt) {plan : Plan Value} {a : Activation}
    {value : Value} (result : (plan.evalWith (findValue rt isV2) a).1 = .ok value) :
    CheckedBeforeUse rt isV2 (rt.view value) (evaluate rt isV2 plan a) ↔
      ¬ LooksDeclared rt isV2 (rt.view value) := by
  unfold CheckedBeforeUse
  simp only [evaluate_ok result]
  cases view : rt.view value with
  | bool b =>
    refine iff_of_true (fun r => ?_) id
    cases b <;> simp [checkResult, view, StandsFor, eq_comm]
  | error message =>
    refine iff_of_true (fun r => ?_) id
    simp [checkResult, view, StandsFor]
  | other debugString =>
    refine iff_of_true (fun r => ?_) id
    simp [checkResult, view, StandsFor]
  | int64 number =>
    simp only [checkResult_int64 view numbers, StandsFor, LooksDeclared]
    by_cases int32 : -2147483648 ≤ number ∧ number < 2147483648
    · rw [toInt_int32 int32.1 int32.2]
      exact iff_of_true (fun _ => Iff.rfl) fun looks => looks.1 int32
    · constructor
      · rintro checked ⟨-, declared⟩
        obtain ⟨r, found⟩ := (declared_iff _).mp declared
        have here := findValueByNumber_number found
        have there := ((checked r).mp ⟨declared, here⟩).2
        have bounds := numbers.int32 r
        omega
      · intro undeclared r
        refine iff_of_false (fun ok => undeclared ⟨int32, ok.1⟩) fun stands => ?_
        have bounds := numbers.int32 r
        omega

theorem runtime_numbers : EnumNumbers secondArgumentRuntime where
  int32 value := by cases value <;> decide
  distinct value value' same := by cases value <;> cases value' <;> first | rfl | cases same

theorem number_checked :
    CheckedBeforeUse secondArgumentRuntime true (.int64 3)
      (evaluate secondArgumentRuntime true (.done (.ok (.int64 3)))
        (createActivation none ⟨[], [], 0, "/"⟩)) :=
  (@checked_before_use_iff _ _ true runtime_numbers (.done (.ok (.int64 3)))
    (createActivation none ⟨[], [], 0, "/"⟩) (.int64 3) rfl).mpr (by decide)

/-- The low 32 bits of the result are the number of the allowlist. -/
theorem wide_number_allowed :
    ¬ CheckedBeforeUse secondArgumentRuntime true (.int64 4294967297)
      (evaluate secondArgumentRuntime true (.done (.ok (.int64 4294967297)))
        (createActivation none ⟨[], [], 0, "/"⟩)) := by
  intro checked
  have stands := (checked .allowlist).mp ⟨true, by decide⟩
  exact absurd stands.2 (by decide)

end SantaCelResults
