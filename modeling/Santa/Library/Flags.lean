/-!
Sets of flags packed into a word. `Has flags required` is the usual test that
masks the word and compares; it is read here bit by bit, so that it passes
through unions and through clearing of other flags.
-/
namespace Flags
variable {w : Nat}

def Has (flags required : BitVec w) : Prop := flags &&& required = required

instance (flags required : BitVec w) : Decidable (Has flags required) :=
  inferInstanceAs (Decidable (_ = _))

def union : List (BitVec w) → BitVec w
  | [] => 0#w
  | m :: ms => m ||| union ms

theorem has_iff_bits (flags required : BitVec w) :
    Has flags required ↔ ∀ i, required.getLsbD i = true → flags.getLsbD i = true := by
  constructor
  · intro has i bit
    rw [← has, BitVec.getLsbD_and, Bool.and_eq_true] at bit
    exact bit.1
  · intro bits
    refine BitVec.eq_of_getLsbD_eq fun i _ => ?_
    rw [BitVec.getLsbD_and]
    cases bit : required.getLsbD i with
    | false => simp
    | true => simp [bits i bit]

theorem has_zero (flags : BitVec w) : Has flags 0#w := by
  simp [Has]

theorem has_or_iff (flags a b : BitVec w) : Has flags (a ||| b) ↔ Has flags a ∧ Has flags b := by
  simp only [has_iff_bits, BitVec.getLsbD_or, Bool.or_eq_true]
  constructor
  · exact fun h => ⟨fun i bit => h i (Or.inl bit), fun i bit => h i (Or.inr bit)⟩
  · exact fun h i bit => bit.elim (h.1 i) (h.2 i)

theorem has_union_iff (flags : BitVec w) (ms : List (BitVec w)) :
    Has flags (union ms) ↔ ∀ m ∈ ms, Has flags m := by
  induction ms with
  | nil => simp [union, has_zero]
  | cons m ms ih => simp [union, has_or_iff, ih]

theorem union_has {m : BitVec w} {ms : List (BitVec w)} (member : m ∈ ms) : Has (union ms) m :=
  (has_union_iff (union ms) ms).mp (by simp [Has]) m member

theorem has_or_left {flags required : BitVec w} (more : BitVec w) (has : Has flags required) :
    Has (flags ||| more) required := by
  rw [has_iff_bits] at has ⊢
  intro i bit
  rw [BitVec.getLsbD_or, has i bit, Bool.true_or]

theorem has_or_right (flags : BitVec w) {more required : BitVec w} (has : Has more required) :
    Has (flags ||| more) required := by
  rw [BitVec.or_comm]
  exact has_or_left flags has

theorem has_clear {flags required gone : BitVec w} (apart : required &&& gone = 0#w)
    (has : Has flags required) : Has (flags &&& ~~~gone) required := by
  unfold Has at has ⊢
  have kept : ~~~gone &&& required = required := by
    refine BitVec.eq_of_getLsbD_eq fun i below => ?_
    have bit := congrArg (fun word => word.getLsbD i) apart
    simp only [BitVec.getLsbD_and, BitVec.getLsbD_zero] at bit
    rw [BitVec.getLsbD_and, BitVec.getLsbD_not]
    cases first : required.getLsbD i with
    | false => simp
    | true => simp_all
  rw [BitVec.and_assoc, kept, has]

theorem foldl_union (ms : List (BitVec w)) (flags : BitVec w) :
    ms.foldl (fun flags m => flags ||| m) flags = flags ||| union ms := by
  induction ms generalizing flags with
  | nil => simp [union]
  | cons m ms ih => rw [List.foldl_cons, ih, union, BitVec.or_assoc]

end Flags
