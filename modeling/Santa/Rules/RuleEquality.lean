import Santa.Rules.Rule

/-!
Equality and hash of rule objects. `isEqual` is asked of an object, so a heap
says which addresses hold a rule; a rule that was decoded without an identifier
has none. Only the receiver's missing CEL expression is treated as a match. The
hash of a string is a parameter.
-/
namespace SantaRuleEquality
open SantaRule

structure RuleFields where
  identifier : Option String
  state : SNTRuleState
  type : SNTRuleType
  celExpr : Option String
  deriving DecidableEq, Repr

/-- The rule at an address, if the object there is one. -/
abbrev Heap := Nat → Option RuleFields

/-- A message to nil answers NO, and no string equals nil. -/
def stringIsEqual : Option String → Option String → Bool
  | some s, some t => s == t
  | _, _ => false

def fieldsEqual (self o : RuleFields) : Bool :=
  stringIsEqual self.identifier o.identifier && self.state.raw == o.state.raw &&
    self.type.raw == o.type.raw &&
    (self.celExpr == none || stringIsEqual self.celExpr o.celExpr)

def isEqual (heap : Heap) (self other : Nat) : Bool :=
  if other = self then true
  else match heap self, heap other with
    | some s, some o => fieldsEqual s o
    | _, _ => false

section Hash
variable (stringHash : String → UInt64)

/-- The hash of nil is zero. -/
def hashOf : Option String → UInt64
  | some s => stringHash s
  | none => 0

/-- The expression is added twice. -/
def hash (r : RuleFields) : UInt64 :=
  [hashOf stringHash r.identifier, UInt64.ofInt r.state.raw, UInt64.ofInt r.type.raw,
    hashOf stringHash r.celExpr, hashOf stringHash r.celExpr].foldl
    (fun result part => 31 * result + part) 1

end Hash

/-! ### What equality compares -/

def SameTarget (a b : RuleFields) : Prop :=
  a.identifier.isSome ∧ a.identifier = b.identifier ∧ a.state.raw = b.state.raw ∧
    a.type.raw = b.type.raw

instance (a b : RuleFields) : Decidable (SameTarget a b) := by
  unfold SameTarget
  infer_instance

theorem SameTarget.symm {a b : RuleFields} (same : SameTarget a b) : SameTarget b a := by
  obtain ⟨named, ids, states, types⟩ := same
  exact ⟨ids ▸ named, ids.symm, states.symm, types.symm⟩

theorem SameTarget.trans {a b c : RuleFields} (first : SameTarget a b) (second : SameTarget b c) :
    SameTarget a c :=
  ⟨first.1, first.2.1.trans second.2.1, first.2.2.1.trans second.2.2.1,
    first.2.2.2.trans second.2.2.2⟩

theorem stringIsEqual_iff (s t : Option String) :
    stringIsEqual s t = true ↔ s.isSome ∧ s = t := by
  cases s <;> cases t <;> simp [stringIsEqual]

theorem fieldsEqual_iff (a b : RuleFields) :
    fieldsEqual a b = true ↔ SameTarget a b ∧ (a.celExpr = none ∨ a.celExpr = b.celExpr) := by
  have expressions : (a.celExpr = none ∨ (a.celExpr.isSome ∧ a.celExpr = b.celExpr)) ↔
      (a.celExpr = none ∨ a.celExpr = b.celExpr) := by
    cases a.celExpr <;> simp
  simp only [fieldsEqual, Bool.and_eq_true, Bool.or_eq_true, beq_iff_eq, stringIsEqual_iff,
    expressions, SameTarget]
  constructor
  · rintro ⟨⟨⟨⟨named, ids⟩, states⟩, types⟩, exprs⟩
    exact ⟨⟨named, ids, states, types⟩, exprs⟩
  · rintro ⟨⟨named, ids, states, types⟩, exprs⟩
    exact ⟨⟨⟨⟨named, ids⟩, states⟩, types⟩, exprs⟩

theorem isEqual_self (heap : Heap) (p : Nat) : isEqual heap p p = true := by
  simp [isEqual]

theorem isEqual_iff {heap : Heap} {p q : Nat} {a b : RuleFields} (first : heap p = some a)
    (second : heap q = some b) : isEqual heap p q = true ↔
      q = p ∨ (SameTarget a b ∧ (a.celExpr = none ∨ a.celExpr = b.celExpr)) := by
  unfold isEqual
  by_cases same : q = p
  · rw [if_pos same]
    exact iff_of_true rfl (Or.inl same)
  · rw [if_neg same, first, second]
    simp only [same, false_or]
    exact fieldsEqual_iff a b

/-- A receiver without an expression equals whatever its target does, so a missing expression
    can only spread to the left of a chain. -/
theorem isEqual_trans {heap : Heap} {p q r : Nat} {a b c : RuleFields} (hp : heap p = some a)
    (hq : heap q = some b) (hr : heap r = some c) (first : isEqual heap p q = true)
    (second : isEqual heap q r = true) : isEqual heap p r = true := by
  rw [isEqual_iff hp hr]
  rcases (isEqual_iff hp hq).mp first with same | ⟨target, expr⟩
  · subst same
    exact (isEqual_iff hp hr).mp second
  rcases (isEqual_iff hq hr).mp second with same | ⟨target', expr'⟩
  · subst same
    exact (isEqual_iff hp hr).mp first
  refine Or.inr ⟨target.trans target', ?_⟩
  rcases expr with missing | same
  · exact Or.inl missing
  · rcases expr' with missing | same'
    · exact Or.inl (same.trans missing)
    · exact Or.inr (same.trans same')

/-! ### When a pair of rules is compared soundly -/

def Differ (a b : RuleFields) : Prop :=
  a.identifier ≠ b.identifier ∨ a.state.raw ≠ b.state.raw ∨ a.type.raw ≠ b.type.raw ∨
    a.celExpr ≠ b.celExpr

/-- Symmetry, agreement with the hash, and no equality of rules that differ. -/
def SoundPair (stringHash : String → UInt64) (heap : Heap) (p q : Nat) (a b : RuleFields) :
    Prop :=
  isEqual heap p q = isEqual heap q p ∧
    (isEqual heap p q = true → hash stringHash a = hash stringHash b) ∧
    (Differ a b → isEqual heap p q = false)

def OneExpression (p q : Nat) (a b : RuleFields) : Prop :=
  p ≠ q ∧ SameTarget a b ∧ a.celExpr.isSome ≠ b.celExpr.isSome

instance (p q : Nat) (a b : RuleFields) : Decidable (OneExpression p q a b) := by
  unfold OneExpression
  infer_instance

theorem hash_congr (stringHash : String → UInt64) {a b : RuleFields} (target : SameTarget a b)
    (exprs : a.celExpr = b.celExpr) : hash stringHash a = hash stringHash b := by
  obtain ⟨-, ids, states, types⟩ := target
  simp only [hash, ids, states, types, exprs]

section Pairs
variable {heap : Heap} {p q : Nat} {a b : RuleFields}

theorem isEqual_exact (hp : heap p = some a) (hq : heap q = some b)
    (fine : ¬ OneExpression p q a b) :
    isEqual heap p q = true ↔ p = q ∨ (SameTarget a b ∧ a.celExpr = b.celExpr) := by
  rw [isEqual_iff hp hq, eq_comm]
  constructor
  · rintro (same | ⟨target, missing | exprs⟩)
    · exact Or.inl same
    · by_cases same : p = q
      · exact Or.inl same
      · have alike : a.celExpr.isSome = b.celExpr.isSome :=
          Decidable.not_not.mp fun other => fine ⟨same, target, other⟩
        rw [missing] at alike ⊢
        refine Or.inr ⟨target, (Option.not_isSome_iff_eq_none.mp ?_).symm⟩
        simp [← alike]
    · exact Or.inr ⟨target, exprs⟩
  · rintro (same | ⟨target, exprs⟩)
    · exact Or.inl same
    · exact Or.inr ⟨target, Or.inr exprs⟩

theorem OneExpression.symm (h : OneExpression p q a b) : OneExpression q p b a :=
  ⟨h.1.symm, h.2.1.symm, h.2.2.symm⟩

theorem sound_of_fine (stringHash : String → UInt64) (hp : heap p = some a)
    (hq : heap q = some b) (fine : ¬ OneExpression p q a b) :
    SoundPair stringHash heap p q a b := by
  have forth := isEqual_exact hp hq fine
  have back := isEqual_exact hq hp fun h => fine h.symm
  refine ⟨?_, ?_, ?_⟩
  · rw [Bool.eq_iff_iff, forth, back]
    constructor
    · exact Or.imp Eq.symm fun h => ⟨h.1.symm, h.2.symm⟩
    · exact Or.imp Eq.symm fun h => ⟨h.1.symm, h.2.symm⟩
  · intro equal
    rcases forth.mp equal with same | ⟨target, exprs⟩
    · subst same
      rw [hp, Option.some.injEq] at hq
      rw [hq]
    · exact hash_congr stringHash target exprs
  · intro differ
    rw [Bool.eq_false_iff, ne_eq, forth]
    rintro (same | ⟨⟨-, ids, states, types⟩, exprs⟩)
    · subst same
      rw [hp, Option.some.injEq] at hq
      subst hq
      simp [Differ] at differ
    · simp [Differ, ids, states, types, exprs] at differ

theorem asymmetric_of_one (hp : heap p = some a) (hq : heap q = some b)
    (one : OneExpression p q a b) : isEqual heap p q ≠ isEqual heap q p := by
  obtain ⟨apart, target, exprs⟩ := one
  have forth := isEqual_iff hp hq
  have back := isEqual_iff hq hp
  rw [ne_eq, Bool.eq_iff_iff, forth, back]
  have apart' : q ≠ p := apart.symm
  cases first : a.celExpr <;> cases second : b.celExpr <;>
    simp_all [SameTarget.symm]

end Pairs

/-- Every rule equals itself, equality passes along chains of three rules, and a pair of rules
    is compared soundly unless exactly one of the two has an expression. -/
theorem rule_equality_sound_iff (stringHash : String → UInt64) (heap : Heap) :
    (∀ p, isEqual heap p p = true) ∧
    (∀ p q r a b c, heap p = some a → heap q = some b → heap r = some c →
      isEqual heap p q = true → isEqual heap q r = true → isEqual heap p r = true) ∧
    ∀ p q a b, heap p = some a → heap q = some b →
      (SoundPair stringHash heap p q a b ↔ ¬ OneExpression p q a b) := by
  refine ⟨isEqual_self heap, ?_, ?_⟩
  · intro p q r a b c hp hq hr first second
    exact isEqual_trans hp hq hr first second
  · intro p q a b hp hq
    constructor
    · exact fun sound one => asymmetric_of_one hp hq one sound.1
    · exact sound_of_fine stringHash hp hq

def allowed : RuleFields := ⟨some "EQHXZ8M8AV", .allow, .teamID, none⟩

def allowedByExpression : RuleFields := ⟨some "EQHXZ8M8AV", .allow, .teamID, some "true"⟩

def twoRules : Heap
  | 0 => some allowed
  | 1 => some allowedByExpression
  | _ => none

def threeAlike : Heap
  | 0 | 1 | 2 => some allowed
  | _ => none

theorem allowed_pair_sound :
    isEqual threeAlike 0 2 = true ∧
      (SoundPair (fun s => s.utf8ByteSize.toUInt64) threeAlike 0 1 allowed allowed ↔
        ¬ OneExpression 0 1 allowed allowed) :=
  have sound := rule_equality_sound_iff (fun s => s.utf8ByteSize.toUInt64) threeAlike
  ⟨sound.2.1 0 1 2 allowed allowed allowed rfl rfl rfl (by decide) (by decide),
    sound.2.2 0 1 allowed allowed rfl rfl⟩

/-- The plain rule equals the other, which differs, does not equal it and hashes apart. -/
theorem missing_expression_equal :
    isEqual twoRules 0 1 = true ∧ isEqual twoRules 1 0 = false ∧
      Differ allowed allowedByExpression ∧
      hash (fun s => s.utf8ByteSize.toUInt64) allowed ≠
        hash (fun s => s.utf8ByteSize.toUInt64) allowedByExpression := by
  refine ⟨by decide, by decide, ?_, by decide⟩
  exact Or.inr (Or.inr (Or.inr (by decide)))

end SantaRuleEquality
