/-!
Programs that learn about the world only by asking questions. A program is a
tree: it is done, or it asks a question and goes on with the answer. Run against
a table of answers it asks a definite list of questions, and two tables that
agree on these give the same run. A stateful answerer whose answers do not
depend on its state gives that run too, and sees just these questions.
-/
inductive Query (Q A R : Type) where
  | done (r : R)
  | ask (q : Q) (k : A → Query Q A R)

namespace Query
variable {Q A R S : Type}

def eval (answer : Q → A) : Query Q A R → R
  | .done r => r
  | .ask q k => (k (answer q)).eval answer

def asked (answer : Q → A) : Query Q A R → List Q
  | .done _ => []
  | .ask q k => q :: (k (answer q)).asked answer

def evalWith (answer : Q → S → A × S) : Query Q A R → S → R × S
  | .done r, s => (r, s)
  | .ask q k, s => (k (answer q s).1).evalWith answer (answer q s).2

theorem eval_congr {f g : Q → A} {p : Query Q A R} (agree : ∀ q ∈ p.asked f, f q = g q) :
    p.eval f = p.eval g := by
  induction p with
  | done r => rfl
  | ask q k ih =>
    have here : f q = g q := agree q (by simp [asked])
    have later := ih (f q) fun q' member => agree q' (by simp [asked, member])
    simp only [eval, ← here, later]

theorem asked_congr {f g : Q → A} {p : Query Q A R} (agree : ∀ q ∈ p.asked f, f q = g q) :
    p.asked f = p.asked g := by
  induction p with
  | done r => rfl
  | ask q k ih =>
    have here : f q = g q := agree q (by simp [asked])
    have later := ih (f q) fun q' member => agree q' (by simp [asked, member])
    simp only [asked, ← here, later]

theorem asks_alike {f g : Q → A} {differs : Q → Prop} {p : Query Q A R}
    (same : ∀ q, ¬ differs q → f q = g q) (asks : ∃ q ∈ p.asked f, differs q) :
    ∃ q ∈ p.asked g, differs q := by
  by_cases quiet : ∀ q ∈ p.asked g, ¬ differs q
  · have equal : p.asked g = p.asked f :=
      asked_congr fun q member => (same q (quiet q member)).symm
    obtain ⟨q, member, different⟩ := asks
    rw [← equal] at member
    exact absurd different (quiet q member)
  · simpa using quiet

theorem evalWith_eq {answer : Q → S → A × S} (table : Q → A) (inv : S → Prop)
    (value : ∀ q s, inv s → (answer q s).1 = table q)
    (keep : ∀ q s, inv s → inv (answer q s).2) {p : Query Q A R} {s : S} (start : inv s) :
    (p.evalWith answer s).1 = p.eval table ∧
      (p.evalWith answer s).2 = (p.asked table).foldl (fun s q => (answer q s).2) s := by
  induction p generalizing s with
  | done r => exact ⟨rfl, rfl⟩
  | ask q k ih =>
    simp only [evalWith, eval, asked, List.foldl_cons, value q s start]
    exact ih (table q) (keep q s start)

end Query
