/-!
Items written one after the other, each in a form that can be read off the front of what follows.
The reader that is called until it fails gets the items back, so the bytes of two different lists
are different.
-/
namespace Frames
variable {A B E : Type}

def Reads (read : List B → Except E (A × List B)) (write : A → List B) (ok : A → Prop) : Prop :=
  ∀ a rest, ok a → read (write a ++ rest) = .ok (a, rest)

def writeAll (write : A → List B) (as : List A) : List B := (as.map write).flatten

def readAll (read : List B → Except E (A × List B)) : Nat → List B → List A × Option E
  | 0, _ => ([], none)
  | fuel + 1, input =>
      match read input with
      | .error e => ([], some e)
      | .ok (a, rest) =>
          let (as, e) := readAll read fuel rest
          (a :: as, e)

variable {read : List B → Except E (A × List B)} {write : A → List B} {ok : A → Prop}

theorem writeAll_cons (write : A → List B) (a : A) (as : List A) :
    writeAll write (a :: as) = write a ++ writeAll write as := rfl

theorem readAll_writeAll (reads : Reads read write ok) {e : E} (ends : read [] = .error e)
    {as : List A} (all : ∀ a ∈ as, ok a) {fuel : Nat} (enough : as.length < fuel) :
    readAll read fuel (writeAll write as) = (as, some e) := by
  induction as generalizing fuel with
  | nil =>
    cases fuel with
    | zero => cases enough
    | succ fuel =>
      show readAll read (fuel + 1) [] = _
      rw [readAll, ends]
  | cons a as ih =>
    cases fuel with
    | zero => cases enough
    | succ fuel =>
      have later := ih (fun b member => all b (List.mem_cons_of_mem a member))
        (Nat.lt_of_succ_lt_succ enough)
      rw [writeAll_cons, readAll, reads a _ (all a List.mem_cons_self)]
      simp only [later]

theorem length_le_writeAll (nonempty : ∀ a, write a ≠ []) (as : List A) :
    as.length ≤ (writeAll write as).length := by
  induction as with
  | nil => exact Nat.le_refl 0
  | cons a as ih =>
    have some : 0 < (write a).length := List.length_pos_iff.mpr (nonempty a)
    rw [writeAll_cons, List.length_append, List.length_cons]
    omega

theorem writeAll_injective (reads : Reads read write ok) {e : E} (ends : read [] = .error e)
    {as bs : List A} (all : ∀ a ∈ as, ok a) (all' : ∀ b ∈ bs, ok b)
    (same : writeAll write as = writeAll write bs) : as = bs := by
  have first : readAll read (as.length + bs.length + 1) (writeAll write as) = (as, some e) :=
    readAll_writeAll reads ends all (by omega)
  have second : readAll read (as.length + bs.length + 1) (writeAll write bs) = (bs, some e) :=
    readAll_writeAll reads ends all' (by omega)
  rw [same, second] at first
  exact (congrArg Prod.fst first).symm

end Frames
