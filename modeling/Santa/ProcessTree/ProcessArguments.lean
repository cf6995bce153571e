import Mathlib.Algebra.Group.Nat.Defs
import Mathlib.Data.List.TakeWhile
import Santa.Library.Delimited

/-!
The arguments of a running process, from the kernel's copy of its string area: the count of
arguments, the path of the executable, padding, then the arguments and what follows them,
each ended by a NUL. The process may run another program between the call that asks for the
size and the one that copies, so the two are repeated a few times. What the calls answer is a
parameter. Positions are numbers; that none is found is `none`.
-/
namespace SantaProcessTree
namespace ProcessArguments
open Delimited

abbrev Bytes := List UInt8

/-! ### Strings -/

def find (s : Bytes) (pos : Nat) : Option Nat :=
  ((s.drop pos).findIdx? (· == 0)).map (pos + ·)

def findFirstNotOf (s : Bytes) (pos : Nat) : Option Nat :=
  ((s.drop pos).findIdx? fun byte => !byte == 0).map (pos + ·)

/-- `none` throws. -/
def substr (s : Bytes) (pos : Nat) (count : Option Nat) : Option Bytes :=
  if s.length < pos then none
  else some (match count with
    | some count => (s.drop pos).take count
    | none => s.drop pos)

/-! ### Parsing -/

inductive Failure where
  | internalError (message : String)
  | outOfRange
  deriving DecidableEq, Repr

def readArgc (args : Bytes) : Int :=
  (BitVec.ofNat 32 ((args.getD 0 0).toNat + 2 ^ 8 * (args.getD 1 0).toNat +
    2 ^ 16 * (args.getD 2 0).toNat + 2 ^ 24 * (args.getD 3 0).toNat)).toInt

theorem find_bounds {s : Bytes} {pos nulPos : Nat} (found : find s pos = some nulPos) :
    pos ≤ nulPos ∧ nulPos < s.length := by
  obtain ⟨k, first, rfl⟩ := Option.map_eq_some_iff.mp found
  obtain ⟨less, _⟩ := List.findIdx?_eq_some_iff_getElem.mp first
  rw [List.length_drop] at less
  omega

/-- The loop over the arguments. When no NUL is left, the rest is the last one. -/
def takeArguments (args : Bytes) (argc : Int) (startPos : Nat) : Option (List Bytes) :=
  if argc = 0 then some []
  else
    match found : find args startPos with
    | some nulPos =>
        (substr args startPos (some (nulPos - startPos))).bind fun argument =>
          (takeArguments args (argc - 1) (nulPos + 1)).map (argument :: ·)
    | none => (substr args startPos none).map ([·])
termination_by args.length - startPos
decreasing_by
  have bounds := find_bounds found
  omega

def parse (args : Bytes) : Except Failure (List Bytes) :=
  if args.length < 4 then .error (.internalError "Bad args_size")
  else
    match find args 4 with
    | none => .error (.internalError "Can't find end of executable path")
    | some nulPos =>
        match findFirstNotOf args nulPos with
        | none => .error (.internalError "Can't find args after executable path")
        | some startPos =>
            match takeArguments args (readArgc args) startPos with
            | none => .error .outOfRange
            | some localArgv => .ok localArgv

/-! ### The two calls -/

/-- What the kernel answers in each round: a size, and the bytes that fit into one. -/
structure Kernel where
  estimate : Nat → Option Nat
  copy : Nat → Nat → Option Bytes

/-- The extra byte is asked for to see that it does not come; if it does, there are no bytes. -/
def fetch (kernel : Kernel) (round : Nat) : Except Failure (Option Bytes) :=
  match kernel.estimate round with
  | none => .error (.internalError "KERN_PROCARGS2")
  | some argsSizeEstimate =>
      match kernel.copy round (argsSizeEstimate + 1) with
      | none => .error (.internalError "KERN_PROCARGS2")
      | some args => .ok (if args.length = argsSizeEstimate + 1 then none else some args)

def fetchAll (kernel : Kernel) : Nat → Nat → Except Failure Bytes
  | 0, round =>
      (fetch kernel round).bind fun
        | some args => .ok args
        | none => .error (.internalError "Couldn't determine size")
  | tries + 1, round =>
      (fetch kernel round).bind fun
        | some args => .ok args
        | none => fetchAll kernel tries (round + 1)

def processArgumentsForPID (kernel : Kernel) : Except Failure (List Bytes) :=
  (fetchAll kernel 3 0).bind parse

/-! ### What the kernel copies -/

structure Image where
  execPath : Bytes
  padding : Nat
  argv : List Bytes
  following : List Bytes
  pathFree : 0 ∉ execPath
  stringsFree : ∀ string ∈ argv ++ following, 0 ∉ string
  few : argv.length < 2 ^ 31

def littleEndian (n : Nat) : Bytes :=
  [UInt8.ofNat n, UInt8.ofNat (n / 2 ^ 8), UInt8.ofNat (n / 2 ^ 16), UInt8.ofNat (n / 2 ^ 24)]

def Image.encode (image : Image) : Bytes :=
  littleEndian image.argv.length ++ (image.execPath ++ 0 :: (List.replicate image.padding 0 ++
    terminated 0 (image.argv ++ image.following)))

/-- In each round the kernel copies an image, whole where it fits. -/
def Copies (kernel : Kernel) (image : Nat → Image) : Prop :=
  ∀ round size args, kernel.copy round size = some args →
    if (image round).encode.length ≤ size then args = (image round).encode else args.length = size

def Outgrown (kernel : Kernel) (image : Nat → Image) (round : Nat) : Prop :=
  ∃ size, kernel.estimate round = some size ∧ (kernel.copy round (size + 1)).isSome ∧
    size < (image round).encode.length

/-- The strings from the first that is not empty on, as many as there are arguments. -/
def argumentsOf (image : Image) : Except Failure (List Bytes) :=
  match (image.argv ++ image.following).dropWhile List.isEmpty with
  | [] => .error (.internalError "Can't find args after executable path")
  | strings => .ok ((strings ++ [[]]).take image.argv.length)

/-! ### What a parse gives -/

/-- A negative count never runs out. -/
def upTo (argc : Int) (strings : List Bytes) : List Bytes :=
  if argc < 0 then strings else strings.take argc.toNat

theorem upTo_cons {argc : Int} (more : argc ≠ 0) (string : Bytes) (strings : List Bytes) :
    upTo argc (string :: strings) = string :: upTo (argc - 1) strings := by
  unfold upTo
  by_cases negative : argc < 0
  · rw [if_pos negative, if_pos (by omega)]
  · obtain ⟨n, rfl⟩ : ∃ n : Nat, argc = (n + 1 : Nat) := ⟨argc.toNat - 1, by omega⟩
    rw [if_neg negative, if_neg (by omega)]
    simp

theorem substr_some {s : Bytes} {pos : Nat} (inside : pos ≤ s.length) (count : Option Nat) :
    substr s pos count = some (match count with
      | some count => (s.drop pos).take count
      | none => s.drop pos) :=
  if_neg (Nat.not_lt.mpr inside)

theorem takeArguments_eq (args : Bytes) (argc : Int) (startPos : Nat)
    (inside : startPos ≤ args.length) :
    takeArguments args argc startPos = some (upTo argc ((args.drop startPos).splitOn 0)) := by
  induction argc, startPos using takeArguments.induct args with
  | case1 startPos =>
    rw [takeArguments]
    simp [upTo]
  | case2 argc startPos more nulPos found ih =>
    have bounds := find_bounds found
    obtain ⟨k, first, rfl⟩ := Option.map_eq_some_iff.mp found
    rw [takeArguments, if_neg more]
    split
    · rename_i nulPos again
      rw [found] at again
      cases again
      rw [substr_some inside, Option.bind_some, ih (by omega), splitOn_some first, upTo_cons more,
        List.drop_drop, Nat.add_sub_cancel_left]
      rfl
    · rename_i never
      rw [found] at never
      cases never
  | case3 argc startPos more missing =>
    have nowhere := Option.map_eq_none_iff.mp missing
    rw [takeArguments, if_neg more]
    split
    · rename_i found
      rw [missing] at found
      cases found
    · rw [substr_some inside, splitOn_none nowhere, upTo_cons more]
      simp [upTo]

theorem find_none {s : Bytes} {pos : Nat} (missing : find s pos = none) :
    ((s.drop pos).dropWhile fun byte => !byte == 0) = [] := by
  have nowhere := List.findIdx?_eq_none_iff.mp (Option.map_eq_none_iff.mp missing)
  exact List.dropWhile_eq_nil_iff.mpr fun byte member => by simp [nowhere byte member]

theorem find_some {s : Bytes} {pos nulPos : Nat} (found : find s pos = some nulPos) :
    s.drop nulPos = (s.drop pos).dropWhile fun byte => !byte == 0 := by
  obtain ⟨k, first, rfl⟩ := Option.map_eq_some_iff.mp found
  rw [← List.drop_drop]
  exact drop_findIdx first

theorem findFirstNotOf_none {s : Bytes} {pos : Nat} (missing : findFirstNotOf s pos = none) :
    (s.drop pos).dropWhile (· == 0) = [] := by
  have nowhere := List.findIdx?_eq_none_iff.mp (Option.map_eq_none_iff.mp missing)
  exact List.dropWhile_eq_nil_iff.mpr fun byte member => by simpa using nowhere byte member

theorem findFirstNotOf_some {s : Bytes} {pos startPos : Nat}
    (found : findFirstNotOf s pos = some startPos) :
    startPos < s.length ∧ s.drop startPos = (s.drop pos).dropWhile (· == 0) := by
  obtain ⟨k, first, rfl⟩ := Option.map_eq_some_iff.mp found
  obtain ⟨less, _⟩ := List.findIdx?_eq_some_iff_getElem.mp first
  rw [List.length_drop] at less
  refine ⟨by omega, ?_⟩
  rw [← List.drop_drop]
  simpa using drop_findIdx first

theorem parse_eq {args area : Bytes} (long : 4 ≤ args.length)
    (path : ((args.drop 4).dropWhile fun byte => !byte == 0) = 0 :: area) :
    parse args = match area.dropWhile (· == 0) with
      | [] => .error (.internalError "Can't find args after executable path")
      | strings => .ok (upTo (readArgc args) (strings.splitOn 0)) := by
  rw [parse, if_neg (by omega)]
  cases found : find args 4 with
  | none =>
    rw [find_none found] at path
    cases path
  | some nulPos =>
    have here := (find_some found).trans path
    dsimp only
    cases start : findFirstNotOf args nulPos with
    | none =>
      have nothing := findFirstNotOf_none start
      rw [here] at nothing
      simp only [List.dropWhile_cons, beq_self_eq_true, if_true] at nothing
      rw [nothing]
    | some startPos =>
      obtain ⟨inside, rest⟩ := findFirstNotOf_some start
      rw [here] at rest
      simp only [List.dropWhile_cons, beq_self_eq_true, if_true] at rest
      dsimp only
      rw [takeArguments_eq args _ startPos (by omega), rest]
      have some_left : area.dropWhile (· == 0) ≠ [] := by
        rw [← rest]
        simpa using inside
      dsimp only
      split
      · rename_i nothing
        exact absurd nothing some_left
      · rfl

/-! ### Round trip -/

theorem readArgc_littleEndian {n : Nat} (few : n < 2 ^ 31) (rest : Bytes) :
    readArgc (littleEndian n ++ rest) = n := by
  have value : n % 256 + 2 ^ 8 * (n / 2 ^ 8 % 256) + 2 ^ 16 * (n / 2 ^ 16 % 256) +
      2 ^ 24 * (n / 2 ^ 24 % 256) = n := by
    omega
  simp only [readArgc, littleEndian, List.cons_append, List.nil_append, List.getD_cons_zero,
    List.getD_cons_succ, UInt8.toNat_ofNat', value]
  have small : (BitVec.ofNat 32 n).toNat = n := Nat.mod_eq_of_lt (by omega)
  rw [BitVec.toInt_eq_toNat_of_lt (by omega), small]

theorem Image.encode_length (image : Image) : 4 < image.encode.length := by
  simp only [Image.encode, littleEndian, List.length_append, List.length_cons]
  omega

theorem parse_encode (image : Image) : parse image.encode = argumentsOf image := by
  have free : ∀ w ∈ List.replicate image.padding [] ++ (image.argv ++ image.following),
      0 ∉ w := by
    intro w member
    rcases List.mem_append.mp member with pad | string
    · rw [(List.mem_replicate.mp pad).2]
      exact List.not_mem_nil
    · exact image.stringsFree w string
  have area : List.replicate image.padding 0 ++ terminated 0 (image.argv ++ image.following) =
      terminated 0 (List.replicate image.padding [] ++ (image.argv ++ image.following)) := by
    rw [terminated_append 0 (List.replicate image.padding []), terminated_replicate]
  have path : (image.encode.drop 4).dropWhile (fun byte => !byte == 0) =
      0 :: terminated 0 (List.replicate image.padding [] ++ (image.argv ++ image.following)) := by
    have dropped : image.encode.drop 4 = image.execPath ++ 0 :: (List.replicate image.padding 0 ++
      terminated 0 (image.argv ++ image.following)) := rfl
    rw [dropped, area, List.dropWhile_append_of_pos fun byte member => ?_]
    · rfl
    · have other : byte ≠ 0 := fun same => image.pathFree (same ▸ member)
      simpa using other
  have skipped : (List.replicate image.padding [] ++ (image.argv ++ image.following)).dropWhile
      List.isEmpty = (image.argv ++ image.following).dropWhile List.isEmpty := by
    refine List.dropWhile_append_of_pos fun w pad => ?_
    rw [(List.mem_replicate.mp pad).2]
    rfl
  have left : ∀ w ∈ (image.argv ++ image.following).dropWhile List.isEmpty, 0 ∉ w :=
    fun w member => image.stringsFree w ((List.dropWhile_sublist _).subset member)
  rw [parse_eq (Nat.le_of_lt image.encode_length) path, dropWhile_terminated free, skipped,
    argumentsOf]
  cases strings : (image.argv ++ image.following).dropWhile List.isEmpty with
  | nil => rfl
  | cons w ws =>
    rw [strings] at left
    have argc : readArgc image.encode = image.argv.length := readArgc_littleEndian image.few _
    split
    · rename_i nothing
      simp [terminated_cons] at nothing
    · rw [splitOn_terminated left, argc, upTo, if_neg (by omega)]
      rfl

/-- The arguments are those of the image, unless the first of them is empty, or there is
    nothing to read. -/
theorem argumentsOf_ok (image : Image) : argumentsOf image = .ok image.argv ↔
    image.argv.head? ≠ some [] ∧ ∃ w ∈ image.argv ++ image.following, w ≠ [] := by
  cases strings : (image.argv ++ image.following).dropWhile List.isEmpty with
  | nil =>
    have empty := List.dropWhile_eq_nil_iff.mp strings
    rw [argumentsOf, strings]
    refine ⟨fun no => (by cases no), fun ⟨_, w, member, full⟩ => ?_⟩
    exact absurd (List.isEmpty_iff.mp (empty w member)) full
  | cons w ws =>
    have first : w ≠ [] := by
      have stops := List.head_dropWhile_not List.isEmpty
        (l := image.argv ++ image.following) (by rw [strings]; exact List.cons_ne_nil w ws)
      simpa [strings] using stops
    have there : ∃ w ∈ image.argv ++ image.following, w ≠ [] :=
      ⟨w, (List.dropWhile_sublist _).subset (by rw [strings]; exact List.mem_cons_self), first⟩
    rw [argumentsOf, strings]
    cases given : image.argv with
    | nil => simpa [given] using there
    | cons argument rest =>
      rw [given] at strings there
      constructor
      · intro same
        have same := Except.ok.inj same
        rw [List.length_cons, List.cons_append, List.take_succ_cons] at same
        refine ⟨fun empty => first ?_, there⟩
        exact (List.cons.inj same).1.trans (Option.some.inj empty)
      · rintro ⟨full, _⟩
        have stops : ¬ argument.isEmpty = true := by
          rw [List.isEmpty_iff]
          exact fun empty => full (congrArg some empty)
        rw [List.cons_append, List.dropWhile_cons_of_neg stops] at strings
        rw [← strings]
        simp

/-! ### The rounds -/

instance (kernel : Kernel) (image : Nat → Image) (round : Nat) :
    Decidable (Outgrown kernel image round) :=
  match told : kernel.estimate round with
  | none => .isFalse fun ⟨_, same, _⟩ => Option.some_ne_none _ (same.symm.trans told)
  | some size =>
      decidable_of_iff ((kernel.copy round (size + 1)).isSome ∧ size < (image round).encode.length)
        ⟨fun ⟨copied, less⟩ => ⟨size, told, copied, less⟩, fun ⟨_, same, copied, less⟩ => by
          cases told.symm.trans same
          exact ⟨copied, less⟩⟩

def roundGives (kernel : Kernel) (image : Nat → Image) (round : Nat) :
    Except Failure (List Bytes) :=
  match (kernel.estimate round).bind fun size => kernel.copy round (size + 1) with
  | none => .error (.internalError "KERN_PROCARGS2")
  | some _ => argumentsOf (image round)

theorem fetch_outgrown {kernel : Kernel} {image : Nat → Image} (copies : Copies kernel image)
    {round : Nat} (outgrown : Outgrown kernel image round) : fetch kernel round = .ok none := by
  obtain ⟨size, told, copied, less⟩ := outgrown
  obtain ⟨args, some⟩ := Option.isSome_iff_exists.mp copied
  have whole := copies round (size + 1) args some
  have full : args.length = size + 1 := by
    split at whole
    · rw [whole]
      omega
    · exact whole
  simp [fetch, told, some, full]

theorem fetch_parse {kernel : Kernel} {image : Nat → Image} (copies : Copies kernel image)
    {round : Nat} (fits : ¬ Outgrown kernel image round)
    (rest : Option Bytes → Except Failure Bytes) (done : ∀ args, rest (some args) = .ok args) :
    ((fetch kernel round).bind rest).bind parse = roundGives kernel image round := by
  unfold roundGives fetch
  cases told : kernel.estimate round with
  | none => rfl
  | some size =>
    simp only [Option.bind_some]
    cases copied : kernel.copy round (size + 1) with
    | none => rfl
    | some args =>
      have short : (image round).encode.length ≤ size :=
        Nat.not_lt.mp fun less => fits ⟨size, told, by rw [copied]; rfl, less⟩
      have whole := copies round (size + 1) args copied
      rw [if_pos (by omega)] at whole
      have room : ¬ (image round).encode.length = size + 1 := by omega
      simp only [whole, if_neg room, Except.bind, done, parse_encode]

theorem fetchAll_parse {kernel : Kernel} {image : Nat → Image} (copies : Copies kernel image)
    (tries round : Nat) : (fetchAll kernel tries round).bind parse =
      match (List.range' round (tries + 1)).find? fun round => ¬ Outgrown kernel image round with
      | none => .error (.internalError "Couldn't determine size")
      | some round => roundGives kernel image round := by
  induction tries generalizing round with
  | zero =>
    by_cases outgrown : Outgrown kernel image round
    · simp [fetchAll, fetch_outgrown copies outgrown, Except.bind, outgrown]
    · simpa [outgrown, fetchAll] using fetch_parse copies outgrown _ fun args => rfl
  | succ tries ih =>
    rw [List.range'_succ]
    by_cases outgrown : Outgrown kernel image round
    · rw [List.find?_cons_of_neg (by simpa using outgrown), ← ih (round + 1), fetchAll,
        fetch_outgrown copies outgrown]
      rfl
    · rw [List.find?_cons_of_pos (by simpa using outgrown)]
      exact fetch_parse copies outgrown _ fun args => rfl

/-- However often the process runs another program meanwhile, the arguments returned are those
    of one image: of the first that fitted into the size told before. -/
theorem arguments_of_one_image (kernel : Kernel) (image : Nat → Image)
    (copies : Copies kernel image) :
    (processArgumentsForPID kernel =
      match (List.range 4).find? fun round => ¬ Outgrown kernel image round with
      | none => .error (.internalError "Couldn't determine size")
      | some round => roundGives kernel image round) ∧
    ∀ image : Image, argumentsOf image = .ok image.argv ↔
      image.argv.head? ≠ some [] ∧ ∃ w ∈ image.argv ++ image.following, w ≠ [] :=
  ⟨by rw [processArgumentsForPID, fetchAll_parse copies, List.range_eq_range'], argumentsOf_ok⟩

def kernelOf (told : Nat → Nat) (image : Nat → Image) : Kernel where
  estimate round := some (told round)
  copy round size := some ((image round).encode.take size)

theorem kernelOf_copies (told : Nat → Nat) (image : Nat → Image) :
    Copies (kernelOf told image) image := by
  intro round size args copied
  cases copied
  split
  · rename_i fits
    exact List.take_of_length_le fits
  · rename_i long
    rw [List.length_take]
    omega

def shImage : Image :=
  ⟨[47, 115, 104], 3, [[115, 104]], [[65, 61, 49]], by decide, by decide, by decide⟩

def lsImage : Image :=
  ⟨[47, 108, 115], 3, [[108, 115], [45, 108]], [[65, 61, 49]], by decide, by decide, by decide⟩

/-- The size told first is that of the shell, which runs the program before the bytes are
    copied. -/
def execKernel : Kernel :=
  kernelOf (fun round => if round = 0 then shImage.encode.length else lsImage.encode.length)
    fun _ => lsImage

theorem execKernel_arguments : processArgumentsForPID execKernel = .ok lsImage.argv :=
  (arguments_of_one_image execKernel (fun _ => lsImage) (kernelOf_copies _ _)).1.trans (by rfl)

end ProcessArguments
end SantaProcessTree
