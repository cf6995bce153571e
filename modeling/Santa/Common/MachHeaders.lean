import Mathlib.Algebra.Group.Nat.Defs
import Mathlib.Algebra.Group.Int.Defs

/-!
Mach-O headers of a file. A thin file begins with one; a 32-bit fat header lists
slices by offset and size. Counts, offsets and sizes are unsigned 32-bit numbers
in the file, go through a signed int and come out of it as 64-bit numbers, and
no range that ends behind the file is read. A file is its size and the byte at
each place; the name of an architecture is a parameter.
-/
namespace SantaMachHeaders

/-- Sizes of files are not negative as signed 64-bit numbers. -/
structure FileContent where
  fileSize : Nat
  byteAt : Nat → UInt8
  sized : fileSize < 2 ^ 63

/-! ### Numbers in a file -/

def littleEndian (f : FileContent) (place : Nat) : Nat :=
  (f.byteAt place).toNat + 2 ^ 8 * (f.byteAt (place + 1)).toNat +
    2 ^ 16 * (f.byteAt (place + 2)).toNat + 2 ^ 24 * (f.byteAt (place + 3)).toNat

def bigEndian (f : FileContent) (place : Nat) : Nat :=
  2 ^ 24 * (f.byteAt place).toNat + 2 ^ 16 * (f.byteAt (place + 1)).toNat +
    2 ^ 8 * (f.byteAt (place + 2)).toNat + (f.byteAt (place + 3)).toNat

/-- An unsigned number assigned to an int. -/
def toInt32 (n : Nat) : Int := if n < 2 ^ 31 then n else (n : Int) - 2 ^ 32

def toNSUInteger (i : Int) : Nat := (i % 2 ^ 64).toNat

def MH_MAGIC : Nat := 0xfeedface
def MH_CIGAM : Nat := 0xcefaedfe
def MH_MAGIC_64 : Nat := 0xfeedfacf
def MH_CIGAM_64 : Nat := 0xcffaedfe
def FAT_MAGIC : Nat := 0xcafebabe
def FAT_CIGAM : Nat := 0xbebafeca

def sizeofMachHeader : Nat := 28
def sizeofFatHeader : Nat := 8
def sizeofFatArch : Nat := 20

structure MachHeader where
  magic : Nat
  cputype : Int
  cpusubtype : Int
  filetype : Nat
  ncmds : Nat
  sizeofcmds : Nat
  flags : Nat
  deriving DecidableEq, Repr

structure NSRange where
  location : Nat
  length : Nat
  deriving DecidableEq, Repr

/-- The range, if it lies in the file: the end must not overflow. -/
def safeSubdataWithRange (f : FileContent) (range : NSRange) : Option NSRange :=
  if 2 ^ 64 ≤ range.location + range.length ∨ f.fileSize < range.location + range.length then none
  else some range

def headerAt (word : Nat → Nat) (place : Nat) : MachHeader :=
  ⟨word place, toInt32 (word (place + 4)), toInt32 (word (place + 8)), word (place + 12),
    word (place + 16), word (place + 20), word (place + 24)⟩

/-- All fields are swapped where the magic is. -/
def hostHeader (f : FileContent) (place : Nat) : MachHeader :=
  if littleEndian f place = MH_CIGAM ∨ littleEndian f place = MH_CIGAM_64 then
    headerAt (bigEndian f) place
  else headerAt (littleEndian f) place

def parseSingleMachHeader (f : FileContent) (inputData : NSRange) : Option MachHeader :=
  if inputData.length < sizeofMachHeader then none
  else
    let mh := hostHeader f inputData.location
    if mh.magic = MH_MAGIC ∨ mh.magic = MH_MAGIC_64 then some mh else none

/-! ### The headers of a file -/

structure MachHeaderWithOffset where
  data : MachHeader
  offset : Nat
  deriving DecidableEq, Repr

structure Scan where
  headers : List (String × MachHeaderWithOffset)
  reads : List NSRange

def Scan.read (s : Scan) (data : Option NSRange) : Scan :=
  { s with reads := s.reads ++ data.toList }

def Scan.set (s : Scan) (key : String) (value : MachHeaderWithOffset) : Scan :=
  { s with headers := (key, value) :: s.headers.filter fun entry => entry.1 ≠ key }

section Scanning
variable (nameForCPUType : Int → Int → String) (f : FileContent)

def archPlace (i : Nat) : Nat := sizeofFatHeader + sizeofFatArch * i

def archCPUType (i : Nat) : Nat := bigEndian f (archPlace i)
def archCPUSubtype (i : Nat) : Nat := bigEndian f (archPlace i + 4)
def archOffset (i : Nat) : Nat := bigEndian f (archPlace i + 8)
def archSize (i : Nat) : Nat := bigEndian f (archPlace i + 12)

def archName (i : Nat) : String :=
  nameForCPUType (toInt32 (archCPUType f i)) (toInt32 (archCPUSubtype f i))

/-- The slice as it is read: both numbers go through an int. -/
def sliceData (i : Nat) : Option NSRange :=
  safeSubdataWithRange f
    ⟨toNSUInteger (toInt32 (archOffset f i)), toNSUInteger (toInt32 (archSize f i))⟩

def scanArch (s : Scan) (i : Nat) : Scan :=
  let s := s.read (sliceData f i)
  match (sliceData f i).bind (parseSingleMachHeader f) with
  | none => s
  | some machHeader => s.set (archName nameForCPUType f i) ⟨machHeader, archOffset f i⟩

def fatTable : Option NSRange :=
  safeSubdataWithRange f
    ⟨sizeofFatHeader, sizeofFatArch * toNSUInteger (toInt32 (bigEndian f 4)) % 2 ^ 64⟩

def IsFat : Prop := littleEndian f 0 = FAT_CIGAM ∨ littleEndian f 0 = FAT_MAGIC

instance : Decidable (IsFat f) := inferInstanceAs (Decidable (_ ∨ _))

def machHeaders : Scan :=
  if f.fileSize < sizeofMachHeader then ⟨[], []⟩
  else
    let first := safeSubdataWithRange f ⟨0, 4096⟩
    let s := (Scan.mk [] []).read first
    match first.bind (parseSingleMachHeader f) with
    | some machHeader =>
        s.set (nameForCPUType machHeader.cputype machHeader.cpusubtype) ⟨machHeader, 0⟩
    | none =>
        let fatHeader := safeSubdataWithRange f ⟨0, sizeofFatHeader⟩
        let s := s.read fatHeader
        if fatHeader.isSome ∧ IsFat f then
          let s := s.read (fatTable f)
          match fatTable f with
          | none => s
          | some _ =>
              (List.range (toInt32 (bigEndian f 4)).toNat).foldl (scanArch nameForCPUType f) s
        else s

end Scanning

/-! ### Ranges -/

theorem bigEndian_lt (f : FileContent) (place : Nat) : bigEndian f place < 2 ^ 32 := by
  have b0 := (f.byteAt place).toNat_lt
  have b1 := (f.byteAt (place + 1)).toNat_lt
  have b2 := (f.byteAt (place + 2)).toNat_lt
  have b3 := (f.byteAt (place + 3)).toNat_lt
  unfold bigEndian
  omega

theorem toNSUInteger_toInt32 {n : Nat} (fits : n < 2 ^ 32) :
    toNSUInteger (toInt32 n) = if n < 2 ^ 31 then n else 2 ^ 64 - 2 ^ 32 + n := by
  unfold toNSUInteger toInt32
  split <;> omega

theorem subdata_iff (f : FileContent) (range : NSRange) :
    safeSubdataWithRange f range = some range ↔ range.location + range.length ≤ f.fileSize := by
  have sized := f.sized
  unfold safeSubdataWithRange
  split
  · exact iff_of_false (by simp) (by omega)
  · exact iff_of_true rfl (by omega)

theorem subdata_some {f : FileContent} {range data : NSRange}
    (h : safeSubdataWithRange f range = some data) :
    data = range ∧ range.location + range.length ≤ f.fileSize := by
  have same : data = range := by
    unfold safeSubdataWithRange at h
    split at h
    · cases h
    · exact (Option.some.inj h).symm
  rw [same] at h
  exact ⟨same, (subdata_iff f range).mp h⟩

/-- A number from 2^31 on is negative as an int, and then too large for any file. -/
theorem sliceData_some_iff (f : FileContent) (i : Nat) (data : NSRange) :
    sliceData f i = some data ↔ data = ⟨archOffset f i, archSize f i⟩ ∧
      archOffset f i < 2 ^ 31 ∧ archSize f i < 2 ^ 31 ∧
      archOffset f i + archSize f i ≤ f.fileSize := by
  have sized := f.sized
  have offset : archOffset f i < 2 ^ 32 := bigEndian_lt f _
  have size : archSize f i < 2 ^ 32 := bigEndian_lt f _
  unfold sliceData
  rw [toNSUInteger_toInt32 offset, toNSUInteger_toInt32 size]
  constructor
  · intro h
    obtain ⟨rfl, inside⟩ := subdata_some h
    simp only at inside
    have small : archOffset f i < 2 ^ 31 ∧ archSize f i < 2 ^ 31 := by
      split at inside <;> split at inside <;> omega
    rw [if_pos small.1, if_pos small.2] at inside ⊢
    exact ⟨rfl, small.1, small.2, inside⟩
  · rintro ⟨rfl, small, small', inside⟩
    rw [if_pos small, if_pos small']
    exact (subdata_iff f _).mpr inside

theorem fatTable_isSome_iff (f : FileContent) :
    (fatTable f).isSome = true ↔ bigEndian f 4 < 2 ^ 31 ∧
      sizeofFatHeader + sizeofFatArch * bigEndian f 4 ≤ f.fileSize := by
  have sized := f.sized
  have count : bigEndian f 4 < 2 ^ 32 := bigEndian_lt f 4
  unfold fatTable sizeofFatHeader sizeofFatArch
  rw [toNSUInteger_toInt32 count, Option.isSome_iff_exists]
  constructor
  · rintro ⟨data, h⟩
    have inside := (subdata_some h).2
    simp only at inside
    by_cases small : bigEndian f 4 < 2 ^ 31
    · rw [if_pos small] at inside
      omega
    · -- nineteen times the word and what is left of it
      have wrapped : 20 * (2 ^ 64 - 2 ^ 32 + bigEndian f 4) =
          2 ^ 64 * 19 + (2 ^ 64 - 20 * (2 ^ 32 - bigEndian f 4)) := by
        omega
      rw [if_neg small, wrapped, Nat.mul_add_mod, Nat.mod_eq_of_lt (by omega)] at inside
      omega
  · rintro ⟨small, inside⟩
    refine ⟨_, (subdata_iff f _).mpr ?_⟩
    simp only [if_pos small]
    omega

/-! ### What a header is -/

def StartsMachO (f : FileContent) (place : Nat) : Prop :=
  littleEndian f place = MH_MAGIC ∨ littleEndian f place = MH_MAGIC_64 ∨
    littleEndian f place = MH_CIGAM ∨ littleEndian f place = MH_CIGAM_64

instance (f : FileContent) (place : Nat) : Decidable (StartsMachO f place) :=
  inferInstanceAs (Decidable (_ ∨ _ ∨ _ ∨ _))

theorem swapped_magic (f : FileContent) (place : Nat) :
    (littleEndian f place = MH_CIGAM ↔ bigEndian f place = MH_MAGIC) ∧
      (littleEndian f place = MH_CIGAM_64 ↔ bigEndian f place = MH_MAGIC_64) := by
  have b0 := (f.byteAt place).toNat_lt
  have b1 := (f.byteAt (place + 1)).toNat_lt
  have b2 := (f.byteAt (place + 2)).toNat_lt
  have b3 := (f.byteAt (place + 3)).toNat_lt
  unfold littleEndian bigEndian MH_CIGAM MH_MAGIC MH_CIGAM_64 MH_MAGIC_64
  omega

theorem headerAt_magic (word : Nat → Nat) (place : Nat) :
    (headerAt word place).magic = word place := rfl

theorem parse_isSome_iff (f : FileContent) (data : NSRange) :
    (parseSingleMachHeader f data).isSome = true ↔
      sizeofMachHeader ≤ data.length ∧ StartsMachO f data.location := by
  obtain ⟨narrow, wide⟩ := swapped_magic f data.location
  unfold parseSingleMachHeader
  by_cases short : data.length < sizeofMachHeader
  · rw [if_pos short]
    exact iff_of_false (by simp) (by omega)
  · rw [if_neg short, and_iff_right (Nat.le_of_not_lt short)]
    unfold StartsMachO hostHeader
    simp only
    by_cases swapped : littleEndian f data.location = MH_CIGAM ∨
        littleEndian f data.location = MH_CIGAM_64
    · have magic : bigEndian f data.location = MH_MAGIC ∨
          bigEndian f data.location = MH_MAGIC_64 := swapped.imp narrow.mp wide.mp
      rw [if_pos swapped, headerAt_magic, if_pos magic]
      exact iff_of_true rfl (Or.inr (Or.inr swapped))
    · rw [if_neg swapped, headerAt_magic]
      by_cases magic : littleEndian f data.location = MH_MAGIC ∨
          littleEndian f data.location = MH_MAGIC_64
      · rw [if_pos magic]
        refine iff_of_true rfl ?_
        exact magic.imp_right Or.inl
      · rw [if_neg magic]
        refine iff_of_false (by simp) ?_
        rintro (same | same | same)
        · exact magic (Or.inl same)
        · exact magic (Or.inr same)
        · exact swapped same

structure ListedSlice (f : FileContent) (i : Nat) : Prop where
  listed : i < bigEndian f 4
  table : sizeofFatHeader + sizeofFatArch * bigEndian f 4 ≤ f.fileSize
  inside : archOffset f i + archSize f i ≤ f.fileSize
  magic : 4 ≤ archSize f i ∧ StartsMachO f (archOffset f i)

/-- The numbers of the slice are positive as ints, and there is room for a header. -/
def Found (f : FileContent) (i : Nat) : Prop :=
  archOffset f i < 2 ^ 31 ∧ archSize f i < 2 ^ 31 ∧ sizeofMachHeader ≤ archSize f i

theorem parse_slice_iff (f : FileContent) {i : Nat} (listed : i < bigEndian f 4)
    (table : sizeofFatHeader + sizeofFatArch * bigEndian f 4 ≤ f.fileSize) :
    ((sliceData f i).bind (parseSingleMachHeader f)).isSome = true ↔
      ListedSlice f i ∧ Found f i := by
  rw [Option.isSome_iff_exists]
  constructor
  · rintro ⟨header, h⟩
    obtain ⟨data, slice, parsed⟩ := Option.bind_eq_some_iff.mp h
    obtain ⟨rfl, offset, size, inside⟩ := (sliceData_some_iff f i data).mp slice
    obtain ⟨long, magic⟩ := (parse_isSome_iff f _).mp (Option.isSome_of_eq_some parsed)
    refine ⟨⟨listed, table, inside, ?_, magic⟩, offset, size, long⟩
    exact Nat.le_trans (by decide) long
  · rintro ⟨slice, offset, size, long⟩
    have read := (sliceData_some_iff f i _).mpr ⟨rfl, offset, size, slice.inside⟩
    rw [read, Option.bind_some]
    exact Option.isSome_iff_exists.mp ((parse_isSome_iff f _).mpr ⟨long, slice.magic.2⟩)

/-! ### The loop -/

def Scan.Has (s : Scan) (key : String) : Prop := ∃ value, (key, value) ∈ s.headers

theorem has_set (s : Scan) (key : String) (value : MachHeaderWithOffset) (k : String) :
    (s.set key value).Has k ↔ k = key ∨ s.Has k := by
  unfold Scan.Has Scan.set
  constructor
  · rintro ⟨v, member⟩
    rcases List.mem_cons.mp member with same | before
    · exact Or.inl (congrArg Prod.fst same)
    · exact Or.inr ⟨v, (List.mem_filter.mp before).1⟩
  · rintro (rfl | ⟨v, member⟩)
    · exact ⟨value, List.mem_cons_self⟩
    · by_cases same : k = key
      · rw [same]
        exact ⟨value, List.mem_cons_self⟩
      · exact ⟨v, List.mem_cons_of_mem _ (List.mem_filter.mpr ⟨member, by simpa using same⟩)⟩

theorem has_read (s : Scan) (data : Option NSRange) (k : String) : (s.read data).Has k ↔ s.Has k :=
  Iff.rfl

section Loop
variable (nameForCPUType : Int → Int → String) (f : FileContent)

theorem has_scanArch (s : Scan) (i : Nat) (k : String) :
    (scanArch nameForCPUType f s i).Has k ↔ s.Has k ∨
      (((sliceData f i).bind (parseSingleMachHeader f)).isSome = true ∧
        archName nameForCPUType f i = k) := by
  unfold scanArch
  cases (sliceData f i).bind (parseSingleMachHeader f) with
  | none => simp [has_read]
  | some header =>
    simp only [has_set, has_read, Option.isSome_some, true_and]
    rw [or_comm, eq_comm]

theorem has_foldl (is : List Nat) (s : Scan) (k : String) :
    (is.foldl (scanArch nameForCPUType f) s).Has k ↔ s.Has k ∨ ∃ i ∈ is,
      ((sliceData f i).bind (parseSingleMachHeader f)).isSome = true ∧
        archName nameForCPUType f i = k := by
  induction is generalizing s with
  | nil => simp
  | cons i is ih =>
    rw [List.foldl_cons, ih, has_scanArch, or_assoc]
    simp only [List.mem_cons, exists_eq_or_imp]

def Scan.Inside (f : FileContent) (s : Scan) : Prop :=
  ∀ range ∈ s.reads, range.location + range.length ≤ f.fileSize

theorem inside_read {s : Scan} (inside : s.Inside f) (range : NSRange) :
    (s.read (safeSubdataWithRange f range)).Inside f := by
  intro read member
  rcases List.mem_append.mp member with before | now
  · exact inside read before
  · obtain ⟨rfl, fits⟩ := subdata_some (Option.mem_toList.mp now)
    exact fits

theorem inside_foldl (is : List Nat) {s : Scan} (inside : s.Inside f) :
    (is.foldl (scanArch nameForCPUType f) s).Inside f := by
  induction is generalizing s with
  | nil => exact inside
  | cons i is ih =>
    refine ih ?_
    have read := inside_read f inside
      ⟨toNSUInteger (toInt32 (archOffset f i)), toNSUInteger (toInt32 (archSize f i))⟩
    unfold scanArch
    split
    · exact read
    · exact read

theorem reads_foldl (is : List Nat) (s : Scan) :
    (is.foldl (scanArch nameForCPUType f) s).reads.length ≤ s.reads.length + is.length := by
  induction is generalizing s with
  | nil => exact Nat.le_refl _
  | cons i is ih =>
    have one : (scanArch nameForCPUType f s i).reads.length ≤ s.reads.length + 1 := by
      have added : (s.read (sliceData f i)).reads.length ≤ s.reads.length + 1 := by
        simp only [Scan.read, List.length_append]
        cases sliceData f i <;> simp
      unfold scanArch
      split
      · exact added
      · exact added
    have later := ih (scanArch nameForCPUType f s i)
    rw [List.foldl_cons, List.length_cons]
    omega

/-! ### Every slice -/

def thinName : String :=
  nameForCPUType (hostHeader f 0).cputype (hostHeader f 0).cpusubtype

/-- What the scan of a file should give: thin headers and all slices, nothing else, and reads
    inside the file whose number the declared count bounds. -/
structure FindsEverySlice : Prop where
  thin : StartsMachO f 0 → (machHeaders nameForCPUType f).Has (thinName nameForCPUType f)
  slices : IsFat f → ∀ i, ListedSlice f i →
    (machHeaders nameForCPUType f).Has (archName nameForCPUType f i)
  nothingElse : ∀ k, (machHeaders nameForCPUType f).Has k →
    (StartsMachO f 0 ∧ k = thinName nameForCPUType f) ∨
      (IsFat f ∧ ∃ i, ListedSlice f i ∧ k = archName nameForCPUType f i)
  inside : (machHeaders nameForCPUType f).Inside f
  ends : (machHeaders nameForCPUType f).reads.length ≤ bigEndian f 4 + 3

theorem thin_not_fat {f : FileContent} (thin : StartsMachO f 0) : ¬ IsFat f := by
  unfold StartsMachO MH_MAGIC MH_MAGIC_64 MH_CIGAM MH_CIGAM_64 at thin
  unfold IsFat FAT_CIGAM FAT_MAGIC
  omega

theorem parse_thin {f : FileContent} (thin : StartsMachO f 0) :
    parseSingleMachHeader f ⟨0, 4096⟩ = some (hostHeader f 0) := by
  have parsed := (parse_isSome_iff f ⟨0, 4096⟩).mpr ⟨by decide, thin⟩
  unfold parseSingleMachHeader at parsed ⊢
  rw [if_neg (by decide : ¬ (4096 < sizeofMachHeader))] at parsed ⊢
  by_cases magic : (hostHeader f 0).magic = MH_MAGIC ∨ (hostHeader f 0).magic = MH_MAGIC_64
  · exact if_pos magic
  · simp only [if_neg magic, Option.isSome_none, Bool.false_eq_true] at parsed

section Sized
variable (large : 4096 ≤ f.fileSize)
include large

theorem first_read : safeSubdataWithRange f ⟨0, 4096⟩ = some ⟨0, 4096⟩ :=
  (subdata_iff f _).mpr (by simpa using large)

theorem fat_read : safeSubdataWithRange f ⟨0, sizeofFatHeader⟩ = some ⟨0, sizeofFatHeader⟩ :=
  (subdata_iff f _).mpr (Nat.le_trans (by decide) large)

theorem machHeaders_thin (thin : StartsMachO f 0) :
    machHeaders nameForCPUType f =
      (Scan.mk [] [⟨0, 4096⟩]).set (thinName nameForCPUType f) ⟨hostHeader f 0, 0⟩ := by
  have long : ¬ f.fileSize < sizeofMachHeader := by
    unfold sizeofMachHeader
    omega
  unfold machHeaders
  rw [if_neg long, first_read f large]
  simp only [Option.bind_some, parse_thin thin]
  rfl

theorem machHeaders_other (other : ¬ StartsMachO f 0) :
    machHeaders nameForCPUType f =
      if IsFat f ∧ (fatTable f).isSome = true then
        (List.range (bigEndian f 4)).foldl (scanArch nameForCPUType f)
          ((Scan.mk [] [⟨0, 4096⟩, ⟨0, sizeofFatHeader⟩]).read (fatTable f))
      else Scan.mk [] [⟨0, 4096⟩, ⟨0, sizeofFatHeader⟩] := by
  have long : ¬ f.fileSize < sizeofMachHeader := by
    unfold sizeofMachHeader
    omega
  have unparsed : parseSingleMachHeader f ⟨0, 4096⟩ = none := by
    rw [← Option.not_isSome_iff_eq_none, parse_isSome_iff]
    exact fun both => other both.2
  unfold machHeaders
  rw [if_neg long, first_read f large, fat_read f large]
  simp only [Option.bind_some, unparsed, Option.isSome_some, true_and]
  by_cases fat : IsFat f
  · rw [if_pos fat]
    cases table : fatTable f with
    | none => simp [Scan.read]
    | some data =>
      have small := ((fatTable_isSome_iff f).mp (Option.isSome_of_eq_some table)).1
      simp only [fat, Option.isSome_some, and_self, if_true, toInt32, if_pos small]
      rfl
  · simp only [fat, if_false, false_and]
    rfl

end Sized

theorem has_other (large : 4096 ≤ f.fileSize) (other : ¬ StartsMachO f 0) (k : String) :
    (machHeaders nameForCPUType f).Has k ↔ IsFat f ∧ bigEndian f 4 < 2 ^ 31 ∧
      ∃ i, ListedSlice f i ∧ Found f i ∧ archName nameForCPUType f i = k := by
  rw [machHeaders_other nameForCPUType f large other]
  have none : ∀ reads, ¬ (Scan.mk [] reads).Has k := by
    rintro reads ⟨value, member⟩
    cases member
  by_cases read : IsFat f ∧ (fatTable f).isSome = true
  · obtain ⟨small, table⟩ := (fatTable_isSome_iff f).mp read.2
    rw [if_pos read, has_foldl, has_read, or_iff_right (none _), and_iff_right read.1,
      and_iff_right small]
    refine exists_congr fun i => ?_
    rw [List.mem_range]
    constructor
    · rintro ⟨listed, found, name⟩
      obtain ⟨slice, found⟩ := (parse_slice_iff f listed table).mp found
      exact ⟨slice, found, name⟩
    · rintro ⟨slice, found, name⟩
      exact ⟨slice.listed, (parse_slice_iff f slice.listed table).mpr ⟨slice, found⟩, name⟩
  · rw [if_neg read]
    refine iff_of_false (none _) ?_
    rintro ⟨fat, small, i, slice, -, -⟩
    exact read ⟨fat, (fatTable_isSome_iff f).mpr ⟨small, slice.table⟩⟩

theorem scan_reads (large : 4096 ≤ f.fileSize) : (machHeaders nameForCPUType f).Inside f ∧
    (machHeaders nameForCPUType f).reads.length ≤ bigEndian f 4 + 3 := by
  have both : ∀ range ∈ [NSRange.mk 0 4096, ⟨0, sizeofFatHeader⟩],
      range.location + range.length ≤ f.fileSize := by
    intro range member
    rcases List.mem_cons.mp member with rfl | member
    · simpa using large
    · rw [List.mem_singleton.mp member]
      exact Nat.le_trans (by decide) large
  by_cases thin : StartsMachO f 0
  · rw [machHeaders_thin nameForCPUType f large thin]
    refine ⟨fun range member => both range ?_, ?_⟩
    · rw [List.mem_singleton.mp member]
      exact List.mem_cons_self
    · simp [Scan.set]
  · rw [machHeaders_other nameForCPUType f large thin]
    split
    · have start : (Scan.mk [] [⟨0, 4096⟩, ⟨0, sizeofFatHeader⟩]).Inside f := both
      refine ⟨inside_foldl nameForCPUType f _ (inside_read f start _), ?_⟩
      refine Nat.le_trans (reads_foldl nameForCPUType f _ _) ?_
      rw [List.length_range, Scan.read]
      cases fatTable f
      · simp only [Option.toList_none, List.append_nil, List.length_cons, List.length_nil]
        omega
      · simp only [Option.toList_some, List.length_append, List.length_cons, List.length_nil]
        omega
    · exact ⟨both, by simp⟩

/-- Every slice is found, just in the files where each one has a slice of its architecture, maybe
    itself, with room for a header and with an offset and a size that are not negative as ints,
    in a table whose count is not negative either. -/
theorem finds_every_slice_iff (large : 4096 ≤ f.fileSize) :
    FindsEverySlice nameForCPUType f ↔
      (IsFat f → ∀ i, ListedSlice f i → bigEndian f 4 < 2 ^ 31 ∧ ∃ j, ListedSlice f j ∧
        (archOffset f j < 2 ^ 31 ∧ archSize f j < 2 ^ 31 ∧ sizeofMachHeader ≤ archSize f j) ∧
          archName nameForCPUType f j = archName nameForCPUType f i) := by
  obtain ⟨inside, ends⟩ := scan_reads nameForCPUType f large
  by_cases thin : StartsMachO f 0
  · have has : ∀ k, (machHeaders nameForCPUType f).Has k ↔ k = thinName nameForCPUType f := by
      intro k
      rw [machHeaders_thin nameForCPUType f large thin, has_set, or_iff_left]
      rintro ⟨value, member⟩
      cases member
    refine iff_of_true ⟨?_, ?_, ?_, inside, ends⟩ fun fat => absurd fat (thin_not_fat thin)
    · exact fun _ => (has _).mpr rfl
    · exact fun fat => absurd fat (thin_not_fat thin)
    · exact fun k key => Or.inl ⟨thin, (has k).mp key⟩
  · have has := has_other nameForCPUType f large thin
    constructor
    · intro finds fat i slice
      exact ((has _).mp (finds.slices fat i slice)).2
    · intro found
      refine ⟨fun magic => absurd magic thin, ?_, ?_, inside, ends⟩
      · intro fat i slice
        exact (has _).mpr ⟨fat, found fat i slice⟩
      · intro k key
        obtain ⟨fat, -, i, slice, -, name⟩ := (has k).mp key
        exact Or.inr ⟨fat, i, slice, name.symm⟩

end Loop

def namePair (cpuType cpuSubType : Int) : String := toString cpuType ++ ":" ++ toString cpuSubType

/-- A fat header with one slice, of 4096 bytes, whose header begins at a place that is a multiple
    of 2^24. -/
def oneSlice (high : UInt8) : FileContent where
  fileSize := 2 ^ 24 * high.toNat + 4096
  byteAt i :=
    [0xca, 0xfe, 0xba, 0xbe, 0, 0, 0, 1, 1, 0, 0, 7, 0, 0, 0, 3, high, 0, 0, 0, 0, 0, 16, 0].getD i
      (if i < 2 ^ 24 * high.toNat then 0
      else [0xcf, 0xfa, 0xed, 0xfe].getD (i - 2 ^ 24 * high.toNat) 0)
  sized := by
    have small := high.toNat_lt
    omega

theorem slice_below_found : FindsEverySlice namePair (oneSlice 1) := by
  refine (finds_every_slice_iff namePair (oneSlice 1) (by decide +kernel)).mpr ?_
  intro _ i slice
  have only : i = 0 := by
    have listed := slice.listed
    have one : bigEndian (oneSlice 1) 4 = 1 := by decide +kernel
    omega
  subst only
  exact ⟨by decide +kernel, 0, slice, by decide +kernel, rfl⟩

/-- The slice at 2^31 is listed, inside the file and a Mach-O, and has no entry. -/
theorem slice_at_sign_bit_missed :
    4096 ≤ (oneSlice 0x80).fileSize ∧ archOffset (oneSlice 0x80) 0 = 2 ^ 31 ∧
      ¬ FindsEverySlice namePair (oneSlice 0x80) := by
  refine ⟨by decide +kernel, by decide +kernel, fun finds => ?_⟩
  have slice : ListedSlice (oneSlice 0x80) 0 :=
    ⟨by decide +kernel, by decide +kernel, by decide +kernel, by decide +kernel⟩
  obtain ⟨value, member⟩ := finds.slices (by decide +kernel) 0 slice
  have empty : (machHeaders namePair (oneSlice 0x80)).headers = [] := by decide +kernel
  rw [empty] at member
  cases member

end SantaMachHeaders
