import Santa.Library.Flags

/-!
Blocking and remounting of removable media. The configured remount arguments
are turned into a mask; a mount whose flags hold the mask is allowed, any other
is denied and the disk mounted again with the mask added. Letters outside ASCII
do not occur in an argument name, and no such letter is lower-cased into one of
those names.
-/
namespace SantaRemount
open Flags

def MNT_RDONLY : BitVec 32 := 0x00000001
def MNT_NOEXEC : BitVec 32 := 0x00000004
def MNT_NOSUID : BitVec 32 := 0x00000008
def MNT_NODEV : BitVec 32 := 0x00000010
def MNT_ASYNC : BitVec 32 := 0x00000040
def MNT_DONTBROWSE : BitVec 32 := 0x00100000
def MNT_UNKNOWNPERMISSIONS : BitVec 32 := 0x00200000
def MNT_JOURNALED : BitVec 32 := 0x00800000

def mountArgs : List (String × BitVec 32) :=
  [("rdonly", MNT_RDONLY), ("noexec", MNT_NOEXEC), ("nosuid", MNT_NOSUID),
    ("nobrowse", MNT_DONTBROWSE), ("noowners", MNT_UNKNOWNPERMISSIONS), ("nodev", MNT_NODEV),
    ("-j", MNT_JOURNALED), ("async", MNT_ASYNC)]

def maskToMountArgs (remountOpts : BitVec 32) : List String :=
  (mountArgs.filter fun arg => remountOpts &&& arg.2 != 0).map Prod.fst

/- Of ASCII letters only; the program's maps all of Unicode (a Kelvin sign becomes a k). -/
def lowercaseString (s : String) : String := String.ofList (s.toList.map Char.toLower)

/-- The flag of one argument; other arguments are logged and passed over. -/
def argFlag (arg : String) : Option (BitVec 32) :=
  (mountArgs.find? fun known => known.1 == lowercaseString arg).map Prod.snd

def mountArgsToMask (args : List String) : BitVec 32 :=
  args.foldl (fun flags i =>
    match argFlag i with
    | some flag => flags ||| flag
    | none => flags) 0#32

structure StatFS where
  f_flags : BitVec 32
  f_fstypename : String
  f_mntonname : String
  f_mntfromname : String
  deriving DecidableEq, Repr

def updatedMountFlags (remountArgs : List String) (sfs : StatFS) : BitVec 32 :=
  let mask := sfs.f_flags ||| mountArgsToMask remountArgs
  -- mount_apfs sets the journal flag by itself and has no option for it
  if sfs.f_fstypename = "apfs" then mask &&& ~~~MNT_JOURNALED else mask

structure DiskInfo where
  isInternal : Bool
  isRemovable : Bool
  isEjectable : Bool
  deviceProtocol : Option String
  deriving DecidableEq, Repr

/-- Time machine mounts come without a description. -/
def shouldOperateOnDisk : Option DiskInfo → Bool
  | none => false
  | some diskInfo =>
      let isUSB := diskInfo.deviceProtocol == some "USB"
      let isSecureDigital := diskInfo.deviceProtocol == some "Secure Digital"
      let isVirtual := diskInfo.deviceProtocol == some "Virtual Interface"
      if (diskInfo.isInternal || isVirtual) && !isSecureDigital then false
      else if !diskInfo.isInternal && !isVirtual then true
      else if !diskInfo.isRemovable && !diskInfo.isEjectable && !isUSB && !isSecureDigital then
        false
      else true

def haveRemountArgs (remountArgs : List String) : Bool := remountArgs.length > 0

def remountUSBModeContainsFlags (remountArgs : List String) (flags : BitVec 32) : Bool :=
  if haveRemountArgs remountArgs then
    flags &&& mountArgsToMask remountArgs == mountArgsToMask remountArgs
  else false

inductive MountEvent where
  | authMount
  | authRemount
  deriving DecidableEq, Repr

inductive AuthResult where
  | allow
  | deny
  deriving DecidableEq, Repr

structure DeviceEvent where
  mntonname : String
  mntfromname : String
  remountArgs : Option (List String)
  deriving DecidableEq, Repr

/-- The answer, the arguments of the mount that is started, whether the block is logged and
    what the block callback is told. -/
structure Outcome where
  result : AuthResult
  remounted : Option (List String)
  logged : Bool
  blocked : Option DeviceEvent
  deriving DecidableEq, Repr

def handleAuthDeviceMount (remountArgs : List String) (disk : Option DiskInfo)
    (event : MountEvent) (sfs : StatFS) : Outcome :=
  if shouldOperateOnDisk disk then
    if haveRemountArgs remountArgs then
      if remountUSBModeContainsFlags remountArgs sfs.f_flags && event != .authRemount then
        ⟨.allow, none, false, none⟩
      else
        ⟨.deny, some (maskToMountArgs (updatedMountFlags remountArgs sfs)), false,
          some ⟨sfs.f_mntonname, sfs.f_mntfromname, some remountArgs⟩⟩
    else ⟨.deny, none, true, some ⟨sfs.f_mntonname, sfs.f_mntfromname, none⟩⟩
  else ⟨.allow, none, false, none⟩

/-! ### Reading the arguments -/

def restrictions (args : List String) : List (BitVec 32) := args.filterMap argFlag

theorem mountArgsToMask_eq (args : List String) :
    mountArgsToMask args = union (restrictions args) := by
  have step : ∀ flags, args.foldl (fun flags i =>
      match argFlag i with
      | some flag => flags ||| flag
      | none => flags) flags = (restrictions args).foldl (fun flags m => flags ||| m) flags := by
    induction args with
    | nil => exact fun _ => rfl
    | cons arg args ih =>
      intro flags
      simp only [List.foldl_cons, restrictions, List.filterMap_cons]
      cases argFlag arg with
      | none => exact ih flags
      | some flag => exact ih (flags ||| flag)
  rw [mountArgsToMask, step, foldl_union, BitVec.zero_or]

theorem contains_iff (remountArgs : List String) (flags : BitVec 32) :
    remountUSBModeContainsFlags remountArgs flags = true ↔
      remountArgs ≠ [] ∧ ∀ r ∈ restrictions remountArgs, Has flags r := by
  unfold remountUSBModeContainsFlags haveRemountArgs
  rw [← has_union_iff, ← mountArgsToMask_eq]
  cases remountArgs with
  | nil => simp
  | cons arg args => simp [Has]

theorem restriction_known {args : List String} {r : BitVec 32} (named : r ∈ restrictions args) :
    ∃ name, (name, r) ∈ mountArgs := by
  obtain ⟨arg, -, reads⟩ := List.mem_filterMap.mp named
  simp only [argFlag, Option.map_eq_some_iff] at reads
  obtain ⟨⟨name, flag⟩, found, rfl⟩ := reads
  exact ⟨name, List.mem_of_find?_eq_some found⟩

theorem argFlag_known : ∀ arg ∈ mountArgs, argFlag arg.1 = some arg.2 := by
  decide

theorem known_nonzero : ∀ arg ∈ mountArgs, arg.2 ≠ 0 := by
  decide

theorem known_apart :
    ∀ arg ∈ mountArgs, arg.2 = MNT_JOURNALED ∨ arg.2 &&& MNT_JOURNALED = 0#32 := by
  decide

theorem mask_named {mask r : BitVec 32} {name : String} (known : (name, r) ∈ mountArgs)
    (has : Has mask r) : Has (mountArgsToMask (maskToMountArgs mask)) r := by
  have written : name ∈ maskToMountArgs mask := by
    refine List.mem_map.mpr ⟨(name, r), List.mem_filter.mpr ⟨known, ?_⟩, rfl⟩
    have positive := known_nonzero (name, r) known
    unfold Has at has
    simpa [has] using positive
  rw [mountArgsToMask_eq]
  exact union_has (List.mem_filterMap.mpr ⟨name, written, argFlag_known (name, r) known⟩)

/-! ### One round of blocking and remounting -/

def mountedFlags (args : List String) (fstypename : String) : BitVec 32 :=
  if fstypename = "apfs" then mountArgsToMask args ||| MNT_JOURNALED else mountArgsToMask args

theorem remounted_has {remountArgs : List String} {sfs : StatFS} {r : BitVec 32}
    (named : r ∈ restrictions remountArgs) :
    Has (mountedFlags (maskToMountArgs (updatedMountFlags remountArgs sfs)) sfs.f_fstypename)
      r := by
  obtain ⟨name, known⟩ := restriction_known named
  have asked : Has (sfs.f_flags ||| mountArgsToMask remountArgs) r := by
    rw [mountArgsToMask_eq]
    exact has_or_right _ (union_has named)
  unfold mountedFlags updatedMountFlags
  by_cases apfs : sfs.f_fstypename = "apfs"
  · simp only [if_pos apfs]
    rcases known_apart (name, r) known with journal | apart
    · rw [show r = MNT_JOURNALED from journal]
      exact has_or_right _ (by simp [Has])
    · exact has_or_left _ (mask_named known (has_clear apart asked))
  · simp only [if_neg apfs]
    exact mask_named known asked

theorem remount_accepted (remountArgs : List String) (disk : Option DiskInfo)
    (event : MountEvent) (sfs back : StatFS) (args : List String)
    (asked : (handleAuthDeviceMount remountArgs disk event sfs).remounted = some args)
    (mounted : back.f_flags = mountedFlags args sfs.f_fstypename) :
    (handleAuthDeviceMount remountArgs disk .authMount back).result = .allow := by
  unfold handleAuthDeviceMount at asked ⊢
  by_cases selected : shouldOperateOnDisk disk
  · by_cases args? : haveRemountArgs remountArgs
    · simp only [selected, args?, if_true] at asked ⊢
      have present : remountArgs ≠ [] := by
        rintro rfl
        simp [haveRemountArgs] at args?
      have accepted : remountUSBModeContainsFlags remountArgs back.f_flags = true := by
        rw [contains_iff, mounted]
        refine ⟨present, fun r named => ?_⟩
        split at asked
        · cases asked
        · simp only [Option.some.injEq] at asked
          rw [← asked]
          exact remounted_has named
      simp [accepted]
    · simp [selected, args?] at asked
  · simp [selected]

theorem allow_iff {remountArgs : List String} {disk : Option DiskInfo} {event : MountEvent}
    {sfs : StatFS} (selected : shouldOperateOnDisk disk = true) :
    (handleAuthDeviceMount remountArgs disk event sfs).result = .allow ↔
      remountArgs ≠ [] ∧ (∀ r ∈ restrictions remountArgs, Has sfs.f_flags r) ∧
        event = .authMount := by
  rw [← and_assoc, ← contains_iff]
  unfold handleAuthDeviceMount
  simp only [selected, if_true]
  cases contains : remountUSBModeContainsFlags remountArgs sfs.f_flags <;> cases event <;>
    cases have_ : haveRemountArgs remountArgs <;>
    simp_all [remountUSBModeContainsFlags]

def AllowsOnlyRestricted (remountArgs : List String) (disk : Option DiskInfo)
    (event : MountEvent) (sfs : StatFS) : Prop :=
  (handleAuthDeviceMount remountArgs disk event sfs).result = .allow →
    event = .authMount ∧ (∀ r ∈ restrictions remountArgs, Has sfs.f_flags r) ∧
      restrictions remountArgs ≠ []

def OneRound (remountArgs : List String) (disk : Option DiskInfo) (event : MountEvent)
    (sfs : StatFS) : Prop :=
  ∀ args back, (handleAuthDeviceMount remountArgs disk event sfs).remounted = some args →
    back.f_flags = mountedFlags args sfs.f_fstypename →
    (handleAuthDeviceMount remountArgs disk .authMount back).result = .allow

/-- The remount always settles; the answer is right unless arguments are configured of which
    none is known and the event is a mount. -/
theorem restricted_mounts_iff (remountArgs : List String) (disk : Option DiskInfo)
    (event : MountEvent) (sfs : StatFS) (selected : shouldOperateOnDisk disk = true) :
    (AllowsOnlyRestricted remountArgs disk event sfs ∧ OneRound remountArgs disk event sfs) ↔
      remountArgs = [] ∨ (∃ arg ∈ remountArgs, (argFlag arg).isSome) ∨ event = .authRemount := by
  have known : restrictions remountArgs ≠ [] ↔ ∃ arg ∈ remountArgs, (argFlag arg).isSome := by
    simp [restrictions, Option.isSome_iff_ne_none]
  have round : OneRound remountArgs disk event sfs :=
    fun args back => remount_accepted remountArgs disk event sfs back args
  rw [and_iff_left round, AllowsOnlyRestricted, allow_iff selected, ← known]
  constructor
  · intro restricted
    by_cases present : remountArgs = []
    · exact Or.inl present
    by_cases named : restrictions remountArgs = []
    · cases event with
      | authRemount => exact Or.inr (Or.inr rfl)
      | authMount =>
        have allowed := restricted ⟨present, by simp [named], rfl⟩
        exact absurd named allowed.2.2
    · exact Or.inr (Or.inl named)
  · rintro (empty | named | again) ⟨present, all, mount⟩
    · exact absurd empty present
    · exact ⟨mount, all, named⟩
    · rw [mount] at again
      cases again

def usbStick : Option DiskInfo := some ⟨false, true, true, some "USB"⟩

def writable : StatFS := ⟨0#32, "msdos", "/Volumes/STICK", "/dev/disk4s1"⟩

theorem usb_mount_restricted :
    (AllowsOnlyRestricted ["RDonly"] usbStick .authMount writable ∧
      OneRound ["RDonly"] usbStick .authMount writable) ↔
      ["RDonly"] = [] ∨ (∃ arg ∈ ["RDonly"], (argFlag arg).isSome) ∨
        MountEvent.authMount = .authRemount :=
  restricted_mounts_iff ["RDonly"] usbStick .authMount writable (by decide)

/-- A misspelt argument is configured, and a writable stick is allowed. -/
theorem unknown_argument_allows :
    shouldOperateOnDisk usbStick = true ∧ haveRemountArgs ["readonly"] = true ∧
      (handleAuthDeviceMount ["readonly"] usbStick .authMount writable).result = .allow ∧
      ¬ AllowsOnlyRestricted ["readonly"] usbStick .authMount writable := by
  refine ⟨by decide, by decide, by decide, ?_⟩
  intro restricted
  exact (restricted (by decide)).2.2 (by decide)

end SantaRemount
