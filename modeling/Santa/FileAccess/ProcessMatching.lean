import Mathlib.Data.List.Basic
import Santa.Commands.KillingMachine
import Santa.FileAccess.FAAPolicyProcessor

/-!
The processes that a file access rule names. An entry is made from optional attributes;
a team ID may stand before the signing ID, and the team ID "platform" means a platform
binary. An attribute that needs a signature should hold of signed processes only.
-/
namespace SantaProcessMatching
open SantaRule (lowercase)
open SantaPolicy (CS_SIGNED)
open SantaKillingMachine (hexStringToBuf utf8 kPlatformTeamID)
open SantaPathTargets SantaFAA

def kTeamIDLength : Nat := 10

/-! ### Making an entry -/

/-- Characters outside the basic plane take two units of a string. -/
def units (c : Char) : Nat := if c.toNat ≤ 0xFFFF then 1 else 2

def splitAtColonUnit : Nat → List Char → Option (List Char × List Char)
  | _, [] => none
  | 0, c :: rest => if c = ':' then some ([], rest) else none
  | n + 1, c :: rest =>
      if units c ≤ n + 1 then
        (splitAtColonUnit (n + 1 - units c) rest).map fun (front, back) => (c :: front, back)
      else none

/-- The team ID before a signing ID, or "platform"; a signing ID must follow. -/
def extractTeamId (sid : String) : Option (String × String) :=
  match (splitAtColonUnit kTeamIDLength sid.toList).filter fun parts => parts.2 ≠ [] with
  | some (tid, rest) => some (String.ofList tid, String.ofList rest)
  | none =>
      ((splitAtColonUnit kPlatformTeamID.length sid.toList).filter fun parts =>
        parts.2 ≠ [] && lowercase parts.1 = kPlatformTeamID).map fun (tid, rest) =>
          (String.ofList tid, String.ofList rest)

def isPlatform (tid : Option String) : Bool :=
  tid.any fun tid => lowercase tid.toList = kPlatformTeamID

def WatchItemProcess.ofParts (bp sid tid cdh ch : Option String) (pb : Bool) : WatchItemProcess :=
  let signingId := sid.getD ""
  { binaryPath := bp.getD ""
    signingId := signingId
    teamId := if isPlatform tid then "" else tid.getD ""
    cdhash := hexStringToBuf (utf8 (cdh.getD ""))
    certificateSha256 := ch.getD ""
    platformBinary := pb || isPlatform tid
    signingIdWildcardPos := signingId.toList.idxOf? '*' }

def WatchItemProcess.create (bp sid tid cdh ch : Option String) (pb : Bool) :
    Except String WatchItemProcess :=
  if bp = none ∧ sid = none ∧ tid = none ∧ cdh = none ∧ ch = none ∧ pb = false then
    .error "No valid attributes set in process dictionary"
  else if pb = true ∧ tid.getD "" ≠ "" ∧ isPlatform tid = false then
    .error "Both PlatformBinary and TeamID attributes cannot be set"
  else if sid.getD "" ≠ "" ∧ pb = false ∧ tid.getD "" = "" then
    match extractTeamId (sid.getD "") with
    | some (tid, sid) => .ok (WatchItemProcess.ofParts bp (some sid) (some tid) cdh ch pb)
    | none => .error "A SigningID attribute was specified, but no TeamID was provided"
  else .ok (WatchItemProcess.ofParts bp sid tid cdh ch pb)

def Signed (esProc : EsProcess) : Prop := esProc.codesigningFlags &&& CS_SIGNED ≠ 0

/-- The first star of a pattern stands for any text. -/
def MatchesPattern (pattern text : String) : Prop :=
  ('*' ∉ pattern.toList ∧ text = pattern) ∨
    ∃ front middle back, '*' ∉ front ∧ pattern.toList = front ++ '*' :: back ∧
      text.toList = front ++ middle ++ back

def leafHash (sources : CertificateSources) (esFile : EsFile) : Option String :=
  (match sources.cachedDecisionForFile esFile.vnode with
    | some cd => cd.certSHA256
    | none => sources.leafCertificate esFile.path).filter (· ≠ "")

structure Holds (sources : CertificateSources) (policyProc : WatchItemProcess)
    (esProc : EsProcess) : Prop where
  platform : policyProc.platformBinary = true → Signed esProc ∧ esProc.isPlatformBinary = true
  team : policyProc.teamId ≠ "" → Signed esProc ∧ esProc.teamId = some policyProc.teamId
  signing : policyProc.signingId ≠ "" → Signed esProc ∧
    ∃ signingId, esProc.signingId = some signingId ∧ MatchesPattern policyProc.signingId signingId
  cdhash : policyProc.cdhash ≠ [] → Signed esProc ∧ policyProc.cdhash = esProc.cdhash
  certificate : policyProc.certificateSha256 ≠ "" →
    Signed esProc ∧ leafHash sources esProc.executable = some policyProc.certificateSha256
  path : policyProc.binaryPath ≠ "" → policyProc.binaryPath = esProc.executable.path

section
variable {policyProc : WatchItemProcess} {esProc : EsProcess}

theorem getCertificateHash_eq (sources : CertificateSources) (certHashCache : CertHashCache)
    (esFile : EsFile) :
    (getCertificateHash sources certHashCache esFile).1 =
      (certHashCache.get esFile.vnode).getD ((leafHash sources esFile).getD kBadCertHash) := by
  unfold getCertificateHash leafHash
  cases certHashCache.get esFile.vnode with
  | some hash => rfl
  | none =>
    have told (found : Option String) :
        (if (found.getD "").isEmpty then kBadCertHash else found.getD "") =
          (found.filter (· ≠ "")).getD kBadCertHash := by
      cases found with
      | none => rfl
      | some hash => by_cases empty : hash = "" <;> simp [empty, Option.filter]
    cases sources.cachedDecisionForFile esFile.vnode with
    | some cd => exact told cd.certSHA256
    | none => exact told (sources.leafCertificate esFile.path)

variable {sources : CertificateSources} {certHashCache : CertHashCache}

end

end SantaProcessMatching
