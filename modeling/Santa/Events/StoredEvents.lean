import Santa.FileAccess.FAAPolicyProcessor
import Santa.Library.KeyedArchive
import Santa.Policy.PolicyProcessor
import Santa.TemporaryMonitorMode.Session

/-!
The events that are stored until they are uploaded, and their coding in an archive.
Each class encodes its fields in one list and decodes them in another. A field of the
base class is never nil, nor is the random identifier of an audit event, so an archive
without them is refused. A number that names no case of an enumeration is refused too.
The class of all audit events has no instances of its own.
-/
namespace SantaStoredEvents
open SantaFAA (FileAccessPolicyDecision)
open SantaPolicy (SNTSigningStatus)
open SantaMonitorMode (EnterReason LeaveReason)

/-! ### Objects in an archive -/

inductive NSClass where
  | string
  | number
  | data
  | date
  | uuid
  | array
  | dictionary
  | certificate
  | storedExecutionEvent
  | storedFileAccessEvent
  | storedFileAccessProcess
  | temporaryMonitorModeEnterAuditEvent
  | temporaryMonitorModeLeaveAuditEvent
  deriving DecidableEq, Repr

inductive Plain where
  | string (value : String)
  | number (value : Int)
  | data (bytes : List UInt8)
  | date (seconds : Int)
  | uuid (value : String)
  deriving DecidableEq, Repr

def Plain.kind : Plain → NSClass
  | .string _ => .string
  | .number _ => .number
  | .data _ => .data
  | .date _ => .date
  | .uuid _ => .uuid

abbrev NSObject := Archived NSClass Plain
abbrev NSDictionary := List (String × NSObject)

def nsString (value : String) : NSObject := .value (.string value)
def nsNumber (value : Int) : NSObject := .value (.number value)
def nsDate (seconds : Int) : NSObject := .value (.date seconds)
def nsUUID (value : String) : NSObject := .value (.uuid value)

def asString : NSObject → Option String
  | .value (.string value) => some value
  | _ => none

def asNumber : NSObject → Option Int
  | .value (.number value) => some value
  | _ => none

def asDate : NSObject → Option Int
  | .value (.date seconds) => some seconds
  | _ => none

def asUUID : NSObject → Option String
  | .value (.uuid value) => some value
  | _ => none

def asArray {α : Type} (read : NSObject → Option α) : NSObject → Option (List α)
  | .array items => items.mapM read
  | _ => none

def dictionaryClasses : NSClass → Bool
  | .dictionary | .array | .string | .number | .data => true
  | _ => false

def asDictionary : NSObject → Option NSDictionary
  | .object .dictionary entries =>
      if Archived.permittedFields Plain.kind .array .dictionary dictionaryClasses entries then
        some entries
      else none
  | _ => none

/-! ### Macros -/

abbrev NSCoder := List (String × NSObject)

def encode (key : String) (o : Option NSObject) : String × Option NSObject := (key, o)

def encodeBoxable (key : String) (n : Int) : String × Option NSObject := (key, some (nsNumber n))

section Decoding
variable {α : Type}

def decode (decoder : NSCoder) (key : String) (read : NSObject → Option α) : Option (Option α) :=
  Archived.decoded read (decoder.lookup key)

/-- A selector sent to nil returns zero. -/
def decodeSelector (decoder : NSCoder) (key : String) (selector : Int → α) : Option α :=
  (decode decoder key asNumber).map fun n => selector (n.getD 0)

def decodeArray (decoder : NSCoder) (key : String) (read : NSObject → Option α) :
    Option (Option (List α)) := decode decoder key (asArray read)

def decodeDict (decoder : NSCoder) (key : String) : Option (Option NSDictionary) :=
  decode decoder key asDictionary

def rawValue [DecidableEq α] (cases : List α) (a : α) : Int := cases.idxOf a

def ofRawValue (cases : List α) (n : Int) : Option α := if n < 0 then none else cases[n.toNat]?

end Decoding

def boolValue (n : Int) : Bool := n ≠ 0
def ofBool (b : Bool) : Int := if b then 1 else 0

def SNTSigningStatus.cases : List SNTSigningStatus :=
  [.unsigned, .invalid, .adhoc, .development, .production]

def FileAccessPolicyDecision.cases : List FileAccessPolicyDecision :=
  [.noPolicy, .denied, .deniedInvalidSignature, .allowed, .allowedReadAccess, .allowedAuditOnly]

def EnterReason.cases : List EnterReason := [.onDemand, .onDemandRefresh, .restart]

def LeaveReason.cases : List LeaveReason :=
  [.sessionExpired, .cancelled, .revoked, .syncServerChanged, .reboot]

/-! ### Classes -/

structure MOLCertificate where
  certData : List UInt8
  nonempty : certData ≠ []

def MOLCertificate.encodeWithCoder (c : MOLCertificate) : NSObject :=
  .object .certificate (Archived.encoded [encode "certData" (some (.value (.data c.certData)))])

def MOLCertificate.initWithCoder : NSObject → Option MOLCertificate
  | .object .certificate fields =>
      match fields.lookup "certData" with
      | some (.value (.data certData)) =>
          if nonempty : certData ≠ [] then some ⟨certData, nonempty⟩ else none
      | _ => none
  | _ => none

structure SNTStoredEvent where
  idx : Nat
  occurrenceDate : Int

/-- What is not set is nil or zero. -/
structure SNTStoredExecutionEvent extends SNTStoredEvent where
  fileSHA256 : Option String := none
  filePath : Option String := none
  needsBundleHash : Bool := false
  fileBundleHash : Option String := none
  fileBundleHashMilliseconds : Option Int := none
  fileBundleBinaryCount : Option Int := none
  fileBundleName : Option String := none
  fileBundlePath : Option String := none
  fileBundleExecutableRelPath : Option String := none
  fileBundleID : Option String := none
  fileBundleVersion : Option String := none
  fileBundleVersionString : Option String := none
  signingChain : Option (List MOLCertificate) := none
  teamID : Option String := none
  signingID : Option String := none
  cdhash : Option String := none
  codesigningFlags : UInt32 := 0
  signingStatus : SNTSigningStatus := .unsigned
  entitlements : Option NSDictionary := none
  entitlementsFiltered : Bool := false
  secureSigningTime : Option Int := none
  signingTime : Option Int := none
  executingUser : Option String := none
  decision : UInt64 := 0
  holdAndAsk : Bool := false
  pid : Option Int := none
  ppid : Option Int := none
  parentName : Option String := none
  loggedInUsers : Option (List String) := none
  currentSessions : Option (List String) := none
  quarantineDataURL : Option String := none
  quarantineRefererURL : Option String := none
  quarantineTimestamp : Option Int := none
  quarantineAgentBundleID : Option String := none

structure SNTStoredFileAccessProcess where
  filePath : Option String
  cdhash : Option String
  fileSHA256 : Option String
  signingID : Option String
  signingChain : Option (List MOLCertificate)
  teamID : Option String
  pid : Option Int
  executingUser : Option String
  parent : Option SNTStoredFileAccessProcess

structure SNTStoredFileAccessEvent extends SNTStoredEvent where
  ruleVersion : Option String
  ruleName : Option String
  accessedPath : Option String
  process : Option SNTStoredFileAccessProcess
  decision : FileAccessPolicyDecision

structure SNTStoredTemporaryMonitorModeAuditEvent extends SNTStoredEvent where
  uuid : Option String
  uniqueUuid : String

structure SNTStoredTemporaryMonitorModeEnterAuditEvent
    extends SNTStoredTemporaryMonitorModeAuditEvent where
  seconds : UInt32
  reason : EnterReason

structure SNTStoredTemporaryMonitorModeLeaveAuditEvent
    extends SNTStoredTemporaryMonitorModeAuditEvent where
  reason : LeaveReason

/-! ### Coding -/

def SNTStoredEvent.encodeWithCoder (e : SNTStoredEvent) : List (String × Option NSObject) :=
  [encode "idx" (some (nsNumber e.idx)), encode "occurrenceDate" (some (nsDate e.occurrenceDate))]

def SNTStoredEvent.initWithCoder (decoder : NSCoder) : Option SNTStoredEvent := do
  let idx ← (← decode decoder "idx" asNumber)
  let occurrenceDate ← (← decode decoder "occurrenceDate" asDate)
  some ⟨idx.toNat, occurrenceDate⟩

def SNTStoredExecutionEvent.encodeWithCoder (e : SNTStoredExecutionEvent) :
    List (String × Option NSObject) :=
  e.toSNTStoredEvent.encodeWithCoder ++
  [ encode "fileSHA256" (e.fileSHA256.map nsString),
    encode "filePath" (e.filePath.map nsString),
    encodeBoxable "needsBundleHash" (ofBool e.needsBundleHash),
    encode "fileBundleHash" (e.fileBundleHash.map nsString),
    encode "fileBundleHashMilliseconds" (e.fileBundleHashMilliseconds.map nsNumber),
    encode "fileBundleBinaryCount" (e.fileBundleBinaryCount.map nsNumber),
    encode "fileBundleName" (e.fileBundleName.map nsString),
    encode "fileBundlePath" (e.fileBundlePath.map nsString),
    encode "fileBundleExecutableRelPath" (e.fileBundleExecutableRelPath.map nsString),
    encode "fileBundleID" (e.fileBundleID.map nsString),
    encode "fileBundleVersion" (e.fileBundleVersion.map nsString),
    encode "fileBundleVersionString" (e.fileBundleVersionString.map nsString),
    encode "signingChain" (e.signingChain.map fun chain =>
      .array (chain.map MOLCertificate.encodeWithCoder)),
    encode "teamID" (e.teamID.map nsString),
    encode "signingID" (e.signingID.map nsString),
    encode "cdhash" (e.cdhash.map nsString),
    encodeBoxable "codesigningFlags" e.codesigningFlags.toNat,
    encodeBoxable "signingStatus" (rawValue SNTSigningStatus.cases e.signingStatus),
    encode "entitlements" (e.entitlements.map (.object .dictionary)),
    encodeBoxable "entitlementsFiltered" (ofBool e.entitlementsFiltered),
    encode "secureSigningTime" (e.secureSigningTime.map nsDate),
    encode "signingTime" (e.signingTime.map nsDate),
    encode "executingUser" (e.executingUser.map nsString),
    encodeBoxable "decision" e.decision.toNat,
    encodeBoxable "holdAndAsk" (ofBool e.holdAndAsk),
    encode "pid" (e.pid.map nsNumber),
    encode "ppid" (e.ppid.map nsNumber),
    encode "parentName" (e.parentName.map nsString),
    encode "loggedInUsers" (e.loggedInUsers.map fun users => .array (users.map nsString)),
    encode "currentSessions" (e.currentSessions.map fun sessions => .array (sessions.map nsString)),
    encode "quarantineDataURL" (e.quarantineDataURL.map nsString),
    encode "quarantineRefererURL" (e.quarantineRefererURL.map nsString),
    encode "quarantineTimestamp" (e.quarantineTimestamp.map nsDate),
    encode "quarantineAgentBundleID" (e.quarantineAgentBundleID.map nsString) ]

def SNTStoredExecutionEvent.initWithCoder (decoder : NSCoder) :
    Option SNTStoredExecutionEvent := do
  let base ← SNTStoredEvent.initWithCoder decoder
  let fileSHA256 ← decode decoder "fileSHA256" asString
  let filePath ← decode decoder "filePath" asString
  let needsBundleHash ← decodeSelector decoder "needsBundleHash" boolValue
  let fileBundleHash ← decode decoder "fileBundleHash" asString
  let fileBundleHashMilliseconds ← decode decoder "fileBundleHashMilliseconds" asNumber
  let fileBundleBinaryCount ← decode decoder "fileBundleBinaryCount" asNumber
  let fileBundleName ← decode decoder "fileBundleName" asString
  let fileBundlePath ← decode decoder "fileBundlePath" asString
  let fileBundleExecutableRelPath ← decode decoder "fileBundleExecutableRelPath" asString
  let fileBundleID ← decode decoder "fileBundleID" asString
  let fileBundleVersion ← decode decoder "fileBundleVersion" asString
  let fileBundleVersionString ← decode decoder "fileBundleVersionString" asString
  let signingChain ← decodeArray decoder "signingChain" MOLCertificate.initWithCoder
  let teamID ← decode decoder "teamID" asString
  let signingID ← decode decoder "signingID" asString
  let cdhash ← decode decoder "cdhash" asString
  let codesigningFlags ← decodeSelector decoder "codesigningFlags" UInt32.ofInt
  let signingStatus ←
    (← decodeSelector decoder "signingStatus" (ofRawValue SNTSigningStatus.cases))
  let entitlements ← decodeDict decoder "entitlements"
  let entitlementsFiltered ← decodeSelector decoder "entitlementsFiltered" boolValue
  let secureSigningTime ← decode decoder "secureSigningTime" asDate
  let signingTime ← decode decoder "signingTime" asDate
  let executingUser ← decode decoder "executingUser" asString
  let decision ← decodeSelector decoder "decision" UInt64.ofInt
  let holdAndAsk ← decodeSelector decoder "holdAndAsk" boolValue
  let pid ← decode decoder "pid" asNumber
  let ppid ← decode decoder "ppid" asNumber
  let parentName ← decode decoder "parentName" asString
  let loggedInUsers ← decodeArray decoder "loggedInUsers" asString
  let currentSessions ← decodeArray decoder "currentSessions" asString
  let quarantineDataURL ← decode decoder "quarantineDataURL" asString
  let quarantineRefererURL ← decode decoder "quarantineRefererURL" asString
  let quarantineTimestamp ← decode decoder "quarantineTimestamp" asDate
  let quarantineAgentBundleID ← decode decoder "quarantineAgentBundleID" asString
  some
    { base with
      fileSHA256, filePath, needsBundleHash, fileBundleHash, fileBundleHashMilliseconds,
      fileBundleBinaryCount, fileBundleName, fileBundlePath, fileBundleExecutableRelPath,
      fileBundleID, fileBundleVersion, fileBundleVersionString, signingChain, teamID, signingID,
      cdhash, codesigningFlags, signingStatus, entitlements, entitlementsFiltered,
      secureSigningTime, signingTime, executingUser, decision, holdAndAsk, pid, ppid, parentName,
      loggedInUsers, currentSessions, quarantineDataURL, quarantineRefererURL,
      quarantineTimestamp, quarantineAgentBundleID }

def SNTStoredFileAccessProcess.fields (p : SNTStoredFileAccessProcess)
    (parent : Option NSObject) : List (String × Option NSObject) :=
  [ encode "filePath" (p.filePath.map nsString),
    encode "cdhash" (p.cdhash.map nsString),
    encode "fileSHA256" (p.fileSHA256.map nsString),
    encode "signingID" (p.signingID.map nsString),
    encode "signingChain" (p.signingChain.map fun chain =>
      .array (chain.map MOLCertificate.encodeWithCoder)),
    encode "teamID" (p.teamID.map nsString),
    encode "pid" (p.pid.map nsNumber),
    encode "executingUser" (p.executingUser.map nsString),
    encode "parent" parent ]

def SNTStoredFileAccessProcess.encodeWithCoder : SNTStoredFileAccessProcess → NSObject
  | p@⟨_, _, _, _, _, _, _, _, none⟩ =>
      .object .storedFileAccessProcess (Archived.encoded (p.fields none))
  | p@⟨_, _, _, _, _, _, _, _, some parent⟩ =>
      .object .storedFileAccessProcess (Archived.encoded (p.fields (some parent.encodeWithCoder)))

mutual

def SNTStoredFileAccessProcess.initWithCoder : NSObject → Option SNTStoredFileAccessProcess
  | .object .storedFileAccessProcess decoder => do
      let filePath ← decode decoder "filePath" asString
      let cdhash ← decode decoder "cdhash" asString
      let fileSHA256 ← decode decoder "fileSHA256" asString
      let signingID ← decode decoder "signingID" asString
      let signingChain ← decodeArray decoder "signingChain" MOLCertificate.initWithCoder
      let teamID ← decode decoder "teamID" asString
      let pid ← decode decoder "pid" asNumber
      let executingUser ← decode decoder "executingUser" asString
      let parent ← decodeParent decoder
      some
        { filePath, cdhash, fileSHA256, signingID, signingChain, teamID, pid, executingUser,
          parent }
  | _ => none

def decodeParent : NSCoder → Option (Option SNTStoredFileAccessProcess)
  | [] => some none
  | (key, o) :: decoder =>
      if key = "parent" then (SNTStoredFileAccessProcess.initWithCoder o).map some
      else decodeParent decoder

end

def SNTStoredFileAccessEvent.encodeWithCoder (e : SNTStoredFileAccessEvent) :
    List (String × Option NSObject) :=
  e.toSNTStoredEvent.encodeWithCoder ++
  [ encode "accessedPath" (e.accessedPath.map nsString),
    encode "ruleVersion" (e.ruleVersion.map nsString),
    encode "ruleName" (e.ruleName.map nsString),
    encode "process" (e.process.map SNTStoredFileAccessProcess.encodeWithCoder),
    encodeBoxable "decision" (rawValue FileAccessPolicyDecision.cases e.decision) ]

def SNTStoredFileAccessEvent.initWithCoder (decoder : NSCoder) :
    Option SNTStoredFileAccessEvent := do
  let base ← SNTStoredEvent.initWithCoder decoder
  let ruleVersion ← decode decoder "ruleVersion" asString
  let ruleName ← decode decoder "ruleName" asString
  let accessedPath ← decode decoder "accessedPath" asString
  let process ← decode decoder "process" SNTStoredFileAccessProcess.initWithCoder
  let decision ←
    (← decodeSelector decoder "decision" (ofRawValue FileAccessPolicyDecision.cases))
  some { base with ruleVersion, ruleName, accessedPath, process, decision }

def SNTStoredTemporaryMonitorModeAuditEvent.encodeWithCoder
    (e : SNTStoredTemporaryMonitorModeAuditEvent) : List (String × Option NSObject) :=
  e.toSNTStoredEvent.encodeWithCoder ++
  [ encode "uuid" (e.uuid.map nsString), encode "uniqueUuid" (some (nsUUID e.uniqueUuid)) ]

def SNTStoredTemporaryMonitorModeAuditEvent.initWithCoder (decoder : NSCoder) :
    Option SNTStoredTemporaryMonitorModeAuditEvent := do
  let base ← SNTStoredEvent.initWithCoder decoder
  let uuid ← decode decoder "uuid" asString
  let uniqueUuid ← (← decode decoder "uniqueUuid" asUUID)
  some { base with uuid, uniqueUuid }

def SNTStoredTemporaryMonitorModeEnterAuditEvent.encodeWithCoder
    (e : SNTStoredTemporaryMonitorModeEnterAuditEvent) : List (String × Option NSObject) :=
  e.toSNTStoredTemporaryMonitorModeAuditEvent.encodeWithCoder ++
  [ encodeBoxable "reason" (rawValue EnterReason.cases e.reason),
    encodeBoxable "seconds" e.seconds.toNat ]

def SNTStoredTemporaryMonitorModeEnterAuditEvent.initWithCoder (decoder : NSCoder) :
    Option SNTStoredTemporaryMonitorModeEnterAuditEvent := do
  let base ← SNTStoredTemporaryMonitorModeAuditEvent.initWithCoder decoder
  let reason ← (← decodeSelector decoder "reason" (ofRawValue EnterReason.cases))
  let seconds ← decodeSelector decoder "seconds" UInt32.ofInt
  some { base with reason, seconds }

def SNTStoredTemporaryMonitorModeLeaveAuditEvent.encodeWithCoder
    (e : SNTStoredTemporaryMonitorModeLeaveAuditEvent) : List (String × Option NSObject) :=
  e.toSNTStoredTemporaryMonitorModeAuditEvent.encodeWithCoder ++
  [ encodeBoxable "reason" (rawValue LeaveReason.cases e.reason) ]

def SNTStoredTemporaryMonitorModeLeaveAuditEvent.initWithCoder (decoder : NSCoder) :
    Option SNTStoredTemporaryMonitorModeLeaveAuditEvent := do
  let base ← SNTStoredTemporaryMonitorModeAuditEvent.initWithCoder decoder
  let reason ← (← decodeSelector decoder "reason" (ofRawValue LeaveReason.cases))
  some { base with reason }

def SNTEventStateBlockBinary : UInt64 := (1 : UInt64) <<< 17

def SNTEventStateAllow : UInt64 := (0xFFFFFF : UInt64) <<< 40

inductive StoredEvent where
  | execution (e : SNTStoredExecutionEvent)
  | fileAccess (e : SNTStoredFileAccessEvent)
  | temporaryMonitorModeEnter (e : SNTStoredTemporaryMonitorModeEnterAuditEvent)
  | temporaryMonitorModeLeave (e : SNTStoredTemporaryMonitorModeLeaveAuditEvent)

namespace StoredEvent

def archivedData : StoredEvent → NSObject
  | .execution e => .object .storedExecutionEvent (Archived.encoded e.encodeWithCoder)
  | .fileAccess e => .object .storedFileAccessEvent (Archived.encoded e.encodeWithCoder)
  | .temporaryMonitorModeEnter e =>
      .object .temporaryMonitorModeEnterAuditEvent (Archived.encoded e.encodeWithCoder)
  | .temporaryMonitorModeLeave e =>
      .object .temporaryMonitorModeLeaveAuditEvent (Archived.encoded e.encodeWithCoder)

def unarchivedObject : NSObject → Option StoredEvent
  | .object .storedExecutionEvent decoder =>
      (SNTStoredExecutionEvent.initWithCoder decoder).map .execution
  | .object .storedFileAccessEvent decoder =>
      (SNTStoredFileAccessEvent.initWithCoder decoder).map .fileAccess
  | .object .temporaryMonitorModeEnterAuditEvent decoder =>
      (SNTStoredTemporaryMonitorModeEnterAuditEvent.initWithCoder decoder).map
        .temporaryMonitorModeEnter
  | .object .temporaryMonitorModeLeaveAuditEvent decoder =>
      (SNTStoredTemporaryMonitorModeLeaveAuditEvent.initWithCoder decoder).map
        .temporaryMonitorModeLeave
  | _ => none

def idx : StoredEvent → Nat
  | .execution e => e.idx
  | .fileAccess e => e.idx
  | .temporaryMonitorModeEnter e => e.idx
  | .temporaryMonitorModeLeave e => e.idx

/-- A nil in a format prints as a word. -/
def uniqueID : StoredEvent → Option String
  | .execution e => e.fileSHA256
  | .fileAccess e =>
      some (e.ruleName.getD "(null)" ++ "|" ++ e.ruleVersion.getD "(null)" ++ "|" ++
        (e.process.bind (·.fileSHA256)).getD "(null)")
  | .temporaryMonitorModeEnter e => some e.uniqueUuid
  | .temporaryMonitorModeLeave e => some e.uniqueUuid

def unactionableEvent : StoredEvent → Bool
  | .execution e => e.decision &&& SNTEventStateAllow ≠ 0
  | .fileAccess e => e.decision = .allowedAuditOnly
  | .temporaryMonitorModeEnter _ => false
  | .temporaryMonitorModeLeave _ => false

def permittedEntitlements : StoredEvent → Bool
  | .execution e =>
      e.entitlements.all (Archived.permittedFields Plain.kind .array .dictionary dictionaryClasses)
  | _ => true

end StoredEvent

/-! ### What is decoded -/

section Readers
variable {α : Type} {read : NSObject → Option α} {write : α → NSObject}

@[simp] theorem decoded_string (x : Option String) :
    Archived.decoded asString (x.map nsString) = some x := Archived.decoded_map fun _ _ => rfl

@[simp] theorem decoded_number (x : Option Int) :
    Archived.decoded asNumber (x.map nsNumber) = some x := Archived.decoded_map fun _ _ => rfl

@[simp] theorem decoded_date (x : Option Int) :
    Archived.decoded asDate (x.map nsDate) = some x := Archived.decoded_map fun _ _ => rfl

@[simp] theorem decoded_selector (n : Int) (selector : Int → α) :
    (Archived.decoded asNumber (some (nsNumber n))).map (fun n => selector (n.getD 0)) =
      some (selector n) := rfl

theorem mapM_written (reads : ∀ a, read (write a) = some a) (xs : List α) :
    (xs.map write).mapM read = some xs := by
  induction xs with
  | nil => rfl
  | cons x xs ih => simp [reads, ih]

theorem decoded_array (reads : ∀ a, read (write a) = some a) (x : Option (List α)) :
    Archived.decoded (asArray read) (x.map fun xs => .array (xs.map write)) = some x :=
  Archived.decoded_map fun xs _ => mapM_written reads xs

end Readers

@[simp] theorem decoded_strings (x : Option (List String)) :
    Archived.decoded (asArray asString) (x.map fun xs => .array (xs.map nsString)) = some x :=
  @decoded_array _ asString nsString (fun _ => rfl) x

theorem certificate_decodes (c : MOLCertificate) :
    MOLCertificate.initWithCoder c.encodeWithCoder = some c := by
  rw [MOLCertificate.encodeWithCoder, encode, Archived.encoded_some, MOLCertificate.initWithCoder,
    List.lookup_cons_self]
  exact dif_pos c.nonempty

@[simp] theorem decoded_certificates (x : Option (List MOLCertificate)) :
    Archived.decoded (asArray MOLCertificate.initWithCoder)
      (x.map fun xs => .array (xs.map MOLCertificate.encodeWithCoder)) = some x :=
  decoded_array certificate_decodes x

theorem decoded_dictionary (x : Option NSDictionary) :
    Archived.decoded asDictionary (x.map (.object .dictionary)) =
      if x.all (Archived.permittedFields Plain.kind .array .dictionary dictionaryClasses) then
        some x
      else none := by
  cases x with
  | none => rfl
  | some entries =>
    rw [Option.map_some, Option.all_some, Archived.decoded, asDictionary]
    split
    · rfl
    · rfl

@[simp] theorem boolValue_ofBool (b : Bool) : boolValue (ofBool b) = b := by
  cases b with
  | false => rfl
  | true => rfl

@[simp] theorem unsignedIntValue_toNat (x : UInt32) : UInt32.ofInt x.toNat = x := by
  have small := x.toNat_lt
  rw [UInt32.ofInt, Int.emod_eq_of_lt (by omega) (by omega), Int.toNat_natCast,
    UInt32.ofNat_toNat]

@[simp] theorem unsignedLongLongValue_toNat (x : UInt64) : UInt64.ofInt x.toNat = x := by
  have small := x.toNat_lt
  rw [UInt64.ofInt, Int.emod_eq_of_lt (by omega) (by omega), Int.toNat_natCast,
    UInt64.ofNat_toNat]

theorem ofRawValue_rawValue {α : Type} [DecidableEq α] {cases : List α} {a : α}
    (listed : a ∈ cases) : ofRawValue cases (rawValue cases a) = some a := by
  have index : ¬((cases.idxOf a : Int) < 0) := by omega
  rw [ofRawValue, rawValue, if_neg index, Int.toNat_natCast]
  exact List.getElem?_idxOf listed

@[simp] theorem signingStatus_rawValue (status : SNTSigningStatus) :
    ofRawValue SNTSigningStatus.cases (rawValue SNTSigningStatus.cases status) = some status :=
  ofRawValue_rawValue (by cases status <;> decide)

@[simp] theorem policyDecision_rawValue (d : FileAccessPolicyDecision) :
    ofRawValue FileAccessPolicyDecision.cases (rawValue FileAccessPolicyDecision.cases d) =
      some d :=
  ofRawValue_rawValue (by cases d <;> decide)

@[simp] theorem enterReason_rawValue (reason : EnterReason) :
    ofRawValue EnterReason.cases (rawValue EnterReason.cases reason) = some reason :=
  ofRawValue_rawValue (by cases reason <;> decide)

@[simp] theorem leaveReason_rawValue (reason : LeaveReason) :
    ofRawValue LeaveReason.cases (rawValue LeaveReason.cases reason) = some reason :=
  ofRawValue_rawValue (by cases reason <;> decide)

theorem base_decodes {e : SNTStoredEvent} {fields : List (String × Option NSObject)}
    (distinct : ((e.encodeWithCoder ++ fields).map Prod.fst).Nodup) :
    SNTStoredEvent.initWithCoder (Archived.encoded (e.encodeWithCoder ++ fields)) = some e := by
  simp only [SNTStoredEvent.initWithCoder, decode, Archived.lookup_encoded distinct]
  rfl

theorem execution_keys (e : SNTStoredExecutionEvent) : (e.encodeWithCoder.map Prod.fst).Nodup := by
  simp only [SNTStoredExecutionEvent.encodeWithCoder, SNTStoredEvent.encodeWithCoder, encode,
    encodeBoxable, List.map_append, List.map_cons, List.map_nil]
  decide +kernel

theorem execution_decodes (e : SNTStoredExecutionEvent) :
    SNTStoredExecutionEvent.initWithCoder (Archived.encoded e.encodeWithCoder) =
      if (StoredEvent.execution e).permittedEntitlements then some e else none := by
  have distinct := execution_keys e
  have base : SNTStoredEvent.initWithCoder (Archived.encoded e.encodeWithCoder) =
      some e.toSNTStoredEvent := base_decodes distinct
  simp only [SNTStoredExecutionEvent.initWithCoder, base, decode, decodeArray, decodeDict,
    decodeSelector, Archived.lookup_encoded distinct]
  simp only [SNTStoredExecutionEvent.encodeWithCoder, SNTStoredEvent.encodeWithCoder, encode,
    encodeBoxable]
  simp [List.lookup_cons, decoded_dictionary]
  rw [StoredEvent.permittedEntitlements]
  split
  · rfl
  · rfl

theorem decodeParent_eq (decoder : NSCoder) :
    decodeParent decoder = decode decoder "parent" SNTStoredFileAccessProcess.initWithCoder := by
  induction decoder with
  | nil => rfl
  | cons f decoder ih =>
    obtain ⟨key, o⟩ := f
    rw [decodeParent]
    by_cases parent : key = "parent"
    · rw [if_pos parent, decode, parent, List.lookup_cons_self]
      rfl
    · have other : ("parent" == key) = false := by simpa using Ne.symm parent
      rw [if_neg parent, ih, decode, decode, List.lookup_cons, other]

theorem process_fields_decode {p : SNTStoredFileAccessProcess} {parent : Option NSObject}
    (decoded : Archived.decoded SNTStoredFileAccessProcess.initWithCoder parent = some p.parent) :
    SNTStoredFileAccessProcess.initWithCoder
      (.object .storedFileAccessProcess (Archived.encoded (p.fields parent))) = some p := by
  have distinct : ((p.fields parent).map Prod.fst).Nodup := by
    simp only [SNTStoredFileAccessProcess.fields, encode, List.map_cons, List.map_nil]
    decide +kernel
  rw [SNTStoredFileAccessProcess.initWithCoder, decodeParent_eq]
  simp only [decode, decodeArray, Archived.lookup_encoded distinct]
  simp [SNTStoredFileAccessProcess.fields, encode, List.lookup_cons, decoded]
  cases p with
  | mk => rfl

theorem process_decodes : ∀ p : SNTStoredFileAccessProcess,
    SNTStoredFileAccessProcess.initWithCoder p.encodeWithCoder = some p
  | ⟨filePath, cdhash, fileSHA256, signingID, signingChain, teamID, pid, executingUser, none⟩ => by
    rw [SNTStoredFileAccessProcess.encodeWithCoder]
    exact process_fields_decode rfl
  | ⟨filePath, cdhash, fileSHA256, signingID, signingChain, teamID, pid, executingUser,
      some parent⟩ => by
    rw [SNTStoredFileAccessProcess.encodeWithCoder]
    apply process_fields_decode
    rw [Archived.decoded, process_decodes parent]
    rfl

theorem fileAccess_decodes (e : SNTStoredFileAccessEvent) :
    SNTStoredFileAccessEvent.initWithCoder (Archived.encoded e.encodeWithCoder) = some e := by
  have distinct : (e.encodeWithCoder.map Prod.fst).Nodup := by
    simp only [SNTStoredFileAccessEvent.encodeWithCoder, SNTStoredEvent.encodeWithCoder, encode,
      encodeBoxable, List.map_append, List.map_cons, List.map_nil]
    decide +kernel
  have base : SNTStoredEvent.initWithCoder (Archived.encoded e.encodeWithCoder) =
      some e.toSNTStoredEvent := base_decodes distinct
  have process : Archived.decoded SNTStoredFileAccessProcess.initWithCoder
      (e.process.map SNTStoredFileAccessProcess.encodeWithCoder) = some e.process :=
    Archived.decoded_map fun p _ => process_decodes p
  simp only [SNTStoredFileAccessEvent.initWithCoder, base, decode, decodeSelector,
    Archived.lookup_encoded distinct]
  simp [SNTStoredFileAccessEvent.encodeWithCoder, SNTStoredEvent.encodeWithCoder, encode,
    encodeBoxable, List.lookup_cons, process]

theorem audit_decodes {e : SNTStoredTemporaryMonitorModeAuditEvent}
    {fields : List (String × Option NSObject)}
    (distinct : ((e.encodeWithCoder ++ fields).map Prod.fst).Nodup) :
    SNTStoredTemporaryMonitorModeAuditEvent.initWithCoder
      (Archived.encoded (e.encodeWithCoder ++ fields)) = some e := by
  have base : SNTStoredEvent.initWithCoder (Archived.encoded (e.encodeWithCoder ++ fields)) =
      some e.toSNTStoredEvent := by
    rw [SNTStoredTemporaryMonitorModeAuditEvent.encodeWithCoder, List.append_assoc] at distinct ⊢
    exact base_decodes distinct
  simp only [SNTStoredTemporaryMonitorModeAuditEvent.initWithCoder, base, decode,
    Archived.lookup_encoded distinct]
  simp [SNTStoredTemporaryMonitorModeAuditEvent.encodeWithCoder, SNTStoredEvent.encodeWithCoder,
    encode, List.lookup_cons]
  rfl

theorem enter_decodes (e : SNTStoredTemporaryMonitorModeEnterAuditEvent) :
    SNTStoredTemporaryMonitorModeEnterAuditEvent.initWithCoder
      (Archived.encoded e.encodeWithCoder) = some e := by
  have distinct : (e.encodeWithCoder.map Prod.fst).Nodup := by
    simp only [SNTStoredTemporaryMonitorModeEnterAuditEvent.encodeWithCoder,
      SNTStoredTemporaryMonitorModeAuditEvent.encodeWithCoder, SNTStoredEvent.encodeWithCoder,
      encode, encodeBoxable, List.map_append, List.map_cons, List.map_nil]
    decide +kernel
  have base : SNTStoredTemporaryMonitorModeAuditEvent.initWithCoder
      (Archived.encoded e.encodeWithCoder) = some e.toSNTStoredTemporaryMonitorModeAuditEvent :=
    audit_decodes distinct
  simp only [SNTStoredTemporaryMonitorModeEnterAuditEvent.initWithCoder, base, decodeSelector,
    decode, Archived.lookup_encoded distinct]
  simp [SNTStoredTemporaryMonitorModeEnterAuditEvent.encodeWithCoder,
    SNTStoredTemporaryMonitorModeAuditEvent.encodeWithCoder, SNTStoredEvent.encodeWithCoder,
    encode, encodeBoxable, List.lookup_cons]

theorem leave_decodes (e : SNTStoredTemporaryMonitorModeLeaveAuditEvent) :
    SNTStoredTemporaryMonitorModeLeaveAuditEvent.initWithCoder
      (Archived.encoded e.encodeWithCoder) = some e := by
  have distinct : (e.encodeWithCoder.map Prod.fst).Nodup := by
    simp only [SNTStoredTemporaryMonitorModeLeaveAuditEvent.encodeWithCoder,
      SNTStoredTemporaryMonitorModeAuditEvent.encodeWithCoder, SNTStoredEvent.encodeWithCoder,
      encode, encodeBoxable, List.map_append, List.map_cons, List.map_nil]
    decide +kernel
  have base : SNTStoredTemporaryMonitorModeAuditEvent.initWithCoder
      (Archived.encoded e.encodeWithCoder) = some e.toSNTStoredTemporaryMonitorModeAuditEvent :=
    audit_decodes distinct
  simp only [SNTStoredTemporaryMonitorModeLeaveAuditEvent.initWithCoder, base, decodeSelector,
    decode, Archived.lookup_encoded distinct]
  simp [SNTStoredTemporaryMonitorModeLeaveAuditEvent.encodeWithCoder,
    SNTStoredTemporaryMonitorModeAuditEvent.encodeWithCoder, SNTStoredEvent.encodeWithCoder,
    encode, encodeBoxable, List.lookup_cons]

theorem unarchivedObject_archivedData (e : StoredEvent) :
    StoredEvent.unarchivedObject e.archivedData =
      if e.permittedEntitlements then some e else none := by
  cases e with
  | execution e =>
    rw [StoredEvent.archivedData, StoredEvent.unarchivedObject, execution_decodes]
    split
    · rfl
    · rfl
  | fileAccess e =>
    rw [StoredEvent.archivedData, StoredEvent.unarchivedObject, fileAccess_decodes]
    rfl
  | temporaryMonitorModeEnter e =>
    rw [StoredEvent.archivedData, StoredEvent.unarchivedObject, enter_decodes]
    rfl
  | temporaryMonitorModeLeave e =>
    rw [StoredEvent.archivedData, StoredEvent.unarchivedObject, leave_decodes]
    rfl

theorem eq_of_archivedData {e e' : StoredEvent} (permitted : e.permittedEntitlements = true)
    (same : e.archivedData = e'.archivedData) : e = e' := by
  have read := unarchivedObject_archivedData e
  rw [if_pos permitted, same, unarchivedObject_archivedData] at read
  by_cases permitted' : e'.permittedEntitlements = true
  · rw [if_pos permitted'] at read
    exact (Option.some.inj read).symm
  · rw [if_neg permitted'] at read
    cases read

theorem uniqueID_of_archivedData {e e' : StoredEvent} (same : e.archivedData = e'.archivedData) :
    e.uniqueID = e'.uniqueID := by
  by_cases permitted : e.permittedEntitlements = true
  · rw [eq_of_archivedData permitted same]
  by_cases permitted' : e'.permittedEntitlements = true
  · rw [eq_of_archivedData permitted' same.symm]
  -- Only executions carry entitlements.
  cases e with
  | execution e =>
    cases e' with
    | execution e' =>
      have fields : Archived.encoded e.encodeWithCoder = Archived.encoded e'.encodeWithCoder :=
        (Archived.object.inj same).2
      have hash := congrArg (List.lookup "fileSHA256") fields
      rw [Archived.lookup_encoded (execution_keys e),
        Archived.lookup_encoded (execution_keys e')] at hash
      have hash : e.fileSHA256.map nsString = e'.fileSHA256.map nsString := hash
      have injective : Function.Injective nsString := by
        intro s t equal
        cases equal
        rfl
      exact Option.map_injective injective hash
    | fileAccess e' => exact absurd rfl permitted'
    | temporaryMonitorModeEnter e' => exact absurd rfl permitted'
    | temporaryMonitorModeLeave e' => exact absurd rfl permitted'
  | fileAccess e => exact absurd rfl permitted
  | temporaryMonitorModeEnter e => exact absurd rfl permitted
  | temporaryMonitorModeLeave e => exact absurd rfl permitted

end SantaStoredEvents
