import Santa.FileAccess.FAAPolicyProcessor
import Santa.Logs.SanitizableString
import Mathlib.Algebra.Group.Nat.Defs
import Mathlib.Data.List.Nodup
import Mathlib.Data.Nat.Notation

/-!
What the event log says of each kind of message: an action and then named values. Most strings
that come from outside pass the sanitizer, the others are written as they are. What a URL's path
is, and what the registry and the file system tell about a disk, is looked up elsewhere. The
names of a line are columns of its kind, in their order, whatever the message holds.
-/
namespace SantaBasicString
open SantaSanitizableString
open SantaPolicy (SNTCachedDecision SNTClientMode SNTEventState)
open SantaFAA (FileAccessPolicyDecision)

def utf8 (s : String) : Bytes := s.toUTF8.data.toList

def cString (memory : Bytes) : Bytes := memory.takeWhile (· ≠ 0)

def utf8String (s : String) : Bytes := cString (utf8 s)

def equals : UInt8 := '='.toUInt8
def pipe : UInt8 := '|'.toUInt8
def newline : UInt8 := '\n'.toUInt8
def slash : UInt8 := '/'.toUInt8

structure Name where
  text : Bytes
  plain : Plain text
  unequal : equals ∉ text

def name (s : String) (free : Plain (utf8 s) ∧ equals ∉ utf8 s := by decide) : Name :=
  ⟨utf8 s, free.1, free.2⟩

def noName : Name := name ""

instance : Append Name where
  append first second :=
    ⟨first.text ++ second.text, plain_append.mpr ⟨first.plain, second.plain⟩, by
      rw [List.mem_append, not_or]
      exact ⟨first.unequal, second.unequal⟩⟩

inductive Piece where
  | word (text : Bytes) (plain : Plain text)
  | number (n : ℤ)
  | hex (digits : List (Fin 16))
  | sanitized (t : Token)
  /-- The last component of a sanitized path. -/
  | baseName (t : Token)
  /-- Written as it is. -/
  | raw (text : Bytes)

abbrev Value := List Piece

def word (s : String) (plain : Plain (utf8 s) := by decide) : Value := [.word (utf8 s) plain]

/-- One with no value is left out. -/
structure Field where
  name : Name
  value : Option Value

def field (n : Name) (v : Value) : Field := ⟨n, some v⟩

def nsString (s : String) : Token :=
  ⟨utf8 s ++ [0], (utf8 s).length, by rw [List.length_append]; exact Nat.le_add_right _ _⟩

def decimal (n : ℤ) : Bytes :=
  chars ((if n < 0 then ['-'] else []) ++ Nat.toDigits 10 n.natAbs)

theorem mod_sixteen_lt (n : ℕ) : n % 16 < 16 := Nat.mod_lt n (by decide)

def hexDigit (n : ℕ) : Fin 16 := ⟨n % 16, mod_sixteen_lt n⟩

def hexOf (buf : Bytes) : List (Fin 16) :=
  buf.flatMap fun b => [hexDigit (b.toNat / 16), hexDigit b.toNat]

def hex32 (n : UInt32) : List (Fin 16) :=
  (List.range 8).reverse.map fun i => hexDigit (n.toNat / 16 ^ i)

/-! ### Texts of enumerations -/

def getDecisionString (eventState : SNTEventState) : Value :=
  if eventState.isAllowCompiler then word "ALLOW_COMPILER"
  else if eventState.isAllow then word "ALLOW"
  else if eventState.isBlock then word "DENY"
  else word "UNKNOWN"

def getReasonString : SNTEventState → Value
  | .allowBinary | .allowLocalBinary | .allowCompilerBinary | .blockBinary => word "BINARY"
  | .allowTransitive => word "TRANSITIVE"
  | .allowPendingTransitive => word "PENDING_TRANSITIVE"
  | .allowCertificate | .blockCertificate => word "CERT"
  | .allowScope | .blockScope => word "SCOPE"
  | .allowTeamID | .blockTeamID => word "TEAMID"
  | .allowLocalSigningID | .allowSigningID | .allowCompilerSigningID | .blockSigningID =>
      word "SIGNINGID"
  | .allowCDHash | .allowCompilerCDHash | .blockCDHash => word "CDHASH"
  | .blockLongPath => word "LONG_PATH"
  | .allowUnknown | .blockUnknown | .unknown => word "UNKNOWN"

def getModeString : SNTClientMode → Value
  | .monitor => word "M"
  | .lockdown => word "L"
  | .standalone => word "S"
  | .unknown => word "U"

inductive AuthEventType where
  | clone | copyfile | create | exchangedata | link | openFile | rename | truncate | unlink
  | other (n : ℕ)
  deriving DecidableEq, Repr

def getAccessTypeString : AuthEventType → Value
  | .clone => word "CLONE"
  | .copyfile => word "COPYFILE"
  | .create => word "CREATE"
  | .exchangedata => word "EXCHANGEDATA"
  | .link => word "LINK"
  | .openFile => word "OPEN"
  | .rename => word "RENAME"
  | .truncate => word "TRUNCATE"
  | .unlink => word "UNLINK"
  | .other n => word "UNKNOWN_TYPE_" ++ [.number n]

def getBoolString (val : Bool) : Value := if val then word "true" else word "false"

def getFileAccessPolicyDecisionString : FileAccessPolicyDecision → Value
  | .noPolicy => word "NO_POLICY"
  | .denied => word "DENIED"
  | .deniedInvalidSignature => word "DENIED_INVALID_SIGNATURE"
  | .allowed => word "ALLOWED"
  | .allowedReadAccess => word "ALLOWED_READ_ACCESS"
  | .allowedAuditOnly => word "AUDIT_ONLY"

inductive AddressType where
  | none | ipv4 | ipv6 | namedSocket | other
  deriving DecidableEq, Repr

def addressTypeString : AddressType → Value
  | .none => word "none"
  | .ipv4 => word "ipv4"
  | .ipv6 => word "ipv6"
  | .namedSocket => word "named_socket"
  | .other => word "unknown"

inductive OpenSSHLoginResult where
  | exceedMaxtries | rootDenied | success | failNone | failPasswd | failKbdint | failPubkey
  | failHostbased | failGssapi | invalidUser | other
  deriving DecidableEq, Repr

def getOpenSSHLoginResult : OpenSSHLoginResult → Value
  | .exceedMaxtries => word "LOGIN_EXCEED_MAXTRIES"
  | .rootDenied => word "LOGIN_ROOT_DENIED"
  | .success => word "AUTH_SUCCESS"
  | .failNone => word "AUTH_FAIL_NONE"
  | .failPasswd => word "AUTH_FAIL_PASSWD"
  | .failKbdint => word "AUTH_FAIL_KBDINT"
  | .failPubkey => word "AUTH_FAIL_PUBKEY"
  | .failHostbased => word "AUTH_FAIL_HOSTBASED"
  | .failGssapi => word "AUTH_FAIL_GSSAPI"
  | .invalidUser => word "INVALID_USER"
  | .other => word "UNKNOWN"

inductive TouchIDMode where
  | verification | identification | other
  deriving DecidableEq, Repr

def getAuthenticationTouchIDModeString : TouchIDMode → Value
  | .verification => word "VERIFICATION"
  | .identification => word "IDENTIFICATION"
  | .other => word "UNKNOWN"

inductive AutoUnlockType where
  | machineUnlock | authPrompt | other
  deriving DecidableEq, Repr

def getAuthenticationAutoUnlockTypeString : AutoUnlockType → Value
  | .machineUnlock => word "MACHINE_UNLOCK"
  | .authPrompt => word "AUTH_PROMPT"
  | .other => word "UNKNOWN"

inductive BTMItemType where
  | userItem | app | loginItem | agent | daemon | other
  deriving DecidableEq, Repr

def getBTMLaunchItemTypeString : BTMItemType → Value
  | .userItem => word "USER_ITEM"
  | .app => word "APP"
  | .loginItem => word "LOGIN_ITEM"
  | .agent => word "AGENT"
  | .daemon => word "DAEMON"
  | .other => word "UNKNOWN"

inductive TCCIdentityType where
  | bundleID | executablePath | policyID | fileProviderDomainID | other
  deriving DecidableEq, Repr

def getTCCIdentityTypeString : TCCIdentityType → Value
  | .bundleID => word "BUNDLE_ID"
  | .executablePath => word "EXECUTABLE_PATH"
  | .policyID => word "POLICY_ID"
  | .fileProviderDomainID => word "FILE_PROVIDER_DOMAIN_ID"
  | .other => word "UNKNOWN"

inductive TCCEventType where
  | create | modify | delete | other
  deriving DecidableEq, Repr

def getTCCEventTypeString : TCCEventType → Value
  | .create => word "CREATE"
  | .modify => word "MODIFY"
  | .delete => word "DELETE"
  | .other => word "UNKNOWN"

inductive TCCAuthorizationRight where
  | denied | unknown | allowed | limited | addModifyAdded | sessionPid | learnMore | other
  deriving DecidableEq, Repr

def getTCCAuthorizationRightString : TCCAuthorizationRight → Value
  | .denied => word "DENIED"
  | .unknown => word "UNKNOWN"
  | .allowed => word "ALLOWED"
  | .limited => word "LIMITED"
  | .addModifyAdded => word "ADD_MODIFY_ADDED"
  | .sessionPid => word "SESSION_PID"
  | .learnMore => word "LEARN_MORE"
  | .other => word "UNKNOWN"

inductive TCCAuthorizationReason where
  | none | error | userConsent | userSet | systemSet | servicePolicy | mdmPolicy
  | serviceOverridePolicy | missingUsageString | promptTimeout | preflightUnknown | entitled
  | appTypePolicy | promptCancel | other
  deriving DecidableEq, Repr

def getTCCAuthorizationReasonString : TCCAuthorizationReason → Value
  | .none => word "NONE"
  | .error => word "ERROR"
  | .userConsent => word "USER_CONSENT"
  | .userSet => word "USER_SET"
  | .systemSet => word "SYSTEM_SET"
  | .servicePolicy => word "SERVICE_POLICY"
  | .mdmPolicy => word "MDM_POLICY"
  | .serviceOverridePolicy => word "SERVICE_OVERRIDE_POLICY"
  | .missingUsageString => word "MISSING_USAGE_STRING"
  | .promptTimeout => word "PROMPT_TIMEOUT"
  | .preflightUnknown => word "PREFLIGHT_UNKNOWN"
  | .entitled => word "ENTITLED"
  | .appTypePolicy => word "APP_TYPE_POLICY"
  | .promptCancel => word "PROMPT_CANCEL"
  | .other => word "UNKNOWN"

/-! ### Fields of several lines -/

structure AuditToken where
  pid : Int32
  pidversion : Int32
  ruid : UInt32
  rgid : UInt32

structure Process where
  auditToken : AuditToken
  originalPpid : Int32
  codesigningFlags : UInt32
  executable : Token

structure EnrichedProcess where
  realUser : Option Bytes
  realGroup : Option Bytes

structure EventInstigator where
  process : Option Process
  enriched : Option EnrichedProcess
  token : Option AuditToken

structure SocketAddress where
  type : AddressType
  address : Token

/-- A user or group is written as a signed number. -/
def signed (uid : UInt32) : Value := [.number uid.toInt32.toInt]

/-- The C string of a token, which is not sanitized. -/
def tokenData (t : Token) : Value := [.raw (cString t.data)]

def Token.present (t : Token) (v : Value) : Option Value := if t.length > 0 then some v else none

def appendProcess (proc : Process) (pre : Name := noName) : List Field :=
  [field (pre ++ name "pid") [.number proc.auditToken.pid.toInt],
    field (pre ++ name "ppid") [.number proc.originalPpid.toInt],
    field (pre ++ name "process") [.baseName proc.executable],
    field (pre ++ name "processpath") [.sanitized proc.executable]]

def userText (user : Option Bytes) : Value :=
  match user with
  | some user => [.raw (cString user)]
  | none => word "(null)"

def appendUserGroup (tok : AuditToken) (enriched : EnrichedProcess) (pre : Name := noName) :
    List Field :=
  [field (pre ++ name "uid") (signed tok.ruid),
    field (pre ++ name "user") (userText enriched.realUser),
    field (pre ++ name "gid") (signed tok.rgid),
    field (pre ++ name "group") (userText enriched.realGroup)]

def appendEventUser (user : Token) (uid : Option UInt32) (pre : Name := name "event_") :
    List Field :=
  [⟨pre ++ name "user", Token.present user (tokenData user)⟩,
    ⟨pre ++ name "uid", uid.map signed⟩]

def appendEventUserName (user : Option Bytes) (uid : UInt32) (pre : Name := name "event_") :
    List Field :=
  let length := match user with
    | some user => user.length
    | none => 0
  [⟨pre ++ name "user", if length > 0 then user.map fun user => [.raw (cString user)] else none⟩,
    ⟨pre ++ name "uid", some (signed uid)⟩]

def appendInstigator (proc : Process) (enriched : EnrichedProcess) (pre : Name := noName) :
    List Field :=
  appendProcess proc pre ++ appendUserGroup proc.auditToken enriched pre

def appendGraphicalSession (sessionID : UInt32) : List Field :=
  [field (name "graphical_session_id") [.number sessionID.toNat]]

def appendSocketAddress (addr : SocketAddress) : List Field :=
  [field (name "address_type") (addressTypeString addr.type),
    ⟨name "address", Token.present addr.address [.sanitized addr.address]⟩]

def appendEventInstigatorOrFallback (version : ℕ) (event : EventInstigator)
    (pre : Name := name "auth_") : List Field :=
  match event.process, event.enriched with
  | some process, some enriched => appendInstigator process enriched pre
  | _, _ =>
      if version ≥ 8 then
        [⟨pre ++ name "pid", event.token.map fun tok => [.number tok.pid.toInt]⟩,
          ⟨pre ++ name "pidver", event.token.map fun tok => [.number tok.pidversion.toInt]⟩]
      else []

def appendStringToken (key : Name) (val : Token) : Field :=
  ⟨key, Token.present val (tokenData val)⟩

/-! ### Messages -/

structure Instigator where
  process : Process
  enriched : EnrichedProcess

inductive Destination where
  | existingFile (file : Token)
  | newPath (dir filename : Token)
  | other

structure LoginWindowSession where
  username : Token
  uid : Option UInt32
  graphicalSessionID : UInt32

structure ScreenSharingAttach where
  success : Bool
  source : SocketAddress
  viewerAppleID : Token
  authenticationType : Token
  authenticationUsername : Token
  sessionUsername : Token
  existingSession : Bool
  graphicalSessionID : UInt32

structure ScreenSharingDetach where
  source : SocketAddress
  viewerAppleID : Token
  graphicalSessionID : UInt32

structure BTMItem where
  itemType : BTMItemType
  legacy : Bool
  managed : Bool
  username : Option Bytes
  uid : UInt32
  itemURL : Token
  appURL : Token

structure XProtectRemediated where
  signatureVersion : Token
  malwareIdentifier : Token
  incidentIdentifier : Token
  actionType : Token
  success : Bool
  resultDescription : Token
  remediatedPath : Token
  remediatedProcess : Option AuditToken

inductive GatekeeperFile where
  | path (path : Token)
  | file (file : Token)
  | other

structure SigningInfo where
  teamID : Token
  signingID : Token
  cdhash : Bytes

structure TCCModification where
  updateType : TCCEventType
  service : Token
  identity : Token
  identityType : TCCIdentityType
  right : TCCAuthorizationRight
  reason : TCCAuthorizationReason

structure FileAccess where
  policyVersion : Bytes
  policyName : Bytes
  pathTarget : Option Bytes
  accessType : AuthEventType
  decision : FileAccessPolicyDecision
  operationID : Bytes

structure BundleEvent where
  fileSHA256 : Option String
  fileBundleHash : Option String
  fileBundleName : Option String
  fileBundleID : Option String
  fileBundlePath : Option String
  filePath : Option String

structure DiskProperties where
  deviceVendor : Option String
  deviceModel : Option String
  volumePath : Option String
  volumeName : Option String
  mediaBSDName : Option String
  volumeKind : Option String
  deviceProtocol : Option String
  appearance : String
  mountFromName : Option String
  diskImageForDevice : Option String
  serialForDevice : Option String
  statfsMountFrom : Option String

inductive Message where
  | close (msg : Instigator) (target : Token)
  | exchange (msg : Instigator) (file1 file2 : Token)
  | exec (msg : Instigator) (cd : Option SNTCachedDecision) (certCommonName : Option String)
      (target : Process) (origPath : Option String) (args : List Token)
  | exit (process : Process)
  | fork (child : Process)
  | link (msg : Instigator) (source targetDir targetFilename : Token)
  | rename (msg : Instigator) (source : Token) (destination : Destination)
  | unlink (msg : Instigator) (target : Token)
  | csInvalidated (msg : Instigator)
  | clone (msg : Instigator) (source targetDir targetName : Token)
  | copyfile (msg : Instigator) (source targetDir targetName : Token)
  | loginWindowSessionLogin (msg : Instigator) (event : LoginWindowSession)
  | loginWindowSessionLogout (msg : Instigator) (event : LoginWindowSession)
  | loginWindowSessionLock (msg : Instigator) (event : LoginWindowSession)
  | loginWindowSessionUnlock (msg : Instigator) (event : LoginWindowSession)
  | screenSharingAttach (msg : Instigator) (event : ScreenSharingAttach)
  | screenSharingDetach (msg : Instigator) (event : ScreenSharingDetach)
  | openSSHLogin (msg : Instigator) (success : Bool) (resultType : OpenSSHLoginResult)
      (source : SocketAddress) (username : Token) (uid : Option UInt32)
  | openSSHLogout (msg : Instigator) (source : SocketAddress) (username : Token) (uid : UInt32)
  | loginLogin (msg : Instigator) (success : Bool) (failureMessage username : Token)
      (uid : Option UInt32)
  | loginLogout (msg : Instigator) (username : Token) (uid : UInt32)
  | authenticationOD (msg : Instigator) (version : ℕ) (event : EventInstigator) (success : Bool)
      (recordType recordName nodeName dbPath : Token)
  | authenticationTouchID (msg : Instigator) (version : ℕ) (event : EventInstigator)
      (success : Bool) (mode : TouchIDMode) (username : Option Bytes) (uid : Option UInt32)
  | authenticationToken (msg : Instigator) (version : ℕ) (event : EventInstigator)
      (success : Bool) (pubkeyHash tokenID kerberosPrincipal : Token)
  | authenticationAutoUnlock (msg : Instigator) (success : Bool) (username : Token)
      (uid : Option UInt32) (type : AutoUnlockType)
  | launchItemAdd (msg : Instigator) (version : ℕ) (event : EventInstigator)
      (executablePath : Token) (item : BTMItem)
  | launchItemRemove (msg : Instigator) (version : ℕ) (event : EventInstigator) (item : BTMItem)
  | xProtectDetected (msg : Instigator)
      (signatureVersion malwareIdentifier incidentIdentifier detectedPath : Token)
  | xProtectRemediated (event : XProtectRemediated)
  | gatekeeperOverride (msg : Instigator) (file : GatekeeperFile) (sha256 : Option Bytes)
      (signingInfo : Option SigningInfo)
  | tccModification (msg : Instigator) (version : ℕ) (event : EventInstigator)
      (modification : TCCModification)
  | fileAccess (msg : Instigator) (access : FileAccess)
  | allowlist (process : Process) (target : Token) (hash : Bytes)
  | bundleHashing (event : BundleEvent)
  | diskAppeared (props : DiskProperties) (allowed : Bool)
  | diskDisappeared (props : DiskProperties)

def nonNull (s : Option String) : Value := [.raw (utf8String (s.getD ""))]

def isWhitespace (c : Char) : Bool :=
  c.toNat ∈ [0x9, 0x20, 0xa0, 0x1680, 0x202f, 0x205f, 0x3000] ∨
    (0x2000 ≤ c.toNat ∧ c.toNat ≤ 0x200a)

def trimmingWhitespace (s : String) : String :=
  .ofList (((s.toList.dropWhile isWhitespace).reverse.dropWhile isWhitespace).reverse)

def sanitizedString (s : Option String) : Value :=
  match s with
  | some s => [.sanitized (nsString s)]
  | none => []

def argsText : List Token → Value
  | [] => []
  | arg :: args => .sanitized arg :: args.flatMap fun arg => word " " ++ [.sanitized arg]

section
variable (urlPath : Bytes → Option Bytes)

def normalizePath (path : Token) : Option Bytes :=
  if path.length = 0 then none else urlPath (cString path.data)

def description (path : Option Bytes) : Bytes := path.getD (utf8 "(null)")

def concatPrefixIfRelativePath (path pre : Token) : Option Bytes :=
  if path.length = 0 then none
  else
    let normalizedPath := normalizePath urlPath path
    if ¬ normalizedPath.any (·.head? = some slash) ∧ pre.length > 0 then
      some (description (normalizePath urlPath pre) ++ [slash] ++ description normalizedPath)
    else normalizedPath

def appPath (appURL : Token) : Option Value :=
  Token.present appURL [.raw ((normalizePath urlPath appURL).getD [])]

def serializeExec (msg : Instigator) (cd : Option SNTCachedDecision)
    (certCommonName : Option String) (target : Process) (origPath : Option String)
    (args : List Token) : List Field :=
  -- what is asked of a decision that is not there is zero
  let decision := cd.getD .new
  [field (name "decision") (getDecisionString decision.decision),
    field (name "reason") (getReasonString decision.decision),
    ⟨name "explain", decision.decisionExtra.map fun s => [.raw (utf8String s)]⟩,
    ⟨name "sha256", decision.sha256.map fun s => [.raw (utf8String s)]⟩,
    ⟨name "cert_sha256", decision.certSHA256.map fun s => [.raw (utf8String s)]⟩,
    ⟨name "cert_cn", decision.certSHA256.map fun _ => sanitizedString certCommonName⟩,
    ⟨name "teamid", (decision.teamID.filter (· ≠ "")).map fun s => [.raw (utf8String s)]⟩,
    ⟨name "quarantine_url", decision.quarantineURL.map fun s => [.sanitized (nsString s)]⟩,
    field (name "pid") [.number target.auditToken.pid.toInt],
    field (name "pidversion") [.number target.auditToken.pidversion.toInt],
    field (name "ppid") [.number target.originalPpid.toInt]] ++
  appendUserGroup target.auditToken msg.enriched ++
  [field (name "mode") (getModeString decision.decisionClientMode),
    field (name "path") [.sanitized target.executable],
    ⟨name "origpath", origPath.map fun s => [.sanitized (nsString s)]⟩,
    ⟨name "args", if args.length > 0 then some (argsText args) else none⟩]

def identityFields (proc : Process) : List Field :=
  [field (name "pid") [.number proc.auditToken.pid.toInt],
    field (name "pidversion") [.number proc.auditToken.pidversion.toInt],
    field (name "ppid") [.number proc.originalPpid.toInt],
    field (name "uid") (signed proc.auditToken.ruid),
    field (name "gid") (signed proc.auditToken.rgid)]

def under (dir filename : Token) : Value := [.sanitized dir] ++ word "/" ++ [.sanitized filename]

def destinationPath : Destination → Value
  | .existingFile file => [.sanitized file]
  | .newPath dir filename => under dir filename
  | .other => word "(null)"

def Instigator.append (msg : Instigator) : List Field := appendInstigator msg.process msg.enriched

def sessionFields (msg : Instigator) (event : LoginWindowSession) : List Field :=
  msg.append ++ appendEventUser event.username event.uid ++
    appendGraphicalSession event.graphicalSessionID

def itemFields (item : BTMItem) : List Field :=
  [field (name "item_type") (getBTMLaunchItemTypeString item.itemType),
    field (name "legacy") (getBoolString item.legacy),
    field (name "managed") (getBoolString item.managed)] ++
  appendEventUserName item.username item.uid (name "item_")

def itemPaths (item : BTMItem) : List Field :=
  [⟨name "item_path",
      (concatPrefixIfRelativePath urlPath item.itemURL item.appURL).map fun path => [.raw path]⟩,
    ⟨name "app_path", appPath urlPath item.appURL⟩]

def gatekeeperTarget : GatekeeperFile → Value
  | .path path => [.sanitized path]
  | .file file => [.sanitized file]
  | .other => []

def diskModel (props : DiskProperties) : String :=
  trimmingWhitespace (props.deviceVendor.getD "" ++ " " ++ props.deviceModel.getD "")

def serializeDiskAppeared (props : DiskProperties) (allowed : Bool) : List Field :=
  let isImage := props.deviceModel = some "Disk Image"
  [field (name "mount") (nonNull props.volumePath),
    field (name "volume") (nonNull props.volumeName),
    field (name "bsdname") (nonNull props.mediaBSDName),
    field (name "fs") (nonNull props.volumeKind),
    field (name "model") (nonNull (some (diskModel props))),
    field (name "serial") (nonNull (if isImage then none else props.serialForDevice)),
    field (name "bus") (nonNull props.deviceProtocol),
    field (name "dmgpath") (nonNull (if isImage then props.diskImageForDevice else none)),
    field (name "appearance") (nonNull (some props.appearance)),
    field (name "mountfrom")
      (nonNull (if allowed then props.statfsMountFrom else props.mountFromName))]

def Message.action : Message → Value
  | .close .. => word "WRITE"
  | .exchange .. => word "EXCHANGE"
  | .exec .. => word "EXEC"
  | .exit .. => word "EXIT"
  | .fork .. => word "FORK"
  | .link .. => word "LINK"
  | .rename .. => word "RENAME"
  | .unlink .. => word "DELETE"
  | .csInvalidated .. => word "CODESIGNING_INVALIDATED"
  | .clone .. => word "CLONE"
  | .copyfile .. => word "COPYFILE"
  | .loginWindowSessionLogin .. => word "LOGIN_WINDOW_SESSION_LOGIN"
  | .loginWindowSessionLogout .. => word "LOGIN_WINDOW_SESSION_LOGOUT"
  | .loginWindowSessionLock .. => word "LOGIN_WINDOW_SESSION_LOCK"
  | .loginWindowSessionUnlock .. => word "LOGIN_WINDOW_SESSION_UNLOCK"
  | .screenSharingAttach .. => word "SCREEN_SHARING_ATTACH"
  | .screenSharingDetach .. => word "SCREEN_SHARING_DETACH"
  | .openSSHLogin .. => word "OPENSSH_LOGIN"
  | .openSSHLogout .. => word "OPENSSH_LOGOUT"
  | .loginLogin .. => word "LOGIN"
  | .loginLogout .. => word "LOGOUT"
  | .authenticationOD .. => word "AUTHENTICATION_OD"
  | .authenticationTouchID .. => word "AUTHENTICATION_TOUCHID"
  | .authenticationToken .. => word "AUTHENTICATION_TOKEN"
  | .authenticationAutoUnlock .. => word "AUTHENTICATION_AUTO_UNLOCK"
  | .launchItemAdd .. => word "LAUNCH_ITEM_ADD"
  | .launchItemRemove .. => word "LAUNCH_ITEM_REMOVE"
  | .xProtectDetected .. => word "XPROTECT_DETECTED"
  | .xProtectRemediated .. => word "XPROTECT_REMEDIATED"
  | .gatekeeperOverride .. => word "GATEKEEPER_OVERRIDE"
  | .tccModification .. => word "TCC_MODIFICATION"
  | .fileAccess .. => word "FILE_ACCESS"
  | .allowlist .. => word "ALLOWLIST"
  | .bundleHashing .. => word "BUNDLE"
  | .diskAppeared _ allowed => if allowed then word "DISKAPPEAR" else word "DISK_BLOCKED"
  | .diskDisappeared .. => word "DISKDISAPPEAR"

def Message.fields : Message → List Field
  | .close msg target => field (name "path") [.sanitized target] :: msg.append
  | .exchange msg file1 file2 =>
      field (name "path") [.sanitized file1] :: field (name "newpath") [.sanitized file2] ::
        msg.append
  | .exec msg cd certCommonName target origPath args =>
      serializeExec msg cd certCommonName target origPath args
  | .exit process => identityFields process
  | .fork child => identityFields child
  | .link msg source targetDir targetFilename =>
      field (name "path") [.sanitized source] ::
        field (name "newpath") (under targetDir targetFilename) :: msg.append
  | .rename msg source destination =>
      field (name "path") [.sanitized source] ::
        field (name "newpath") (destinationPath destination) :: msg.append
  | .unlink msg target => field (name "path") [.sanitized target] :: msg.append
  | .csInvalidated msg =>
      msg.append ++
        [field (name "codesigning_flags")
          (word "0x" ++ [.hex (hex32 msg.process.codesigningFlags)])]
  | .clone msg source targetDir targetName | .copyfile msg source targetDir targetName =>
      field (name "source") [.sanitized source] ::
        field (name "target") (under targetDir targetName) :: msg.append
  | .loginWindowSessionLogin msg event | .loginWindowSessionLogout msg event
  | .loginWindowSessionLock msg event | .loginWindowSessionUnlock msg event =>
      sessionFields msg event
  | .screenSharingAttach msg event =>
      field (name "success") (getBoolString event.success) :: appendSocketAddress event.source ++
        [⟨name "viewer", Token.present event.viewerAppleID [.sanitized event.viewerAppleID]⟩,
          ⟨name "auth_type",
            Token.present event.authenticationType [.sanitized event.authenticationType]⟩,
          ⟨name "auth_user",
            Token.present event.authenticationUsername [.sanitized event.authenticationUsername]⟩,
          ⟨name "session_user",
            Token.present event.sessionUsername [.sanitized event.sessionUsername]⟩,
          field (name "existing_session") (getBoolString event.existingSession)] ++
        msg.append ++ appendGraphicalSession event.graphicalSessionID
  | .screenSharingDetach msg event =>
      appendSocketAddress event.source ++
        [⟨name "viewer", Token.present event.viewerAppleID [.sanitized event.viewerAppleID]⟩] ++
        msg.append ++ appendGraphicalSession event.graphicalSessionID
  | .openSSHLogin msg success resultType source username uid =>
      field (name "success") (getBoolString success) ::
        field (name "result_type") (getOpenSSHLoginResult resultType) ::
        appendSocketAddress source ++ msg.append ++ appendEventUser username uid
  | .openSSHLogout msg source username uid =>
      appendSocketAddress source ++ msg.append ++ appendEventUser username (some uid)
  | .loginLogin msg success failureMessage username uid =>
      field (name "success") (getBoolString success) ::
        ⟨name "failure", if success then none else some [.sanitized failureMessage]⟩ ::
        msg.append ++ appendEventUser username uid
  | .loginLogout msg username uid => msg.append ++ appendEventUser username (some uid)
  | .authenticationOD msg version event success recordType recordName nodeName dbPath =>
      field (name "success") (getBoolString success) :: msg.append ++
        appendEventInstigatorOrFallback version event ++
        [field (name "record_type") (tokenData recordType),
          field (name "record_name") (tokenData recordName),
          field (name "node_name") (tokenData nodeName), appendStringToken (name "db_path") dbPath]
  | .authenticationTouchID msg version event success mode username uid =>
      field (name "success") (getBoolString success) :: msg.append ++
        appendEventInstigatorOrFallback version event ++
        [field (name "touchid_mode") (getAuthenticationTouchIDModeString mode)] ++
        (match uid with
          | some uid => appendEventUserName username uid
          | none => [])
  | .authenticationToken msg version event success pubkeyHash tokenID kerberosPrincipal =>
      field (name "success") (getBoolString success) :: msg.append ++
        appendEventInstigatorOrFallback version event ++
        [field (name "pubkey_hash") (tokenData pubkeyHash),
          field (name "token_id") (tokenData tokenID),
          appendStringToken (name "kerberos_principal") kerberosPrincipal]
  | .authenticationAutoUnlock msg success username uid type =>
      field (name "success") (getBoolString success) :: msg.append ++
        appendEventUser username uid ++
        [field (name "type") (getAuthenticationAutoUnlockTypeString type)]
  | .launchItemAdd msg version event executablePath item =>
      itemFields item ++
        [⟨name "exec_path", (concatPrefixIfRelativePath urlPath executablePath item.appURL).map
          fun path => [.raw path]⟩] ++
        itemPaths urlPath item ++
        appendEventInstigatorOrFallback version event (name "event_") ++ msg.append
  | .launchItemRemove msg version event item =>
      itemFields item ++ itemPaths urlPath item ++
        appendEventInstigatorOrFallback version event (name "event_") ++ msg.append
  | .xProtectDetected msg signatureVersion malwareIdentifier incidentIdentifier detectedPath =>
      [appendStringToken (name "signature_version") signatureVersion,
        appendStringToken (name "malware_identifier") malwareIdentifier,
        appendStringToken (name "incident_identifier") incidentIdentifier,
        appendStringToken (name "detected_path") detectedPath] ++ msg.append
  | .xProtectRemediated event =>
      [appendStringToken (name "signature_version") event.signatureVersion,
        appendStringToken (name "malware_identifier") event.malwareIdentifier,
        appendStringToken (name "incident_identifier") event.incidentIdentifier,
        appendStringToken (name "action_type") event.actionType,
        field (name "success") (getBoolString event.success),
        appendStringToken (name "result_description") event.resultDescription,
        appendStringToken (name "remediated_path") event.remediatedPath,
        ⟨name "remediated_pid",
          event.remediatedProcess.map fun tok => [.number tok.pid.toInt]⟩]
  | .gatekeeperOverride msg file sha256 signingInfo =>
      [field (name "target") (gatekeeperTarget file),
        ⟨name "hash", sha256.map fun hash => [.hex (hexOf hash)]⟩,
        ⟨name "team_id", signingInfo.bind fun info =>
          Token.present info.teamID (tokenData info.teamID)⟩,
        ⟨name "signing_id", signingInfo.bind fun info =>
          Token.present info.signingID [.sanitized info.signingID]⟩,
        ⟨name "cdhash", signingInfo.map fun info => [.hex (hexOf info.cdhash)]⟩] ++ msg.append
  | .tccModification msg version event modification =>
      [field (name "event_type") (getTCCEventTypeString modification.updateType),
        field (name "service") (tokenData modification.service),
        field (name "identity") [.sanitized modification.identity],
        field (name "identity_type") (getTCCIdentityTypeString modification.identityType),
        field (name "auth_right") (getTCCAuthorizationRightString modification.right),
        field (name "auth_reason") (getTCCAuthorizationReasonString modification.reason)] ++
        appendEventInstigatorOrFallback version event (name "event_") ++ msg.append
  | .fileAccess msg access =>
      [field (name "policy_version") [.raw access.policyVersion],
        field (name "policy_name") [.raw access.policyName],
        field (name "path") (match access.pathTarget with
          | some path => [.raw path]
          | none => word "(error)"),
        field (name "access_type") (getAccessTypeString access.accessType),
        field (name "decision") (getFileAccessPolicyDecisionString access.decision),
        field (name "operation_id") [.raw access.operationID]] ++ msg.append
  | .allowlist process target hash =>
      [field (name "pid") [.number process.auditToken.pid.toInt],
        field (name "pidversion") [.number process.auditToken.pidversion.toInt],
        field (name "path") [.sanitized target], field (name "sha256") [.raw hash]]
  | .bundleHashing event =>
      [field (name "sha256") (nonNull event.fileSHA256),
        field (name "bundlehash") (nonNull event.fileBundleHash),
        field (name "bundlename") (nonNull event.fileBundleName),
        field (name "bundleid") (nonNull event.fileBundleID),
        field (name "bundlepath") (nonNull event.fileBundlePath),
        field (name "path") (nonNull event.filePath)]
  | .diskAppeared props allowed => serializeDiskAppeared props allowed
  | .diskDisappeared props =>
      [field (name "mount") (nonNull props.volumePath),
        field (name "volume") (nonNull props.volumeName),
        field (name "bsdname") (nonNull props.mediaBSDName)]
end

/-! ### The columns of each kind of line -/

def processColumns (pre : Name := noName) : List Name :=
  [pre ++ name "pid", pre ++ name "ppid", pre ++ name "process", pre ++ name "processpath"]

def userGroupColumns (pre : Name := noName) : List Name :=
  [pre ++ name "uid", pre ++ name "user", pre ++ name "gid", pre ++ name "group"]

def instigatorColumns (pre : Name := noName) : List Name :=
  processColumns pre ++ userGroupColumns pre

def eventUserColumns (pre : Name := name "event_") : List Name :=
  [pre ++ name "user", pre ++ name "uid"]

def eventInstigatorColumns (pre : Name := name "auth_") : List Name :=
  instigatorColumns pre ++ [pre ++ name "pidver"]

def socketAddressColumns : List Name := [name "address_type", name "address"]

def itemColumns : List Name :=
  [name "item_type", name "legacy", name "managed"] ++ eventUserColumns (name "item_")

def Message.columns : Message → List Name
  | .close .. | .unlink .. => name "path" :: instigatorColumns
  | .exchange .. | .link .. | .rename .. => name "path" :: name "newpath" :: instigatorColumns
  | .exec .. =>
      [name "decision", name "reason", name "explain", name "sha256", name "cert_sha256",
        name "cert_cn", name "teamid", name "quarantine_url", name "pid", name "pidversion",
        name "ppid"] ++ userGroupColumns ++
        [name "mode", name "path", name "origpath", name "args"]
  | .exit .. | .fork .. =>
      [name "pid", name "pidversion", name "ppid", name "uid", name "gid"]
  | .csInvalidated .. => instigatorColumns ++ [name "codesigning_flags"]
  | .clone .. | .copyfile .. => name "source" :: name "target" :: instigatorColumns
  | .loginWindowSessionLogin .. | .loginWindowSessionLogout .. | .loginWindowSessionLock ..
  | .loginWindowSessionUnlock .. =>
      instigatorColumns ++ eventUserColumns ++ [name "graphical_session_id"]
  | .screenSharingAttach .. =>
      name "success" :: socketAddressColumns ++
        [name "viewer", name "auth_type", name "auth_user", name "session_user",
          name "existing_session"] ++ instigatorColumns ++ [name "graphical_session_id"]
  | .screenSharingDetach .. =>
      socketAddressColumns ++ [name "viewer"] ++ instigatorColumns ++ [name "graphical_session_id"]
  | .openSSHLogin .. =>
      name "success" :: name "result_type" :: socketAddressColumns ++ instigatorColumns ++
        eventUserColumns
  | .openSSHLogout .. => socketAddressColumns ++ instigatorColumns ++ eventUserColumns
  | .loginLogin .. => name "success" :: name "failure" :: instigatorColumns ++ eventUserColumns
  | .loginLogout .. => instigatorColumns ++ eventUserColumns
  | .authenticationOD .. =>
      name "success" :: instigatorColumns ++ eventInstigatorColumns ++
        [name "record_type", name "record_name", name "node_name", name "db_path"]
  | .authenticationTouchID .. =>
      name "success" :: instigatorColumns ++ eventInstigatorColumns ++ [name "touchid_mode"] ++
        eventUserColumns
  | .authenticationToken .. =>
      name "success" :: instigatorColumns ++ eventInstigatorColumns ++
        [name "pubkey_hash", name "token_id", name "kerberos_principal"]
  | .authenticationAutoUnlock .. =>
      name "success" :: instigatorColumns ++ eventUserColumns ++ [name "type"]
  | .launchItemAdd .. =>
      itemColumns ++ [name "exec_path", name "item_path", name "app_path"] ++
        eventInstigatorColumns (name "event_") ++ instigatorColumns
  | .launchItemRemove .. =>
      itemColumns ++ [name "item_path", name "app_path"] ++
        eventInstigatorColumns (name "event_") ++ instigatorColumns
  | .xProtectDetected .. =>
      [name "signature_version", name "malware_identifier", name "incident_identifier",
        name "detected_path"] ++ instigatorColumns
  | .xProtectRemediated .. =>
      [name "signature_version", name "malware_identifier", name "incident_identifier",
        name "action_type", name "success", name "result_description", name "remediated_path",
        name "remediated_pid"]
  | .gatekeeperOverride .. =>
      [name "target", name "hash", name "team_id", name "signing_id", name "cdhash"] ++
        instigatorColumns
  | .tccModification .. =>
      [name "event_type", name "service", name "identity", name "identity_type",
        name "auth_right", name "auth_reason"] ++ eventInstigatorColumns (name "event_") ++
        instigatorColumns
  | .fileAccess .. =>
      [name "policy_version", name "policy_name", name "path", name "access_type",
        name "decision", name "operation_id"] ++ instigatorColumns
  | .allowlist .. => [name "pid", name "pidversion", name "path", name "sha256"]
  | .bundleHashing .. =>
      [name "sha256", name "bundlehash", name "bundlename", name "bundleid", name "bundlepath",
        name "path"]
  | .diskAppeared .. =>
      [name "mount", name "volume", name "bsdname", name "fs", name "model", name "serial",
        name "bus", name "dmgpath", name "appearance", name "mountfrom"]
  | .diskDisappeared .. => [name "mount", name "volume", name "bsdname"]

theorem fallback_names (version : ℕ) (event : EventInstigator) (pre : Name) :
    ((appendEventInstigatorOrFallback version event pre).map Field.name).Sublist
      (eventInstigatorColumns pre) := by
  unfold appendEventInstigatorOrFallback
  split
  · exact List.sublist_append_left _ _
  · split
    · refine List.Sublist.cons_cons _ ?_
      exact List.sublist_append_right
        [pre ++ name "ppid", pre ++ name "process", pre ++ name "processpath", pre ++ name "uid",
          pre ++ name "user", pre ++ name "gid", pre ++ name "group"] [pre ++ name "pidver"]
    · exact List.nil_sublist _

theorem fields_names (urlPath : Bytes → Option Bytes) (m : Message) :
    ((m.fields urlPath).map Field.name).Sublist m.columns := by
  cases m with
  | authenticationOD msg version event success recordType recordName nodeName dbPath =>
    simp only [Message.fields, List.map_append, List.map_cons]
    exact ((List.Sublist.refl (name "success" :: instigatorColumns)).append
      (fallback_names version event _)).append (List.Sublist.refl _)
  | authenticationTouchID msg version event success mode username uid =>
    simp only [Message.fields, List.map_append, List.map_cons]
    have user : ((match uid with
        | some uid => appendEventUserName username uid
        | none => []).map Field.name).Sublist eventUserColumns := by
      cases uid with
      | some uid => exact List.Sublist.refl _
      | none => exact List.nil_sublist _
    exact (((List.Sublist.refl (name "success" :: instigatorColumns)).append
      (fallback_names version event _)).append
      (List.Sublist.refl [name "touchid_mode"])).append user
  | authenticationToken msg version event success pubkeyHash tokenID kerberosPrincipal =>
    simp only [Message.fields, List.map_append, List.map_cons]
    exact ((List.Sublist.refl (name "success" :: instigatorColumns)).append
      (fallback_names version event _)).append (List.Sublist.refl _)
  | launchItemAdd msg version event executablePath item =>
    simp only [Message.fields, List.map_append]
    exact ((List.Sublist.refl (itemColumns ++ [name "exec_path", name "item_path",
      name "app_path"])).append (fallback_names version event _)).append (List.Sublist.refl _)
  | launchItemRemove msg version event item =>
    simp only [Message.fields, List.map_append]
    exact ((List.Sublist.refl (itemColumns ++ [name "item_path", name "app_path"])).append
      (fallback_names version event _)).append (List.Sublist.refl _)
  | tccModification msg version event modification =>
    simp only [Message.fields, List.map_append]
    exact ((List.Sublist.refl [name "event_type", name "service", name "identity",
      name "identity_type", name "auth_right", name "auth_reason"]).append
      (fallback_names version event _)).append (List.Sublist.refl _)
  | _ => exact List.Sublist.refl _

theorem columns_nodup (m : Message) :
    ((name "action" :: m.columns ++ [name "machineid"]).map Name.text).Nodup := by
  cases m <;> simp only [Message.columns] <;> decide +kernel

theorem columns_head (m : Message) : ∀ n ∈ m.columns, n.text.head? ≠ some '['.toUInt8 := by
  cases m <;> simp only [Message.columns] <;> decide +kernel

end SantaBasicString
