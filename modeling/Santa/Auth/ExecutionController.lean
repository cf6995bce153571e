import Mathlib.Data.List.Infix
import Santa.Auth.AuthResultCache
import Santa.Policy.PolicyProcessor

/-!
What the daemon does about one execution, as the list of effects it has, in
order. The effects are requests to other parts: the signal cache, the process
control, Endpoint Security (through the post action), the event table and its
upload queue, the terminal, the notification queue. Metrics and log messages are
left out, and so are the fields of a stored event that nothing here looks at.
-/
namespace SantaExec
open SantaRule SantaPolicy SantaAuthCache

abbrev ProcessId := Int × Int

structure EventConfig where
  enableAllEventUpload : Bool
  disableUnknownEventUpload : Bool
  enableBundles : Bool
  syncBaseURL : Option String
  eventDetailURL : Option String
  deriving DecidableEq, Repr

structure BinaryInfo where
  info : SNTFileInfo
  bundled : Bool

structure StoredExecutionEvent where
  fileSHA256 : Option String
  filePath : String
  decision : SNTEventState
  holdAndAsk : Bool
  teamID : Option String
  signingID : Option String
  cdhash : Option String
  signingStatus : SNTSigningStatus
  pid : Int
  needsBundleHash : Bool
  deriving DecidableEq, Repr

inductive TTYMessage where
  | text (message : String)
  | blocked (event : StoredExecutionEvent) (customMsg customURL : Option String)
  deriving DecidableEq, Repr

/-- What the block that answers a notification captures. -/
structure ReplyBlock where
  event : StoredExecutionEvent
  decision : SNTCachedDecision
  pidAndVersion : ProcessId
  stoppedProc : Bool
  deriving DecidableEq, Repr

inductive Effect where
  | cacheDecision (cd : SNTCachedDecision)
  | setSignal (p : ProcessId)
  | removeSignal (p : ProcessId)
  | suspend (p : ProcessId)
  | resume (p : ProcessId)
  | kill (p : ProcessId)
  | post (action : SNTAction)
  | storeEvent (event : StoredExecutionEvent)
  | uploadEvent (event : StoredExecutionEvent)
  | ttyWrite (message : TTYMessage)
  | addEvent (event : StoredExecutionEvent) (customMsg customURL : Option String)
      (reply : Option ReplyBlock)
  | addRule (rule : SNTRule)
  deriving DecidableEq, Repr

/-! ### Before a decision -/

def kMaxAllowedPathLength : Nat := 1023

def synchronousShouldProcessExecEvent (pathLength : Nat) (pathTruncated : Bool) : Bool :=
  !(decide (kMaxAllowedPathLength < pathLength) || pathTruncated)

def containsString (text part : String) : Bool := decide (part.toList <:+: text.toList)
def hasSuffix (text part : String) : Bool := decide (part.toList <:+ text.toList)

/-- A copy of PrinterProxy that differs from the system's is replaced, and blocked once. -/
def printerProxyWorkaround (printerProxyFileInfo : Option SNTFileInfo) (fi : SNTFileInfo) : Bool :=
  hasSuffix fi.path "/Contents/MacOS/PrinterProxy" && containsString fi.path "Library/Printers" &&
    !(printerProxyFileInfo.bind (·.sha256)).any fun hash => fi.sha256 = some hash

/-! ### From a decision to effects -/

def actionFor (cd : SNTCachedDecision) : SNTAction :=
  if cd.decision.isAllowCompiler then .respondAllowCompiler
  else if cd.decision.isAllow then
    if cd.cacheable then .respondAllow else .respondAllowNoCache
  else .respondDeny

def SNTAction.allows : SNTAction → Bool
  | .respondAllow | .respondAllowCompiler | .respondAllowNoCache => true
  | _ => false

def shouldLog (config : EventConfig) (cd : SNTCachedDecision) : Bool :=
  config.enableAllEventUpload ||
    (cd.decision = .allowUnknown && !config.disableUnknownEventUpload) || !cd.decision.isAllow

def storedEvent (config : EventConfig) (binInfo : BinaryInfo) (cd : SNTCachedDecision)
    (p : ProcessId) : StoredExecutionEvent :=
  { fileSHA256 := cd.sha256
    filePath := binInfo.info.path
    decision := cd.decision
    holdAndAsk := cd.holdAndAsk
    teamID := cd.teamID
    signingID := cd.signingID
    cdhash := cd.cdhash
    signingStatus := cd.signingStatus
    pid := p.1
    needsBundleHash := !SNTAction.allows (actionFor cd) && config.enableBundles && binInfo.bundled }

def ttyMessage (config : EventConfig) (se : StoredExecutionEvent) (cd : SNTCachedDecision)
    (stoppedProc : Bool) : TTYMessage :=
  if cd.holdAndAsk then
    if stoppedProc then
      .text ("---\n\x1b[1mSanta\x1b[0m\n\nHolding execution of this " ++
        "binary until approval is granted in the GUI...\n")
    else
      .text ("---\n\x1b[1mSanta\x1b[0m\n\nUnable to hold execution so " ++
        "the process was killed\n---\n\n")
  else .blocked se cd.customMsg (cd.customURL.or config.eventDetailURL)

def blockEffects (config : EventConfig) (binInfo : BinaryInfo) (cd : SNTCachedDecision)
    (p : ProcessId) (stoppedProc : Bool) : List Effect :=
  let se := storedEvent config binInfo cd p
  (if config.enableBundles && binInfo.bundled then []
    else if config.syncBaseURL.isSome then [.uploadEvent se] else []) ++
  if cd.silentBlock then []
  else
    [.ttyWrite (ttyMessage config se cd stoppedProc),
      .addEvent se cd.customMsg (cd.customURL.or config.eventDetailURL)
        (if cd.holdAndAsk then some ⟨se, cd, p, stoppedProc⟩ else none)]

def logEffects (config : EventConfig) (binInfo : BinaryInfo) (cd : SNTCachedDecision)
    (p : ProcessId) (stoppedProc : Bool) : List Effect :=
  (if config.syncBaseURL.isSome then [.storeEvent (storedEvent config binInfo cd p)] else []) ++
  if SNTAction.allows (actionFor cd) then [] else blockEffects config binInfo cd p stoppedProc

/-- A process that is held is marked and suspended before Endpoint Security has its answer. -/
def answerEffects (cd : SNTCachedDecision) (p : ProcessId) : List Effect :=
  if cd.holdAndAsk then [.setSignal p, .suspend p, .post .respondHold] else [.post (actionFor cd)]

def decisionEffects (config : EventConfig) (binInfo : BinaryInfo) (cd : SNTCachedDecision)
    (p : ProcessId) (stoppedProc : Bool) : List Effect :=
  .cacheDecision cd :: (answerEffects cd p ++
    if shouldLog config cd then logEffects config binInfo cd p stoppedProc else [])

structure World where
  source : RuleSource
  config : Configuration
  eventConfig : EventConfig
  printerProxyFileInfo : Option SNTFileInfo
  file : SantaVnode → Option BinaryInfo

/-- An AUTH_EXEC message. `evaluate` evaluates CEL rules in the activation of this message. -/
structure ExecMessage where
  vnode : SantaVnode
  pathLength : Nat
  pathTruncated : Bool
  targetProc : TargetProcess
  pidAndVersion : ProcessId
  evaluate : Evaluation

def decisionIn (world : World) (esMsg : ExecMessage) (binInfo : BinaryInfo) : SNTCachedDecision :=
  decisionForTarget world.source world.config binInfo.info esMsg.targetProc (some esMsg.evaluate)

/-- The decision made for the message, if there is one, and the effects. `stoppedProc` is what
    suspending the process returns. -/
def validateExecEvent (world : World) (esMsg : ExecMessage) (stoppedProc : Bool) :
    Option SNTCachedDecision × List Effect :=
  match world.file esMsg.vnode with
  | none =>
      (none, [.post (if world.config.failClosed then .respondDeny else .respondAllow)])
  | some binInfo =>
      if printerProxyWorkaround world.printerProxyFileInfo binInfo.info then
        (none, [.post .respondDeny])
      else
        let cd := decisionIn world esMsg binInfo
        (some cd, decisionEffects world.eventConfig binInfo cd esMsg.pidAndVersion stoppedProc)

/-! ### The answer of the user -/

def ruleForStandaloneModeEvent (se : StoredExecutionEvent) (now : Nat) : Option SNTRule :=
  match decide (se.signingStatus = .production), se.signingID, se.fileSHA256 with
  | true, some signingID, _ =>
      (SNTRule.mk signingID .allowLocalSigningID .signingID none none now (some se.filePath)
        none).init
  | _, _, some sha256 =>
      (SNTRule.mk sha256 .allowLocalBinary .binary none none now (some se.filePath) none).init
  | _, _, none => none

def createRuleForStandaloneModeEvent (se : StoredExecutionEvent) (now : Nat) : List Effect :=
  (ruleForStandaloneModeEvent se now).toList.map .addRule

def approvedEffects (block : ReplyBlock) (now : Nat) : List Effect :=
  (if block.decision.decisionClientMode = .standalone ∧ block.decision.decision = .blockUnknown then
    createRuleForStandaloneModeEvent block.event now else []) ++
  (if block.stoppedProc then
    [.ttyWrite (.text "Authorized, allowing execution\n---\n\n")] else []) ++
  [.resume block.pidAndVersion]

def declinedEffects (block : ReplyBlock) : List Effect :=
  (if block.stoppedProc then
    [.ttyWrite (.text "Authorization not given, denying execution\n---\n\n")] else []) ++
  [.kill block.pidAndVersion]

def replyEffects (block : ReplyBlock) (authenticated : Bool) (now : Nat) : List Effect :=
  (if authenticated then approvedEffects block now else declinedEffects block) ++
  [.removeSignal block.pidAndVersion,
    .post (if authenticated then .holdAllowed else .holdDenied)]

def validateSuspendResumeEvent (procSignalCache : SantaCache ProcessId Bool) (p : ProcessId) :
    Bool :=
  !procSignalCache.get p

/-! ### The authorizer -/

inductive AuthResult where
  | allow
  | deny
  deriving DecidableEq, Repr

structure Response where
  authResult : AuthResult
  cacheable : Bool
  deriving DecidableEq, Repr

/-- Endpoint Security caches no denials, and nothing that a probe is interested in. -/
def respondToMessage (interested : Bool) (result : AuthResult) (forcePreventCache : Bool) :
    Response :=
  ⟨result, decide (result = .allow) && !forcePreventCache && !interested⟩

structure Posted where
  isCompiler : Bool
  stored : Bool
  cache : AuthResultCache
  response : Option Response

/-- Posting another action raises an exception. -/
def postAction (cache : AuthResultCache) (vnode : SantaVnode) (action : SNTAction)
    (currentUptime : Nat) (interested : Bool) : Option Posted :=
  let add (cache : AuthResultCache) (response : Option Response) :=
    (cache.addToCache vnode action currentUptime).map fun (stored, cache) =>
      Posted.mk (action = .respondAllowCompiler) stored cache response
  match action with
  | .respondAllowCompiler | .respondHold =>
      add cache (some (respondToMessage interested .allow true))
  | .respondAllowNoCache =>
      add (cache.removeFromCache vnode) (some (respondToMessage interested .allow true))
  | .respondAllow => add cache (some (respondToMessage interested .allow false))
  | .respondDeny => add cache (some (respondToMessage interested .deny false))
  | .holdAllowed | .holdDenied => add cache none
  | .unset | .requestBinary => none

inductive Checked where
  | respond (isCompiler : Bool) (response : Response)
  | poll
  | evaluate
  deriving DecidableEq, Repr

def processChecked (returnAction : SNTAction) (interested : Bool) : Checked :=
  match returnAction with
  | .respondAllowCompiler => .respond true (respondToMessage interested .allow true)
  | .respondAllow => .respond false (respondToMessage interested .allow false)
  | .respondDeny => .respond false (respondToMessage interested .deny false)
  | .respondHold => .respond false ⟨.deny, false⟩
  | .requestBinary => .poll
  | _ => .evaluate

/-! ### The effects of each part -/

def Effect.neutral : Effect → Bool
  | .setSignal _ | .removeSignal _ | .suspend _ | .post _ => false
  | _ => true

/-- A notification that waits for an answer leaves its reply block with the queue. -/
def Effect.reply : Effect → Option ReplyBlock
  | .addEvent _ _ _ reply => reply
  | _ => none

section
variable {config : EventConfig} {binInfo : BinaryInfo} {cd : SNTCachedDecision} {p : ProcessId}
variable {stoppedProc : Bool} {effect : Effect}

theorem mem_blockEffects (member : effect ∈ blockEffects config binInfo cd p stoppedProc) :
    effect.neutral = true ∧
      ∀ block, effect.reply = some block → cd.holdAndAsk = true ∧ block.pidAndVersion = p := by
  unfold blockEffects at member
  rcases List.mem_append.mp member with upload | notify
  · split_ifs at upload
    · exact nomatch upload
    · rw [List.mem_singleton.mp upload]
      exact ⟨rfl, fun _ asks => nomatch asks⟩
    · exact nomatch upload
  · by_cases silent : cd.silentBlock = true
    · rw [if_pos silent] at notify
      exact nomatch notify
    · rw [if_neg silent] at notify
      simp only [List.mem_cons, List.not_mem_nil, or_false] at notify
      rcases notify with tty | event
      · rw [tty]
        exact ⟨rfl, fun _ asks => nomatch asks⟩
      · rw [event]
        refine ⟨rfl, ?_⟩
        intro block asks
        simp only [Effect.reply] at asks
        split_ifs at asks with holds
        rw [← Option.some.inj asks]
        exact ⟨holds, rfl⟩

theorem mem_logEffects (member : effect ∈ logEffects config binInfo cd p stoppedProc) :
    effect.neutral = true ∧
      ∀ block, effect.reply = some block → cd.holdAndAsk = true ∧ block.pidAndVersion = p := by
  unfold logEffects at member
  rcases List.mem_append.mp member with store | block
  · split_ifs at store
    · rw [List.mem_singleton.mp store]
      exact ⟨rfl, fun _ asks => nomatch asks⟩
    · exact nomatch store
  · split_ifs at block
    · exact nomatch block
    · exact mem_blockEffects block

theorem decisionEffects_split (config : EventConfig) (binInfo : BinaryInfo)
    (cd : SNTCachedDecision) (p : ProcessId) (stoppedProc : Bool) :
    ∃ log, decisionEffects config binInfo cd p stoppedProc =
        .cacheDecision cd :: (answerEffects cd p ++ log) ∧
      ∀ effect ∈ log, effect.neutral = true ∧
        ∀ block, effect.reply = some block → cd.holdAndAsk = true ∧ block.pidAndVersion = p := by
  refine ⟨_, rfl, ?_⟩
  intro effect member
  split_ifs at member
  · exact mem_logEffects member
  · exact nomatch member

theorem neutral_release {block : ReplyBlock} {authenticated : Bool} {now : Nat}
    (member : effect ∈ (if authenticated then approvedEffects block now else declinedEffects block)) :
    effect.neutral = true ∧ effect.reply = none := by
  cases authenticated with
  | true =>
    simp only [if_true, approvedEffects] at member
    rcases List.mem_append.mp member with before | resume
    · rcases List.mem_append.mp before with rule | tty
      · split_ifs at rule
        · obtain ⟨r, _, same⟩ := List.mem_map.mp rule
          rw [← same]
          exact ⟨rfl, rfl⟩
        · exact nomatch rule
      · split_ifs at tty
        · rw [List.mem_singleton.mp tty]
          exact ⟨rfl, rfl⟩
        · exact nomatch tty
    · rw [List.mem_singleton.mp resume]
      exact ⟨rfl, rfl⟩
  | false =>
    simp only [Bool.false_eq_true, if_false, declinedEffects] at member
    rcases List.mem_append.mp member with tty | kill
    · split_ifs at tty
      · rw [List.mem_singleton.mp tty]
        exact ⟨rfl, rfl⟩
      · exact nomatch tty
    · rw [List.mem_singleton.mp kill]
      exact ⟨rfl, rfl⟩

end

end SantaExec
