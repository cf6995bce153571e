import Mathlib.Data.List.Nodup
import Santa.Library.Runs

/-!
The connection of the push client. Everything that touches it runs in blocks on one
serial queue: configuring, connecting, disconnecting, and what the library's callbacks
leave to be done. A callback is told which connection it is for; its block is not.
Connections are numbered in the order of their creation. What the library answers
while a block runs is any.
-/
namespace SantaPushConnection

structure SNTSyncState where
  pushServer : Option String
  pushNKey : Option String
  pushJWT : Option String
  pushDeviceID : Option String
  pushTags : Option (List String)
  deriving DecidableEq, Repr

structure Configuration where
  server : String
  token : String
  jwt : String
  deviceID : String
  tags : Option (List String)
  deriving DecidableEq, Repr

structure Subscription where
  conn : Nat
  topic : String
  deriving DecidableEq, Repr

inductive Callback where
  | disconnected
  | reconnected
  | closed
  | error
  deriving DecidableEq, Repr

inductive Block where
  | configure (c : Configuration)
  | connect
  | disconnect
  | callback (kind : Callback) (nc : Nat)
  deriving DecidableEq, Repr

/- `harmed` is not in the program; it records that a callback of an earlier connection
   destroyed, replaced or marked as disconnected the current one. -/
structure System where
  conn : Option Nat
  isConnected : Bool
  isShuttingDown : Bool
  tagSubscriptions : List Subscription
  commandsSubscription : Option Subscription
  pushServer : Option String
  pushToken : Option String
  jwt : Option String
  pushDeviceID : Option String
  tags : Option (List String)
  retryAttempt : Nat
  isRetrying : Bool
  connectionRetryTimer : Bool
  connections : Nat
  connectionQueue : List Block
  harmed : Bool
  deriving DecidableEq, Repr

def System.start : System :=
  ⟨none, false, false, [], none, none, none, none, none, none, 0, false, false, 0, [], false⟩

/-- The answers of the library in one block: whether the connection is closed, first and when
    it comes to subscribing; whether options and a connection are made; whether the topic of
    the tag at a position, and that of the commands, is subscribed to; and whether a timer is
    created. -/
structure Library where
  isClosed : Bool
  isClosedAfter : Bool
  options : Bool
  connects : Bool
  subscribed : Nat → Bool
  commandsSubscribed : Bool
  timer : Bool

def validServer (server : String) : Bool :=
  ".push.northpole.security:443".toList.isSuffixOf server.toList &&
    "tls://".toList.isPrefixOf server.toList

def validSuffix (suffix : List Char) : Bool :=
  suffix ≠ [] && !suffix.contains '.' && !suffix.contains '-'

def isValidNATSTopic (topic : String) : Bool :=
  if "santa.host.".toList.isPrefixOf topic.toList then validSuffix (topic.toList.drop 11)
  else if "santa.tag.".toList.isPrefixOf topic.toList then validSuffix (topic.toList.drop 10)
  else false

def deviceTopic (deviceID : String) : String := "santa.host." ++ deviceID
def commandsTopic (deviceID : String) : String := "santa.host." ++ deviceID ++ ".commands"

def subscribeTags (conn : Nat) (subscribed : Nat → Bool) :
    Nat → List String → List String → List Subscription
  | _, _, [] => []
  | k, subscribedTopics, tag :: rest =>
      if tag ∈ subscribedTopics then subscribeTags conn subscribed (k + 1) subscribedTopics rest
      else if isValidNATSTopic tag && subscribed k then
        ⟨conn, tag⟩ :: subscribeTags conn subscribed (k + 1) (tag :: subscribedTopics) rest
      else subscribeTags conn subscribed (k + 1) subscribedTopics rest

def tagsChanged : Option (List String) → Option (List String) → Bool
  | none, none => false
  | some old, some new => !(old.all (· ∈ new) && new.all (· ∈ old))
  | _, _ => true

namespace System

def enqueue (s : System) (b : Block) : System :=
  { s with connectionQueue := s.connectionQueue ++ [b] }

/-- The flag is corrected when the library says that the connection is closed. -/
def isConnectionAlive (s : System) (isClosed : Bool) : System × Bool :=
  match s.conn with
  | none => (s, false)
  | some _ => if isClosed then ({ s with isConnected := false }, false) else (s, s.isConnected)

def unsubscribeAll (s : System) : System :=
  { s with tagSubscriptions := [], commandsSubscription := none }

def subscribe (s : System) (l : Library) : System :=
  if s.isShuttingDown then s
  else
    let (s, alive) := s.isConnectionAlive l.isClosedAfter
    match alive, s.conn with
    | true, some conn =>
        let s := { s with
          tagSubscriptions := s.tagSubscriptions ++
            subscribeTags conn l.subscribed 0 [] (s.tags.getD []) }
        match s.pushDeviceID with
        | none => s
        | some deviceID =>
            if deviceID ≠ "" ∧ l.commandsSubscribed then
              { s with commandsSubscription := some ⟨conn, commandsTopic deviceID⟩ }
            else s
    | _, _ => s

def credentialsChanged (s : System) (c : Configuration) : Bool :=
  s.jwt ≠ some c.jwt || s.pushToken ≠ some c.token

def topicsChanged (s : System) (c : Configuration) : Bool :=
  s.pushDeviceID ≠ some c.deviceID || tagsChanged s.tags c.tags

def store (s : System) (c : Configuration) : System :=
  { s with
    pushServer := some c.server
    pushToken := some c.token
    jwt := some c.jwt
    pushDeviceID := some c.deviceID
    tags := c.tags }

def configureWithPushServer (s : System) (c : Configuration) (l : Library) : System :=
  if s.isShuttingDown || !validServer c.server then s
  else
    let credentialsChanged := s.credentialsChanged c
    let topicsChanged := s.topicsChanged c
    let (s, isConnected) := s.isConnectionAlive l.isClosed
    let s :=
      if (topicsChanged || credentialsChanged) && isConnected then
        if credentialsChanged then { s.unsubscribeAll with conn := none, isConnected := false }
        else s.unsubscribeAll
      else s
    let s := s.store c
    if credentialsChanged then s.enqueue .connect
    else if topicsChanged && isConnected then s.subscribe l
    else s

def hasRequiredConfiguration (s : System) : Bool :=
  s.pushServer.isSome && s.pushToken.isSome && s.jwt.isSome && s.pushDeviceID.isSome

def scheduleConnectionRetry (s : System) (timer : Bool) : System :=
  if s.isShuttingDown || s.isRetrying then s
  else { s with
    retryAttempt := s.retryAttempt + 1
    isRetrying := timer
    connectionRetryTimer := timer }

def connected (s : System) : System :=
  { s with
    conn := some s.connections
    connections := s.connections + 1
    isConnected := true
    retryAttempt := 0
    isRetrying := false
    connectionRetryTimer := false }

def connect (s : System) (l : Library) : System :=
  if s.isShuttingDown then s
  else
    let (s, alive) := s.isConnectionAlive l.isClosed
    if alive then s
    else
      let s := if s.conn.isSome then { s with conn := none, isConnected := false } else s
      if !s.hasRequiredConfiguration || !l.options || !validServer (s.pushServer.getD "") then s
      else if l.connects then s.connected.subscribe l
      else s.scheduleConnectionRetry l.timer

def disconnect (s : System) : System :=
  { s.unsubscribeAll with
    connectionRetryTimer := false
    isRetrying := false
    conn := none
    isConnected := false }

def closedCallback (s : System) (timer : Bool) : System :=
  if !s.isShuttingDown && s.conn.isSome then
    scheduleConnectionRetry { s with isConnected := false, conn := none } timer
  else { s with isConnected := false }

def errorHandler (s : System) (l : Library) : System :=
  if s.conn.isSome && l.isClosed then
    scheduleConnectionRetry { s with isConnected := false, conn := none } l.timer
  else s

def callback (s : System) (l : Library) : Callback → System
  | .disconnected => { s with isConnected := false }
  | .reconnected => { s with isConnected := true }
  | .closed => s.closedCallback l.timer
  | .error => s.errorHandler l

def harms (s t : System) (nc : Nat) : Bool :=
  match s.conn with
  | none => false
  | some conn => conn ≠ nc && (t.conn ≠ some conn || (s.isConnected && !t.isConnected))

def runBlock (s : System) (l : Library) : Block → System
  | .configure c => s.configureWithPushServer c l
  | .connect => s.connect l
  | .disconnect => s.disconnect
  | .callback .error _ => s.callback l .error
  | .callback kind nc =>
      { s.callback l kind with harmed := s.harmed || harms s (s.callback l kind) nc }

end System

inductive Label where
  | handlePreflightSyncState (syncState : SNTSyncState)
  | disconnectWithCompletion
  | called (kind : Callback) (nc : Nat)
  | retry
  | dequeue (l : Library)

def step (s : System) : Label → Option System
  | .handlePreflightSyncState syncState =>
      match syncState.pushServer, syncState.pushNKey, syncState.pushJWT, syncState.pushDeviceID with
      | some server, some token, some jwt, some deviceID =>
          some ((s.enqueue (.configure ⟨server, token, jwt, deviceID, syncState.pushTags⟩)).enqueue
            .connect)
      | _, _, _, _ => some s
  | .disconnectWithCompletion =>
      if s.conn.isNone && !s.isConnected && s.tagSubscriptions.isEmpty &&
          s.commandsSubscription.isNone then some s
      else some ({ s with isShuttingDown := true }.enqueue .disconnect)
  | .called kind nc => if nc < s.connections then some (s.enqueue (.callback kind nc)) else none
  | .retry =>
      if s.connectionRetryTimer then
        some (if s.isShuttingDown then s
          else { s with isRetrying := false, connectionRetryTimer := false }.enqueue .connect)
      else none
  | .dequeue l =>
      match s.connectionQueue with
      | [] => none
      | b :: rest => some ({ s with connectionQueue := rest }.runBlock l b)

def System.tracked (s : System) : List Subscription :=
  s.tagSubscriptions ++ s.commandsSubscription.toList

def Wanted (tags : Option (List String)) (deviceID : Option String) (topic : String) : Prop :=
  (topic ∈ tags.getD [] ∧ isValidNATSTopic topic) ∨
    ∃ id, deviceID = some id ∧ (topic = deviceTopic id ∨ topic = commandsTopic id)

/-- No callback has harmed a later connection, and the subscriptions are those of the current
    connection, one for each of its topics. -/
structure Safe (s : System) : Prop where
  spared : s.harmed = false
  current : ∀ sub ∈ s.tracked, s.conn = some sub.conn
  topics : s.conn ≠ none → ∀ topic,
    (∃ sub ∈ s.tracked, sub.topic = topic) ↔ Wanted s.tags s.pushDeviceID topic
  once : (s.tracked.map Subscription.topic).Nodup

/-- All topics get their subscription: the connection is not closed by then, the library accepts
    each, and the device's own is among the tags. -/
def Served (tags : Option (List String)) (deviceID : String) (l : Library) : Prop :=
  l.isClosedAfter = false ∧ l.commandsSubscribed = true ∧
    deviceTopic deviceID ∈ tags.getD [] ∧ isValidNATSTopic (deviceTopic deviceID) ∧
    ∀ tag ∈ tags.getD [], isValidNATSTopic tag → ∃ k, (tags.getD [])[k]? = some tag ∧ l.subscribed k

def Alive (s : System) (isClosed : Bool) : Prop :=
  s.conn ≠ none ∧ isClosed = false ∧ s.isConnected = true

/-- What a block must find, or get from the library, for the connection and its subscriptions to
    stay in order. -/
def Orderly (s : System) (l : Library) : Block → Prop
  | .configure c => s.isShuttingDown = true ∨ validServer c.server = false ∨ s.conn = none ∨
      (Alive s l.isClosed ∧ (s.credentialsChanged c = true ∨ s.topicsChanged c = false ∨
        Served c.tags c.deviceID l)) ∨
      (¬ Alive s l.isClosed ∧
        ∀ topic, Wanted c.tags (some c.deviceID) topic ↔ Wanted s.tags s.pushDeviceID topic)
  | .connect => s.isShuttingDown = true ∨ Alive s l.isClosed ∨
      (s.conn = none ∧ (s.hasRequiredConfiguration = true → l.options = true →
        validServer (s.pushServer.getD "") = true → l.connects = true →
          Served s.tags (s.pushDeviceID.getD "") l))
  | .disconnect => True
  | .callback .disconnected nc => s.conn = none ∨ s.conn = some nc ∨ s.isConnected = false
  | .callback .reconnected _ => True
  | .callback .closed nc => s.conn = none ∨
      (s.isShuttingDown = true ∧ (s.conn = some nc ∨ s.isConnected = false))
  | .callback .error _ => s.conn = none ∨ l.isClosed = false

/-- Each block runs in order: a connection is taken away only by a block that unsubscribes from
    its topics, and marked as disconnected only by its own callbacks. -/
def InOrder (s : System) : Label → Prop
  | .dequeue l => ∀ b rest, s.connectionQueue = b :: rest → Orderly s l b
  | _ => True

/-! ### Subscribing -/

theorem subscribed_cons {subscribed : Nat → Bool} {k : Nat} {tag topic : String}
    {rest : List String} :
    (∃ i, (tag :: rest)[i]? = some topic ∧ subscribed (k + i)) ↔
      (tag = topic ∧ subscribed k) ∨ ∃ i, rest[i]? = some topic ∧ subscribed (k + 1 + i) := by
  constructor
  · rintro ⟨i, here, ok⟩
    cases i with
    | zero => exact Or.inl ⟨Option.some.inj here, ok⟩
    | succ i => exact Or.inr ⟨i, here, by rw [Nat.add_assoc, Nat.add_comm 1]; exact ok⟩
  · rintro (⟨same, ok⟩ | ⟨i, here, ok⟩)
    · exact ⟨0, congrArg some same, ok⟩
    · exact ⟨i + 1, here, by rw [Nat.add_assoc, Nat.add_comm 1] at ok; exact ok⟩

theorem mem_subscribeTags {conn : Nat} {subscribed : Nat → Bool} {k : Nat} {topics : List String}
    {tags : List String} {sub : Subscription} :
    sub ∈ subscribeTags conn subscribed k topics tags ↔
      sub.conn = conn ∧ sub.topic ∉ topics ∧ isValidNATSTopic sub.topic ∧
        ∃ i, tags[i]? = some sub.topic ∧ subscribed (k + i) := by
  induction tags generalizing k topics with
  | nil => simp [subscribeTags]
  | cons tag rest ih =>
    unfold subscribeTags
    rw [subscribed_cons]
    split
    · rename_i known
      rw [ih]
      constructor
      · rintro ⟨conn, new, valid, later⟩
        exact ⟨conn, new, valid, Or.inr later⟩
      · rintro ⟨conn, new, valid, ⟨same, _⟩ | later⟩
        · rw [same] at known
          exact absurd known new
        · exact ⟨conn, new, valid, later⟩
    · rename_i unknown
      split
      · rename_i ok
        rw [Bool.and_eq_true] at ok
        rw [List.mem_cons, ih]
        constructor
        · rintro (same | ⟨conn, new, valid, later⟩)
          · rw [same]
            exact ⟨rfl, unknown, ok.1, Or.inl ⟨rfl, ok.2⟩⟩
          · exact ⟨conn, fun known => new (List.mem_cons_of_mem _ known), valid, Or.inr later⟩
        · rintro ⟨conn, new, valid, here⟩
          by_cases same : sub.topic = tag
          · refine Or.inl ?_
            cases sub
            simp only at conn same
            rw [conn, same]
          · refine Or.inr ⟨conn, ?_, valid, ?_⟩
            · rintro known
              rcases List.mem_cons.mp known with head | before
              · exact same head
              · exact new before
            · rcases here with ⟨back, _⟩ | later
              · exact absurd back.symm same
              · exact later
      · rename_i refused
        rw [Bool.and_eq_true] at refused
        rw [ih]
        constructor
        · rintro ⟨conn, new, valid, later⟩
          exact ⟨conn, new, valid, Or.inr later⟩
        · rintro ⟨conn, new, valid, ⟨same, ok⟩ | later⟩
          · rw [← same] at valid
            exact absurd ⟨valid, ok⟩ refused
          · exact ⟨conn, new, valid, later⟩

theorem subscribeTags_once (conn : Nat) (subscribed : Nat → Bool) (k : Nat) (topics : List String)
    (tags : List String) :
    ((subscribeTags conn subscribed k topics tags).map Subscription.topic).Nodup := by
  induction tags generalizing k topics with
  | nil => exact List.nodup_nil
  | cons tag rest ih =>
    unfold subscribeTags
    split
    · exact ih (k + 1) topics
    · split
      · rw [List.map_cons, List.nodup_cons]
        refine ⟨?_, ih (k + 1) (tag :: topics)⟩
        intro again
        obtain ⟨sub, member, same⟩ := List.mem_map.mp again
        have new := (mem_subscribeTags.mp member).2.1
        rw [same] at new
        exact new List.mem_cons_self
      · exact ih (k + 1) topics

theorem commandsTopic_no_tag (deviceID : String) :
    isValidNATSTopic (commandsTopic deviceID) = false := by
  have text : (commandsTopic deviceID).toList =
      "santa.host.".toList ++ (deviceID.toList ++ ".commands".toList) := by
    simp [commandsTopic, String.toList_append]
  have starts : "santa.host.".toList.isPrefixOf (commandsTopic deviceID).toList = true := by
    rw [text, List.isPrefixOf_iff_prefix]
    exact List.prefix_append _ _
  have suffix : (commandsTopic deviceID).toList.drop 11 =
      deviceID.toList ++ ".commands".toList := by
    rw [text]
    exact List.drop_left' (by decide)
  have period : (deviceID.toList ++ ".commands".toList).contains '.' = true := by
    rw [List.contains_iff_mem]
    exact List.mem_append_right _ (by decide)
  unfold isValidNATSTopic
  rw [if_pos starts, suffix]
  simp only [validSuffix, period, Bool.not_true, Bool.and_false, Bool.false_and]

theorem deviceTopic_empty {deviceID : String} (valid : isValidNATSTopic (deviceTopic deviceID)) :
    deviceID ≠ "" := by
  intro empty
  rw [empty] at valid
  exact absurd valid (by decide)

theorem commandsTopic_ne (deviceID : String) : commandsTopic deviceID ≠ deviceTopic deviceID := by
  intro same
  have length := congrArg String.length same
  simp [commandsTopic, deviceTopic, String.length_append] at length

structure Fresh (s : System) (conn : Nat) (deviceID : String) : Prop where
  running : s.isShuttingDown = false
  current : s.conn = some conn
  alive : s.isConnected = true
  tags : s.tagSubscriptions = []
  commands : s.commandsSubscription = none
  deviceID : s.pushDeviceID = some deviceID

theorem subscribe_frame (s : System) (l : Library) :
    (s.subscribe l).conn = s.conn ∧ (s.subscribe l).connections = s.connections ∧
      (s.subscribe l).pushDeviceID = s.pushDeviceID ∧ (s.subscribe l).tags = s.tags ∧
      (s.subscribe l).harmed = s.harmed := by
  unfold System.subscribe
  split
  · exact ⟨rfl, rfl, rfl, rfl, rfl⟩
  cases conn : s.conn with
  | none => simp [System.isConnectionAlive, conn]
  | some c =>
    cases l.isClosedAfter with
    | true => simp [System.isConnectionAlive, conn]
    | false =>
      cases alive : s.isConnected with
      | false => simp [System.isConnectionAlive, conn, alive]
      | true =>
        simp only [System.isConnectionAlive, conn, alive, Bool.false_eq_true, if_false]
        split
        · simp
        · split
          · simp
          · simp

theorem subscribe_tracked {s : System} {conn : Nat} {deviceID : String} {l : Library}
    (fresh : Fresh s conn deviceID) :
    (s.subscribe l).tracked = if l.isClosedAfter then [] else
      subscribeTags conn l.subscribed 0 [] (s.tags.getD []) ++
        if deviceID ≠ "" ∧ l.commandsSubscribed then [⟨conn, commandsTopic deviceID⟩] else [] := by
  unfold System.subscribe System.isConnectionAlive
  cases l.isClosedAfter with
  | true =>
    simp [fresh.running, fresh.current, System.tracked, fresh.tags, fresh.commands]
  | false =>
    simp only [fresh.running, fresh.current, fresh.alive, fresh.deviceID, fresh.tags,
      Bool.false_eq_true, if_false, List.nil_append]
    split
    · simp [System.tracked]
    · simp [System.tracked, fresh.commands]

theorem mem_subscribe {s : System} {conn : Nat} {deviceID : String} {l : Library}
    (fresh : Fresh s conn deviceID) (sub : Subscription) :
    sub ∈ (s.subscribe l).tracked ↔ l.isClosedAfter = false ∧ sub.conn = conn ∧
      ((isValidNATSTopic sub.topic ∧
          ∃ k, (s.tags.getD [])[k]? = some sub.topic ∧ l.subscribed k) ∨
        (sub.topic = commandsTopic deviceID ∧ deviceID ≠ "" ∧ l.commandsSubscribed)) := by
  rw [subscribe_tracked fresh]
  cases l.isClosedAfter with
  | true => simp
  | false =>
    simp only [Bool.false_eq_true, if_false, List.mem_append, mem_subscribeTags,
      List.not_mem_nil, not_false_eq_true, true_and, Nat.zero_add]
    constructor
    · rintro (⟨same, valid, served⟩ | commands)
      · exact ⟨same, Or.inl ⟨valid, served⟩⟩
      · split at commands
        · rename_i ok
          rw [List.mem_singleton.mp commands]
          exact ⟨rfl, Or.inr ⟨rfl, ok⟩⟩
        · exact absurd commands List.not_mem_nil
    · rintro ⟨same, ⟨valid, served⟩ | ⟨topic, ok⟩⟩
      · exact Or.inl ⟨same, valid, served⟩
      · rw [if_pos ok, List.mem_singleton]
        cases sub
        simp only at same topic
        rw [same, topic]
        exact Or.inr rfl

theorem subscribe_once {s : System} {conn : Nat} {deviceID : String} {l : Library}
    (fresh : Fresh s conn deviceID) :
    ((s.subscribe l).tracked.map Subscription.topic).Nodup := by
  rw [subscribe_tracked fresh]
  split
  · exact List.nodup_nil
  · rw [List.map_append, List.nodup_append]
    refine ⟨subscribeTags_once _ _ _ _ _, ?_, ?_⟩
    · split
      · exact List.nodup_singleton _
      · exact List.nodup_nil
    · intro tag member topic commands same
      obtain ⟨sub, isTag, sameTag⟩ := List.mem_map.mp member
      have valid := (mem_subscribeTags.mp isTag).2.2.1
      split at commands
      · rw [sameTag, same, List.mem_singleton.mp commands, commandsTopic_no_tag] at valid
        cases valid
      · exact absurd commands List.not_mem_nil

theorem subscribed_topic {s : System} {conn : Nat} {deviceID : String} {l : Library}
    (fresh : Fresh s conn deviceID) {sub : Subscription} (member : sub ∈ (s.subscribe l).tracked)
    (valid : isValidNATSTopic sub.topic) :
    ∃ k, (s.tags.getD [])[k]? = some sub.topic ∧ l.subscribed k := by
  obtain ⟨_, _, ⟨_, served⟩ | ⟨commands, _⟩⟩ := (mem_subscribe fresh sub).mp member
  · exact served
  · rw [commands, commandsTopic_no_tag] at valid
    cases valid

theorem subscribe_connected {s : System} {conn : Nat} {deviceID : String} {l : Library}
    (fresh : Fresh s conn deviceID) : (s.subscribe l).conn ≠ none := by
  rw [(subscribe_frame s l).1, fresh.current]
  exact Option.some_ne_none _

theorem served_of_safe {s : System} {conn : Nat} {deviceID : String} {l : Library}
    (fresh : Fresh s conn deviceID) (safe : Safe (s.subscribe l)) : Served s.tags deviceID l := by
  obtain ⟨_, _, sameID, sameTags, _⟩ := subscribe_frame s l
  have topics := safe.topics (subscribe_connected fresh)
  rw [sameTags, sameID, fresh.deviceID] at topics
  obtain ⟨sub, member, isCommands⟩ := (topics (commandsTopic deviceID)).mpr
    (Or.inr ⟨deviceID, rfl, Or.inr rfl⟩)
  obtain ⟨isOpen, _, kind⟩ := (mem_subscribe fresh sub).mp member
  have subscribed : l.commandsSubscribed = true := by
    rcases kind with ⟨valid, _⟩ | ⟨_, _, ok⟩
    · rw [isCommands, commandsTopic_no_tag] at valid
      cases valid
    · exact ok
  obtain ⟨device, found, isDevice⟩ := (topics (deviceTopic deviceID)).mpr
    (Or.inr ⟨deviceID, rfl, Or.inl rfl⟩)
  have deviceTag : isValidNATSTopic (deviceTopic deviceID) ∧
      deviceTopic deviceID ∈ s.tags.getD [] := by
    obtain ⟨_, _, ⟨valid, k, here, _⟩ | ⟨commands, _⟩⟩ := (mem_subscribe fresh device).mp found
    · rw [isDevice] at valid here
      exact ⟨valid, List.mem_of_getElem? here⟩
    · rw [isDevice] at commands
      exact absurd commands.symm (commandsTopic_ne deviceID)
  refine ⟨isOpen, subscribed, deviceTag.2, deviceTag.1, ?_⟩
  intro tag member valid
  obtain ⟨sub, subscribed, rfl⟩ := (topics tag).mpr (Or.inl ⟨member, valid⟩)
  exact subscribed_topic fresh subscribed valid

theorem safe_of_served {s : System} {conn : Nat} {deviceID : String} {l : Library}
    (fresh : Fresh s conn deviceID) (spared : s.harmed = false)
    (served : Served s.tags deviceID l) : Safe (s.subscribe l) := by
  obtain ⟨current, _, sameID, sameTags, harmed⟩ := subscribe_frame s l
  obtain ⟨isOpen, subscribed, device, valid, served⟩ := served
  have tagged : ∀ {topic}, topic ∈ s.tags.getD [] → isValidNATSTopic topic →
      ∃ sub ∈ (s.subscribe l).tracked, sub.topic = topic := by
    intro topic member valid
    exact ⟨⟨conn, topic⟩, (mem_subscribe fresh _).mpr
      ⟨isOpen, rfl, Or.inl ⟨valid, served topic member valid⟩⟩, rfl⟩
  refine ⟨by rw [harmed]; exact spared, ?_, ?_, subscribe_once fresh⟩
  · intro sub member
    rw [current, fresh.current, ((mem_subscribe fresh sub).mp member).2.1]
  · intro _ topic
    rw [sameTags, sameID, fresh.deviceID]
    constructor
    · rintro ⟨sub, member, same⟩
      rw [← same]
      obtain ⟨_, _, ⟨valid, k, here, _⟩ | ⟨commands, _⟩⟩ := (mem_subscribe fresh sub).mp member
      · exact Or.inl ⟨List.mem_of_getElem? here, valid⟩
      · exact Or.inr ⟨deviceID, rfl, Or.inr commands⟩
    · rintro (⟨member, valid⟩ | ⟨id, same, isDevice | isCommands⟩)
      · exact tagged member valid
      · rw [isDevice, ← Option.some.inj same]
        exact tagged device valid
      · rw [isCommands, ← Option.some.inj same]
        exact ⟨⟨conn, commandsTopic deviceID⟩, (mem_subscribe fresh _).mpr
          ⟨isOpen, rfl, Or.inr ⟨rfl, deviceTopic_empty valid, subscribed⟩⟩, rfl⟩

theorem subscribe_safe_iff {s : System} {conn : Nat} {deviceID : String} {l : Library}
    (fresh : Fresh s conn deviceID) (spared : s.harmed = false) :
    Safe (s.subscribe l) ↔ Served s.tags deviceID l :=
  ⟨served_of_safe fresh, safe_of_served fresh spared⟩

/-! ### Blocks -/

/-- The current connection is one that was created, with a configuration. -/
structure Grounded (s : System) : Prop where
  numbered : ∀ conn, s.conn = some conn → conn < s.connections
  configured : s.conn ≠ none → s.pushDeviceID ≠ none

theorem isConnectionAlive_alive {s : System} {isClosed : Bool} (alive : Alive s isClosed) :
    s.isConnectionAlive isClosed = (s, true) := by
  obtain ⟨here, isOpen, connected⟩ := alive
  unfold System.isConnectionAlive
  split
  · rename_i absent
    exact absurd absent here
  · rw [isOpen, connected]
    rfl

theorem isConnectionAlive_dead {s : System} {isClosed : Bool} (dead : ¬ Alive s isClosed) :
    ∃ flag, s.isConnectionAlive isClosed = ({ s with isConnected := flag }, false) := by
  unfold System.isConnectionAlive
  split
  · exact ⟨s.isConnected, rfl⟩
  · rename_i conn here
    cases isClosed with
    | true => exact ⟨false, rfl⟩
    | false =>
      cases connected : s.isConnected with
      | true => exact absurd ⟨by rw [here]; exact Option.some_ne_none _, rfl, connected⟩ dead
      | false => exact ⟨s.isConnected, rfl⟩

theorem safe_disconnected {s : System} (gone : s.conn = none) :
    Safe s ↔ s.harmed = false ∧ s.tagSubscriptions = [] ∧ s.commandsSubscription = none := by
  constructor
  · intro safe
    have none : s.tracked = [] := by
      rw [List.eq_nil_iff_forall_not_mem]
      intro sub member
      have current := safe.current sub member
      rw [gone] at current
      cases current
    obtain ⟨tags, commands⟩ := List.append_eq_nil_iff.mp none
    exact ⟨safe.spared, tags, Option.toList_eq_nil_iff.mp commands⟩
  · rintro ⟨spared, tags, commands⟩
    have none : s.tracked = [] := by
      rw [System.tracked, tags, commands]
      rfl
    refine ⟨spared, ?_, fun connected => absurd gone connected, ?_⟩
    · intro sub member
      rw [none] at member
      exact absurd member List.not_mem_nil
    · rw [none]
      exact List.nodup_nil

theorem safe_of_same {s t : System} (safe : Safe s) (conn : t.conn = s.conn)
    (tracked : t.tracked = s.tracked) (harmed : t.harmed = s.harmed)
    (wanted : s.conn ≠ none → ∀ topic,
      Wanted t.tags t.pushDeviceID topic ↔ Wanted s.tags s.pushDeviceID topic) : Safe t := by
  refine ⟨harmed.trans safe.spared, ?_, ?_, ?_⟩
  · rw [tracked, conn]
    exact safe.current
  · rw [tracked, conn]
    intro connected topic
    rw [wanted connected]
    exact safe.topics connected topic
  · rw [tracked]
    exact safe.once

theorem subscription_left {s t : System} (safe : Safe s) (grounded : Grounded s) {conn : Nat}
    (here : s.conn = some conn) (gone : t.conn ≠ some conn)
    (kept : ∀ sub ∈ s.tagSubscriptions, sub ∈ t.tracked) : ¬ Safe t := by
  have connected : s.conn ≠ none := by
    rw [here]
    exact Option.some_ne_none _
  obtain ⟨id, known⟩ := Option.ne_none_iff_exists'.mp (grounded.configured connected)
  obtain ⟨device, deviceIn, isDevice⟩ := (safe.topics connected (deviceTopic id)).mpr
    (Or.inr ⟨id, known, Or.inl rfl⟩)
  obtain ⟨commands, commandsIn, isCommands⟩ := (safe.topics connected (commandsTopic id)).mpr
    (Or.inr ⟨id, known, Or.inr rfl⟩)
  -- two topics, of which the one pointer for the commands is only one
  have tagged : ∃ sub, sub ∈ s.tagSubscriptions := by
    rcases List.mem_append.mp deviceIn with tag | single
    · exact ⟨device, tag⟩
    rcases List.mem_append.mp commandsIn with tag | other
    · exact ⟨commands, tag⟩
    · rw [Option.mem_toList] at single other
      rw [single, Option.some.injEq] at other
      rw [← other, isDevice] at isCommands
      exact absurd isCommands.symm (commandsTopic_ne id)
  obtain ⟨sub, member⟩ := tagged
  intro safe'
  apply gone
  rw [safe'.current sub (kept sub member)]
  exact (safe.current sub (List.mem_append_left _ member)).symm.trans here

theorem tagsChanged_same {old new : Option (List String)} (same : tagsChanged old new = false)
    (topic : String) : topic ∈ new.getD [] ↔ topic ∈ old.getD [] := by
  cases old with
  | none =>
    cases new with
    | none => exact Iff.rfl
    | some new => cases same
  | some old =>
    cases new with
    | none => cases same
    | some new =>
      simp only [tagsChanged, Bool.not_eq_false', Bool.and_eq_true, List.all_eq_true,
        decide_eq_true_eq] at same
      exact ⟨same.2 topic, same.1 topic⟩

theorem wanted_same {s : System} {c : Configuration} (same : s.topicsChanged c = false)
    (topic : String) :
    Wanted c.tags (some c.deviceID) topic ↔ Wanted s.tags s.pushDeviceID topic := by
  simp only [System.topicsChanged, Bool.or_eq_false_iff, decide_eq_false_iff_not, not_not] at same
  rw [Wanted, Wanted, same.1, tagsChanged_same same.2]

theorem configure_safe_iff {s : System} (safe : Safe s) (c : Configuration) (l : Library) :
    Safe (s.configureWithPushServer c l) ↔ Orderly s l (.configure c) := by
  unfold System.configureWithPushServer
  split
  · rename_i off
    rw [Bool.or_eq_true, Bool.not_eq_true'] at off
    refine iff_of_true safe ?_
    rcases off with stopping | invalid
    · exact Or.inl stopping
    · exact Or.inr (Or.inl invalid)
  rename_i on
  rw [Bool.or_eq_true, not_or, Bool.not_eq_true, Bool.not_eq_true, Bool.not_eq_false'] at on
  by_cases alive : Alive s l.isClosed
  · rw [isConnectionAlive_alive alive]
    by_cases credentials : s.credentialsChanged c = true
    · simp only [credentials, Bool.or_true, Bool.and_true, if_true]
      exact iff_of_true ((safe_disconnected rfl).mpr ⟨safe.spared, rfl, rfl⟩)
        (Or.inr (Or.inr (Or.inr (Or.inl ⟨alive, Or.inl credentials⟩))))
    rw [Bool.not_eq_true] at credentials
    by_cases topics : s.topicsChanged c = true
    · obtain ⟨conn, here⟩ := Option.ne_none_iff_exists'.mp alive.1
      simp only [credentials, topics, Bool.or_false, Bool.and_true, if_true,
        Bool.false_eq_true, if_false]
      have fresh : Fresh (s.unsubscribeAll.store c) conn c.deviceID :=
        ⟨on.1, here, alive.2.2, rfl, rfl, rfl⟩
      rw [subscribe_safe_iff fresh safe.spared]
      constructor
      · exact fun served => Or.inr (Or.inr (Or.inr (Or.inl ⟨alive, Or.inr (Or.inr served)⟩)))
      · rintro (stopping | invalid | gone | ⟨_, changed | same | served⟩ | ⟨dead, _⟩)
        · rw [on.1] at stopping
          cases stopping
        · rw [on.2] at invalid
          cases invalid
        · exact absurd gone alive.1
        · rw [credentials] at changed
          cases changed
        · rw [topics] at same
          cases same
        · exact served
        · exact absurd alive dead
    · rw [Bool.not_eq_true] at topics
      simp only [credentials, topics, Bool.or_false, Bool.false_and, Bool.false_eq_true, if_false]
      exact iff_of_true
        (safe_of_same safe rfl rfl rfl fun _ => wanted_same topics)
        (Or.inr (Or.inr (Or.inr (Or.inl ⟨alive, Or.inr (Or.inl topics)⟩))))
  · obtain ⟨flag, dead⟩ := isConnectionAlive_dead alive
    simp only [dead, Bool.and_false, Bool.false_eq_true, if_false]
    have stored : ∀ t : System, t.conn = s.conn → t.tracked = s.tracked → t.harmed = s.harmed →
        t.tags = c.tags → t.pushDeviceID = some c.deviceID →
          (Safe t ↔ Orderly s l (.configure c)) := by
      intro t conn tracked harmed tags id
      by_cases gone : s.conn = none
      · refine iff_of_true (safe_of_same safe conn tracked harmed fun connected => ?_)
          (Or.inr (Or.inr (Or.inl gone)))
        exact absurd gone connected
      · constructor
        · intro after
          refine Or.inr (Or.inr (Or.inr (Or.inr ⟨alive, fun topic => ?_⟩)))
          have there := after.topics (by rw [conn]; exact gone) topic
          rw [tracked, tags, id] at there
          exact there.symm.trans (safe.topics gone topic)
        · rintro (stopping | invalid | absent | ⟨live, _⟩ | ⟨_, same⟩)
          · rw [on.1] at stopping
            cases stopping
          · rw [on.2] at invalid
            cases invalid
          · exact absurd absent gone
          · exact absurd live alive
          · refine safe_of_same safe conn tracked harmed fun _ topic => ?_
            rw [tags, id]
            exact same topic
    split
    · exact stored _ rfl rfl rfl rfl rfl
    · exact stored _ rfl rfl rfl rfl rfl

theorem scheduleConnectionRetry_frame (s : System) (timer : Bool) :
    (s.scheduleConnectionRetry timer).conn = s.conn ∧
      (s.scheduleConnectionRetry timer).tagSubscriptions = s.tagSubscriptions ∧
      (s.scheduleConnectionRetry timer).commandsSubscription = s.commandsSubscription ∧
      (s.scheduleConnectionRetry timer).harmed = s.harmed ∧
      (s.scheduleConnectionRetry timer).connections = s.connections ∧
      (s.scheduleConnectionRetry timer).pushDeviceID = s.pushDeviceID := by
  unfold System.scheduleConnectionRetry
  split
  · exact ⟨rfl, rfl, rfl, rfl, rfl, rfl⟩
  · exact ⟨rfl, rfl, rfl, rfl, rfl, rfl⟩

theorem subscribe_adds (s : System) (l : Library) :
    ∃ more, (s.subscribe l).tagSubscriptions = s.tagSubscriptions ++ more := by
  unfold System.subscribe
  split
  · exact ⟨[], (List.append_nil _).symm⟩
  cases conn : s.conn with
  | none => exact ⟨[], by simp [System.isConnectionAlive, conn]⟩
  | some c =>
    cases l.isClosedAfter with
    | true => exact ⟨[], by simp [System.isConnectionAlive, conn]⟩
    | false =>
      cases alive : s.isConnected with
      | false => exact ⟨[], by simp [System.isConnectionAlive, conn, alive]⟩
      | true =>
        refine ⟨subscribeTags c l.subscribed 0 [] (s.tags.getD []), ?_⟩
        simp only [System.isConnectionAlive, conn, alive, Bool.false_eq_true, if_false]
        split
        · rfl
        · split
          · rfl
          · rfl

theorem connect_rest {s : System} {l : Library} (running : s.isShuttingDown = false)
    (dead : ¬ Alive s l.isClosed) :
    ∃ flag, s.connect l =
      let stale : System := { s with conn := none, isConnected := flag }
      if !stale.hasRequiredConfiguration || !l.options ||
        !validServer (stale.pushServer.getD "") then stale
      else if l.connects then stale.connected.subscribe l
      else stale.scheduleConnectionRetry l.timer := by
  obtain ⟨flag, answer⟩ := isConnectionAlive_dead dead
  cases conn : s.conn with
  | none =>
    refine ⟨flag, ?_⟩
    simp only [System.connect, running, answer, conn, Option.isSome_none, Bool.false_eq_true,
      if_false]
  | some c =>
    refine ⟨false, ?_⟩
    simp only [System.connect, running, answer, conn, Option.isSome_some, Bool.false_eq_true,
      if_false, if_true]

theorem connect_safe_iff {s : System} (safe : Safe s) (grounded : Grounded s) (l : Library) :
    Safe (s.connect l) ↔ Orderly s l .connect := by
  by_cases stopping : s.isShuttingDown = true
  · have same : s.connect l = s := by rw [System.connect, if_pos stopping]
    rw [same]
    exact iff_of_true safe (Or.inl stopping)
  by_cases alive : Alive s l.isClosed
  · have same : s.connect l = s := by
      rw [System.connect, if_neg stopping, isConnectionAlive_alive alive]
      rfl
    rw [same]
    exact iff_of_true safe (Or.inr (Or.inl alive))
  obtain ⟨flag, result⟩ := connect_rest (Bool.eq_false_iff.mpr stopping) alive
  rw [result]
  simp only
  cases conn : s.conn with
  | some c =>
    refine iff_of_false ?_ ?_
    · split
      · exact subscription_left safe grounded conn (fun still => by cases still)
          fun sub member => List.mem_append_left _ member
      · split
        · refine subscription_left safe grounded conn ?_ ?_
          · rw [(subscribe_frame _ _).1]
            intro still
            have fresh := grounded.numbered c conn
            exact absurd (Option.some.inj still) (Nat.ne_of_gt fresh)
          · intro sub member
            obtain ⟨more, tags⟩ := subscribe_adds
              (System.connected { s with conn := none, isConnected := flag }) l
            rw [System.tracked, tags]
            exact List.mem_append_left _ (List.mem_append_left _ member)
        · obtain ⟨gone, tags, _⟩ :=
            scheduleConnectionRetry_frame { s with conn := none, isConnected := flag } l.timer
          refine subscription_left safe grounded conn ?_ ?_
          · rw [gone]
            exact (Option.some_ne_none c).symm
          intro sub member
          rw [System.tracked, tags]
          exact List.mem_append_left _ member
    · rintro (down | live | ⟨absent, _⟩)
      · exact stopping down
      · exact alive live
      · rw [conn] at absent
        cases absent
  | none =>
    obtain ⟨spared, tags, commands⟩ := (safe_disconnected conn).mp safe
    have orderly : Orderly s l .connect ↔ (s.hasRequiredConfiguration = true → l.options = true →
        validServer (s.pushServer.getD "") = true → l.connects = true →
          Served s.tags (s.pushDeviceID.getD "") l) := by
      constructor
      · rintro (down | live | ⟨_, served⟩)
        · exact absurd down stopping
        · exact absurd live alive
        · exact served
      · exact fun served => Or.inr (Or.inr ⟨conn, served⟩)
    rw [orderly]
    split
    · rename_i missing
      refine iff_of_true ((safe_disconnected rfl).mpr ⟨spared, tags, commands⟩) ?_
      intro required options valid
      have there : System.hasRequiredConfiguration { s with conn := none, isConnected := flag } =
        true := required
      rw [there, options, valid] at missing
      cases missing
    · rename_i ready
      simp only [Bool.or_eq_true, Bool.not_eq_true', not_or, Bool.not_eq_false] at ready
      have required : s.hasRequiredConfiguration = true := ready.1.1
      split
      · rename_i connects
        have known : s.pushDeviceID.isSome = true := by
          simp only [System.hasRequiredConfiguration, Bool.and_eq_true] at required
          exact required.2
        obtain ⟨id, isID⟩ := Option.isSome_iff_exists.mp known
        have fresh : Fresh (System.connected { s with conn := none, isConnected := flag })
            s.connections id :=
          ⟨Bool.eq_false_iff.mpr stopping, rfl, rfl, tags, commands, isID⟩
        rw [subscribe_safe_iff fresh spared, isID]
        exact ⟨fun served _ _ _ _ => served,
          fun served => served required ready.1.2 ready.2 connects⟩
      · rename_i refused
        obtain ⟨gone, sameTags, sameCommands, harmed, _⟩ :=
          scheduleConnectionRetry_frame { s with conn := none, isConnected := flag } l.timer
        refine iff_of_true ((safe_disconnected gone).mpr ⟨harmed.trans spared,
          sameTags.trans tags, sameCommands.trans commands⟩) ?_
        exact fun _ _ _ connects => absurd connects refused

theorem disconnect_safe {s : System} (safe : Safe s) : Safe s.disconnect :=
  (safe_disconnected rfl).mpr ⟨safe.spared, rfl, rfl⟩

theorem flag_safe_iff {s : System} (safe : Safe s) (flag : Bool) (nc : Nat) :
    Safe { s with
        isConnected := flag
        harmed := s.harmed || System.harms s { s with isConnected := flag } nc } ↔
      (s.conn = none ∨ s.conn = some nc ∨ s.isConnected = false ∨ flag = true) := by
  have harms : System.harms s { s with isConnected := flag } nc = false ↔
      (s.conn = none ∨ s.conn = some nc ∨ s.isConnected = false ∨ flag = true) := by
    unfold System.harms
    cases s.conn with
    | none => simp
    | some conn => cases s.isConnected <;> cases flag <;> simp
  rw [← harms]
  constructor
  · intro after
    have spared := after.spared
    simp only [Bool.or_eq_false_iff] at spared
    exact spared.2
  · intro spared
    exact safe_of_same safe rfl rfl (by simp only [spared, Bool.or_false]) fun _ _ => Iff.rfl

theorem closed_safe_iff {s : System} (safe : Safe s) (grounded : Grounded s) (timer : Bool)
    (nc : Nat) :
    Safe { s.closedCallback timer with
        harmed := s.harmed || System.harms s (s.closedCallback timer) nc } ↔
      (s.conn = none ∨ (s.isShuttingDown = true ∧ (s.conn = some nc ∨ s.isConnected = false))) := by
  by_cases destroys : (!s.isShuttingDown && s.conn.isSome) = true
  · have result : s.closedCallback timer =
        System.scheduleConnectionRetry { s with isConnected := false, conn := none } timer := by
      rw [System.closedCallback, if_pos destroys]
    rw [Bool.and_eq_true, Bool.not_eq_true'] at destroys
    obtain ⟨running, there⟩ := destroys
    obtain ⟨conn, here⟩ := Option.isSome_iff_exists.mp there
    obtain ⟨gone, tags, _⟩ :=
      scheduleConnectionRetry_frame { s with isConnected := false, conn := none } timer
    refine iff_of_false (subscription_left safe grounded here ?_ ?_) ?_
    · rw [result]
      simp only [gone]
      exact (Option.some_ne_none conn).symm
    · intro sub member
      rw [result]
      refine List.mem_append_left _ ?_
      simp only [tags]
      exact member
    · rintro (absent | ⟨stopping, _⟩)
      · rw [here] at absent
        cases absent
      · rw [running] at stopping
        cases stopping
  · have result : s.closedCallback timer = { s with isConnected := false } := by
      rw [System.closedCallback, if_neg destroys]
    rw [result]
    refine (flag_safe_iff safe false nc).trans ?_
    rw [Bool.and_eq_true, Bool.not_eq_true', not_and_or, Bool.not_eq_false,
      Option.not_isSome_iff_eq_none] at destroys
    constructor
    · rintro (absent | own | unconnected | impossible)
      · exact Or.inl absent
      · rcases destroys with stopping | absent
        · exact Or.inr ⟨stopping, Or.inl own⟩
        · exact Or.inl absent
      · rcases destroys with stopping | absent
        · exact Or.inr ⟨stopping, Or.inr unconnected⟩
        · exact Or.inl absent
      · cases impossible
    · rintro (absent | ⟨_, own | unconnected⟩)
      · exact Or.inl absent
      · exact Or.inr (Or.inl own)
      · exact Or.inr (Or.inr (Or.inl unconnected))

theorem error_safe_iff {s : System} (safe : Safe s) (grounded : Grounded s) (l : Library) :
    Safe (s.errorHandler l) ↔ (s.conn = none ∨ l.isClosed = false) := by
  unfold System.errorHandler
  split
  · rename_i destroys
    rw [Bool.and_eq_true] at destroys
    obtain ⟨conn, here⟩ := Option.isSome_iff_exists.mp destroys.1
    obtain ⟨gone, tags, _⟩ :=
      scheduleConnectionRetry_frame { s with isConnected := false, conn := none } l.timer
    refine iff_of_false (subscription_left safe grounded here ?_ ?_) ?_
    · rw [gone]
      exact (Option.some_ne_none conn).symm
    · intro sub member
      rw [System.tracked, tags]
      exact List.mem_append_left _ member
    · rintro (absent | isOpen)
      · rw [here] at absent
        cases absent
      · rw [destroys.2] at isOpen
        cases isOpen
  · rename_i keeps
    rw [Bool.and_eq_true, not_and_or, Option.not_isSome_iff_eq_none, Bool.not_eq_true] at keeps
    exact iff_of_true safe keeps

theorem block_safe_iff {s : System} (safe : Safe s) (grounded : Grounded s) (l : Library)
    (b : Block) : Safe (s.runBlock l b) ↔ Orderly s l b := by
  cases b with
  | configure c => exact configure_safe_iff safe c l
  | connect => exact connect_safe_iff safe grounded l
  | disconnect => exact iff_of_true (disconnect_safe safe) trivial
  | callback kind nc =>
    cases kind with
    | disconnected =>
      refine (flag_safe_iff safe false nc).trans ?_
      simp only [Bool.false_eq_true, or_false]
      exact Iff.rfl
    | reconnected =>
      refine (flag_safe_iff safe true nc).trans ?_
      exact iff_of_true (Or.inr (Or.inr (Or.inr rfl))) trivial
    | closed => exact closed_safe_iff safe grounded l.timer nc
    | error => exact error_safe_iff safe grounded l

/-! ### Runs -/

theorem grounded_of_same {s t : System} (grounded : Grounded s)
    (conn : t.conn = none ∨ t.conn = s.conn) (connections : t.connections = s.connections)
    (id : t.pushDeviceID = s.pushDeviceID ∨ t.pushDeviceID ≠ none) : Grounded t := by
  refine ⟨?_, ?_⟩
  · intro c here
    rw [connections]
    rcases conn with gone | same
    · rw [gone] at here
      cases here
    · exact grounded.numbered c (same.symm.trans here)
  · intro here
    rcases id with same | known
    · rw [same]
      rcases conn with gone | same
      · exact absurd gone here
      · exact grounded.configured (by rw [← same]; exact here)
    · exact known

theorem configure_grounded {s : System} (grounded : Grounded s) (c : Configuration) (l : Library) :
    Grounded (s.configureWithPushServer c l) := by
  unfold System.configureWithPushServer
  split
  · exact grounded
  by_cases alive : Alive s l.isClosed
  · rw [isConnectionAlive_alive alive]
    simp only [Bool.and_true]
    cases s.credentialsChanged c with
    | true =>
      simp only [Bool.or_true, if_true]
      exact grounded_of_same grounded (Or.inl rfl) rfl (Or.inr (Option.some_ne_none _))
    | false =>
      cases s.topicsChanged c with
      | true =>
        obtain ⟨conn, connections, id, _⟩ := subscribe_frame (s.unsubscribeAll.store c) l
        simp only [Bool.or_false, if_true, Bool.false_eq_true, if_false]
        exact grounded_of_same grounded (Or.inr conn) connections
          (Or.inr (by rw [id]; exact Option.some_ne_none _))
      | false =>
        exact grounded_of_same grounded (Or.inr rfl) rfl (Or.inr (Option.some_ne_none _))
  · obtain ⟨flag, dead⟩ := isConnectionAlive_dead alive
    simp only [dead, Bool.and_false, Bool.false_eq_true, if_false]
    split
    · exact grounded_of_same grounded (Or.inr rfl) rfl (Or.inr (Option.some_ne_none _))
    · exact grounded_of_same grounded (Or.inr rfl) rfl (Or.inr (Option.some_ne_none _))

theorem connect_grounded {s : System} (grounded : Grounded s) (l : Library) :
    Grounded (s.connect l) := by
  by_cases stopping : s.isShuttingDown = true
  · rw [System.connect, if_pos stopping]
    exact grounded
  by_cases alive : Alive s l.isClosed
  · rw [System.connect, if_neg stopping, isConnectionAlive_alive alive]
    exact grounded
  obtain ⟨flag, result⟩ := connect_rest (Bool.eq_false_iff.mpr stopping) alive
  rw [result]
  simp only
  split
  · exact grounded_of_same grounded (Or.inl rfl) rfl (Or.inl rfl)
  · rename_i ready
    split
    · simp only [Bool.or_eq_true, Bool.not_eq_true', not_or, Bool.not_eq_false] at ready
      have known : s.pushDeviceID.isSome = true := by
        have required : s.hasRequiredConfiguration = true := ready.1.1
        simp only [System.hasRequiredConfiguration, Bool.and_eq_true] at required
        exact required.2
      obtain ⟨conn, connections, id, _⟩ :=
        subscribe_frame (System.connected { s with conn := none, isConnected := flag }) l
      refine ⟨?_, ?_⟩
      · intro c here
        rw [conn] at here
        rw [connections, ← Option.some.inj here]
        exact Nat.lt_succ_self _
      · intro _
        rw [id]
        exact Option.isSome_iff_ne_none.mp known
    · obtain ⟨gone, _, _, _, connections, id⟩ :=
        scheduleConnectionRetry_frame { s with conn := none, isConnected := flag } l.timer
      exact grounded_of_same grounded (Or.inl gone) connections (Or.inl id)

theorem block_grounded {s : System} (grounded : Grounded s) (l : Library) (b : Block) :
    Grounded (s.runBlock l b) := by
  cases b with
  | configure c => exact configure_grounded grounded c l
  | connect => exact connect_grounded grounded l
  | disconnect => exact grounded_of_same grounded (Or.inl rfl) rfl (Or.inl rfl)
  | callback kind nc =>
    obtain ⟨gone, _, _, _, connections, id⟩ :=
      scheduleConnectionRetry_frame { s with isConnected := false, conn := none } l.timer
    cases kind with
    | disconnected => exact grounded_of_same grounded (Or.inr rfl) rfl (Or.inl rfl)
    | reconnected => exact grounded_of_same grounded (Or.inr rfl) rfl (Or.inl rfl)
    | closed =>
      simp only [System.runBlock, System.callback, System.closedCallback]
      split
      · exact grounded_of_same grounded (Or.inl gone) connections (Or.inl id)
      · exact grounded_of_same grounded (Or.inr rfl) rfl (Or.inl rfl)
    | error =>
      simp only [System.runBlock, System.callback, System.errorHandler]
      split
      · exact grounded_of_same grounded (Or.inl gone) connections (Or.inl id)
      · exact grounded

theorem step_outside {s t : System} {l : Label} (h : step s l = some t) :
    (t.conn = s.conn ∧ t.connections = s.connections ∧ t.tracked = s.tracked ∧
      t.harmed = s.harmed ∧ t.tags = s.tags ∧ t.pushDeviceID = s.pushDeviceID) ∨
    ∃ library b rest, l = .dequeue library ∧ s.connectionQueue = b :: rest ∧
      t = System.runBlock { s with connectionQueue := rest } library b := by
  cases l with
  | handlePreflightSyncState syncState =>
    simp only [step] at h
    split at h
    · rw [← Option.some.inj h]
      exact Or.inl ⟨rfl, rfl, rfl, rfl, rfl, rfl⟩
    · rw [← Option.some.inj h]
      exact Or.inl ⟨rfl, rfl, rfl, rfl, rfl, rfl⟩
  | disconnectWithCompletion =>
    simp only [step] at h
    split at h
    · rw [← Option.some.inj h]
      exact Or.inl ⟨rfl, rfl, rfl, rfl, rfl, rfl⟩
    · rw [← Option.some.inj h]
      exact Or.inl ⟨rfl, rfl, rfl, rfl, rfl, rfl⟩
  | called kind nc =>
    simp only [step] at h
    split at h
    · rw [← Option.some.inj h]
      exact Or.inl ⟨rfl, rfl, rfl, rfl, rfl, rfl⟩
    · cases h
  | retry =>
    simp only [step] at h
    split at h
    · rw [← Option.some.inj h]
      split
      · exact Or.inl ⟨rfl, rfl, rfl, rfl, rfl, rfl⟩
      · exact Or.inl ⟨rfl, rfl, rfl, rfl, rfl, rfl⟩
    · cases h
  | dequeue library =>
    simp only [step] at h
    split at h
    · cases h
    · rename_i b rest queue
      exact Or.inr ⟨library, b, rest, rfl, queue, (Option.some.inj h).symm⟩

theorem orderly_queue (s : System) (l : Library) (b : Block) (rest : List Block) :
    Orderly { s with connectionQueue := rest } l b ↔ Orderly s l b := by
  cases b with
  | callback kind nc => cases kind <;> exact Iff.rfl
  | configure c => exact Iff.rfl
  | connect => exact Iff.rfl
  | disconnect => exact Iff.rfl

/-- From a state in order, a step stays in order exactly when its block finds what it must. -/
theorem step_safe_iff {s t : System} {l : Label} (safe : Safe s) (grounded : Grounded s)
    (h : step s l = some t) : Grounded t ∧ (Safe t ↔ InOrder s l) := by
  rcases step_outside h with ⟨conn, connections, tracked, harmed, tags, id⟩ |
    ⟨library, b, rest, isDequeue, queue, result⟩
  · refine ⟨grounded_of_same grounded (Or.inr conn) connections (Or.inl id), ?_⟩
    have after : Safe t := safe_of_same safe conn tracked harmed fun _ _ => by rw [tags, id]
    refine iff_of_true after ?_
    cases l with
    | dequeue library =>
      intro b rest queue
      simp only [step, queue, Option.some.injEq] at h
      have popped : Safe { s with connectionQueue := rest } :=
        safe_of_same safe rfl rfl rfl fun _ _ => Iff.rfl
      have on : Grounded { s with connectionQueue := rest } :=
        grounded_of_same grounded (Or.inr rfl) rfl (Or.inl rfl)
      rw [← h, block_safe_iff popped on, orderly_queue] at after
      exact after
    | handlePreflightSyncState syncState => trivial
    | disconnectWithCompletion => trivial
    | called kind nc => trivial
    | retry => trivial
  · have popped : Safe { s with connectionQueue := rest } :=
      safe_of_same safe rfl rfl rfl fun _ _ => Iff.rfl
    have on : Grounded { s with connectionQueue := rest } :=
      grounded_of_same grounded (Or.inr rfl) rfl (Or.inl rfl)
    rw [result, isDequeue]
    refine ⟨block_grounded on library b, ?_⟩
    rw [block_safe_iff popped on, orderly_queue]
    constructor
    · intro orderly b' rest' queue'
      rw [queue] at queue'
      injection queue' with same _
      rw [← same]
      exact orderly
    · exact fun inOrder => inOrder b rest queue

theorem start_safe : Safe System.start ∧ Grounded System.start :=
  ⟨(safe_disconnected rfl).mpr ⟨rfl, rfl, rfl⟩,
    ⟨fun _ here => (by cases here), fun connected => absurd rfl connected⟩⟩

/-- The connection and its subscriptions stay in order in a run exactly when each of its blocks
    runs in order. -/
theorem ownership_iff (ls : List Label) :
    Runs.Always step Safe .start ls ↔ Runs.Meets step InOrder .start ls := by
  refine Runs.always_iff_meets (fun s => Safe s ∧ Grounded s) (fun _ inv => inv.1) ?_ ?_
    start_safe ls
  · rintro s l t ⟨safe, grounded⟩ ordered h
    obtain ⟨on, same⟩ := step_safe_iff safe grounded h
    exact ⟨same.mpr ordered, on⟩
  · rintro s l t ⟨safe, grounded⟩ disordered h after
    exact disordered ((step_safe_iff safe grounded h).2.mp after)

def answers : Library := ⟨false, false, true, true, fun _ => true, true, true⟩

def preflight (jwt : String) : SNTSyncState :=
  ⟨some "tls://a.push.northpole.security:443", some "seed", some jwt, some "d1",
    some ["santa.host.d1", "santa.tag.global"]⟩

/-- A sync brings new credentials while a connection is up; the old connection's closed callback
    comes in once the new one has been made. -/
def credentialsRefreshed : List Label :=
  [.handlePreflightSyncState (preflight "first"), .dequeue answers, .dequeue answers,
    .dequeue answers, .handlePreflightSyncState (preflight "second"), .dequeue answers,
    .called .closed 0, .dequeue answers, .dequeue answers, .dequeue answers]

/-- It takes the new connection away. -/
theorem earlier_close_harms : ¬ ∀ ls, Runs.Always step Safe .start ls := by
  intro always
  have harmed : (Runs.run step .start credentialsRefreshed).map System.harmed = some true := by
    decide +kernel
  obtain ⟨last, ends, isHarmed⟩ := Option.map_eq_some_iff.mp harmed
  have spared := (Runs.always_last (always credentialsRefreshed) ends).spared
  rw [isHarmed] at spared
  cases spared

end SantaPushConnection
