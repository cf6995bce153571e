import Santa.Library.Runs
import Mathlib.Data.List.Count
import Mathlib.Logic.Basic

/-!
Connections to a listener. A new connection exports an interface with one message, which the
client sends first; when it comes, the listener exports the real interface and object instead,
and replies. Messages of one connection are handled one after the other, by what is exported
then. Any process may connect, and send what it likes; a client of this class sends calls only
through a proxy. When the service ends, what was on the way is lost, and the next message makes
a new connection on its side. The check of a code signature is a parameter of the label.
-/
namespace SantaXPCConnection

abbrev Selector := String
abbrev Interface := List Selector

def connectSelector : Selector := "connectWithReply:"
def validationInterface : Interface := [connectSelector]

structure Listener where
  privilegedInterface : Option Interface
  unprivilegedInterface : Option Interface
  exportedObject : Option Nat
  deriving DecidableEq, Repr

def Listener.interface (listener : Listener) (effectiveUserIdentifier : Nat) : Option Interface :=
  if effectiveUserIdentifier = 0 then listener.privilegedInterface
  else listener.unprivilegedInterface

inductive Message where
  | connectWithReply
  | call (selector : Selector)
  deriving DecidableEq, Repr

def Message.selector : Message → Selector
  | .connectWithReply => connectSelector
  | .call selector => selector

inductive ExportedObject where
  | connectionInterface
  | object (exported : Option Nat)
  deriving DecidableEq, Repr

structure Side where
  interface : Interface
  exportedInterface : Interface
  exportedObject : ExportedObject
  deriving DecidableEq, Repr

inductive Server where
  | unasked
  | refused
  | accepted (side : Side)
  deriving DecidableEq, Repr

inductive RemoteObjectInterface where
  | none
  | validation
  | remote
  deriving DecidableEq, Repr

inductive Phase where
  | waiting
  | late
  | resumed
  deriving DecidableEq, Repr

structure Client where
  remoteInterface : Option Interface
  remoteObjectInterface : RemoteObjectInterface
  phase : Phase
  signalled : Bool
  acceptedHandlers : Nat
  proxy : Bool
  deriving DecidableEq, Repr

def Client.isConnected (client : Client) : Bool := client.remoteObjectInterface = .remote

inductive Peer where
  | other
  | client (client : Client)
  deriving DecidableEq, Repr

structure Connection where
  effectiveUserIdentifier : Nat
  peer : Peer
  server : Server
  toServer : List Message
  replies : Nat
  interrupted : Bool
  invalid : Bool
  deriving DecidableEq, Repr

inductive Event where
  | asked (effectiveUserIdentifier : Nat) (signingInformationMatches : Bool) (listener : Listener)
  | connected (exportedObject : Option Nat)
  | called (selector : Selector) (object : Nat)
  | dropped (selector : Selector)
  deriving DecidableEq, Repr

inductive Act where
  | shouldAcceptNewConnection (signingInformationMatches : Bool)
  | send (message : Message)
  | deliver
  | reply
  | remoteObjectProxy
  | call (selector : Selector)
  | wake
  | timeOut
  | invalidate
  | interrupt
  | invalidationHandler

namespace Connection

def ofOther (effectiveUserIdentifier : Nat) : Connection :=
  ⟨effectiveUserIdentifier, .other, .unasked, [], 0, false, false⟩

def ofClient (effectiveUserIdentifier : Nat) (remoteInterface : Option Interface) : Connection :=
  ⟨effectiveUserIdentifier, .client ⟨remoteInterface, .validation, .waiting, false, 0, false⟩,
    .unasked, [.connectWithReply], 0, false, false⟩

def shouldAccept (listener : Listener) (signingInformationMatches : Bool) (c : Connection) :
    Server :=
  match listener.interface c.effectiveUserIdentifier with
  | none => .refused
  | some interface =>
      if signingInformationMatches then
        .accepted ⟨interface, validationInterface, .connectionInterface⟩
      else .refused

/-- A message is invoked on what is exported, if there is an object and its interface has it. -/
def handle (listener : Listener) (c : Connection) (side : Side) (message : Message)
    (rest : List Message) : Connection × List Event :=
  if message.selector ∈ side.exportedInterface then
    match side.exportedObject with
    | .connectionInterface =>
        ({ c with
            server := .accepted
              { side with
                exportedInterface := side.interface
                exportedObject := .object listener.exportedObject }
            toServer := rest
            replies := if message = .connectWithReply then c.replies + 1 else c.replies },
          [.connected listener.exportedObject])
    | .object (some object) => ({ c with toServer := rest }, [.called message.selector object])
    | .object none => ({ c with toServer := rest }, [.dropped message.selector])
  else ({ c with toServer := rest }, [.dropped message.selector])

def accept (client : Client) : Client :=
  { client with
    remoteObjectInterface := if client.remoteInterface.isSome then .remote else .none
    signalled := true
    acceptedHandlers := client.acceptedHandlers + 1 }

/-- The validation interface is left in place. -/
def handleInvalidation (client : Client) : Client :=
  if client.remoteObjectInterface ≠ .validation then
    { client with remoteObjectInterface := .none }
  else client

def ofPeer (c : Connection) (f : Client → Option Connection) : Option Connection :=
  match c.peer with
  | .other => none
  | .client client => f client

def step (listener : Listener) (c : Connection) : Act → Option (Connection × List Event)
  | .shouldAcceptNewConnection signingInformationMatches =>
      if c.server = .unasked ∧ c.invalid = false then
        some ({ c with server := shouldAccept listener signingInformationMatches c },
          [.asked c.effectiveUserIdentifier signingInformationMatches listener])
      else none
  | .send message =>
      if c.peer = .other ∧ c.invalid = false then
        some ({ c with toServer := c.toServer ++ [message] }, [])
      else none
  | .deliver =>
      match c.server, c.toServer with
      | .accepted side, message :: rest =>
          if c.invalid = false then some (handle listener c side message rest) else none
      | _, _ => none
  | .reply =>
      (c.ofPeer fun client =>
        if 0 < c.replies ∧ c.invalid = false then
          some { c with peer := .client (accept client), replies := c.replies - 1 }
        else none).map (·, [])
  | .remoteObjectProxy =>
      (c.ofPeer fun client =>
        some { c with
          peer := .client { client with proxy := client.proxy || client.isConnected } }).map
          (·, [])
  | .call selector =>
      (c.ofPeer fun client =>
        if client.proxy ∧ (∃ interface ∈ client.remoteInterface, selector ∈ interface) ∧
            c.invalid = false then
          some { c with toServer := c.toServer ++ [.call selector] }
        else none).map (·, [])
  | .wake =>
      (c.ofPeer fun client =>
        if client.phase = .waiting ∧ client.signalled then
          some { c with peer := .client { client with phase := .resumed } }
        else none).map (·, [])
  | .timeOut =>
      (c.ofPeer fun client =>
        if client.phase = .waiting ∧ client.signalled = false then
          some { c with
            peer := .client { client with remoteObjectInterface := .none, phase := .late } }
        else none).map (·, [])
  | .invalidate =>
      if c.invalid = false then
        some ({ c with server := .refused, toServer := [], replies := 0, invalid := true }, [])
      else none
  | .interrupt =>
      if c.invalid = false ∧ c.server ≠ .refused then
        some ({ c with server := .unasked, toServer := [], replies := 0, interrupted := true }, [])
      else none
  | .invalidationHandler =>
      (c.ofPeer fun client =>
        if c.interrupted ∨ c.invalid ∨ c.server = .refused then
          some { c with peer := .client (handleInvalidation client) }
        else none).map (·, [])

end Connection

/-! ### All connections -/

structure World where
  listener : Listener
  connections : Nat → Option Connection
  log : List (Nat × Event)

inductive Label where
  | configure (listener : Listener)
  | connectOther (i effectiveUserIdentifier : Nat)
  | connectClient (i effectiveUserIdentifier : Nat) (remoteInterface : Option Interface)
  | act (i : Nat) (act : Act)

namespace World

def start (listener : Listener) : World := ⟨listener, fun _ => none, []⟩

def update (w : World) (i : Nat) (c : Connection) : Nat → Option Connection :=
  fun j => if j = i then some c else w.connections j

def connect (w : World) (i : Nat) (c : Connection) : Option World :=
  if w.connections i = none then some { w with connections := w.update i c } else none

def step (w : World) : Label → Option World
  | .configure listener => some { w with listener := listener }
  | .connectOther i effectiveUserIdentifier =>
      w.connect i (.ofOther effectiveUserIdentifier)
  | .connectClient i effectiveUserIdentifier remoteInterface =>
      w.connect i (.ofClient effectiveUserIdentifier remoteInterface)
  | .act i act =>
      (w.connections i).bind fun c =>
        (c.step w.listener act).map fun (c, events) =>
          { w with connections := w.update i c, log := w.log ++ events.map (i, ·) }

def history (w : World) (i : Nat) : List Event :=
  w.log.filterMap fun (j, event) => if j = i then some event else none

end World

/-! ### What is promised -/

def Connection.Switched (c : Connection) : Prop :=
  ∃ side exported, c.server = .accepted side ∧ side.exportedObject = .object exported

def Admitted (h : List Event) (uid : Nat) (interface : Interface) : Prop :=
  ∃ listener, .asked uid true listener ∈ h ∧ listener.interface uid = some interface

/-- Calls come to the object only from peers that were admitted, with an interface that has them,
    and after the first message. -/
def Guarded (h : List Event) (uid : Nat) : Prop :=
  ∀ selector object, .called selector object ∈ h →
    (∃ interface, Admitted h uid interface ∧ selector ∈ interface) ∧ .connected (some object) ∈ h

def isConnectedEvent : Event → Bool
  | .connected _ => true
  | _ => false

/-- What a client is promised: it is accepted once at most, and only after the listener. As long
    as the connection is up, the real interface is exported to a connected client, and its calls
    come to the object if there is one and its interface has them. -/
structure Served (h : List Event) (c : Connection) (client : Client) : Prop where
  once : client.acceptedHandlers ≤ 1
  after : client.acceptedHandlers ≤ h.countP isConnectedEvent
  switched : c.interrupted = false → c.invalid = false → client.isConnected → c.Switched
  dropped : c.interrupted = false → ∀ selector, .dropped selector ∈ h →
    ∃ interface exported, Admitted h c.effectiveUserIdentifier interface ∧
      .connected exported ∈ h ∧ (selector ∉ interface ∨ exported = none)

structure Safe (w : World) : Prop where
  guarded : ∀ i c, w.connections i = some c → Guarded (w.history i) c.effectiveUserIdentifier
  served : ∀ i c client, w.connections i = some c → c.peer = .client client →
    Served (w.history i) c client
  unknown : ∀ i, w.connections i = none → w.history i = []

/-! ### The listener's side -/

def Side.Fits (h : List Event) (side : Side) : Prop :=
  match side.exportedObject with
  | .connectionInterface => side.exportedInterface = validationInterface
  | .object exported => side.exportedInterface = side.interface ∧ .connected exported ∈ h

structure Sound (h : List Event) (c : Connection) : Prop where
  guarded : Guarded h c.effectiveUserIdentifier
  side : ∀ side, c.server = .accepted side →
    Admitted h c.effectiveUserIdentifier side.interface ∧ side.Fits h

theorem Admitted.append {h : List Event} {uid : Nat} {interface : Interface}
    (admitted : Admitted h uid interface) (more : List Event) :
    Admitted (h ++ more) uid interface := by
  obtain ⟨listener, asked, chosen⟩ := admitted
  exact ⟨listener, List.mem_append_left more asked, chosen⟩

theorem Side.Fits.append {h : List Event} {side : Side} (fits : side.Fits h) (more : List Event) :
    side.Fits (h ++ more) := by
  unfold Side.Fits at fits ⊢
  cases exported : side.exportedObject with
  | connectionInterface =>
    rw [exported] at fits
    exact fits
  | object object =>
    rw [exported] at fits
    exact ⟨fits.1, List.mem_append_left more fits.2⟩

theorem Guarded.append {h : List Event} {uid : Nat} (guarded : Guarded h uid) {more : List Event}
    (calls : ∀ selector object, .called selector object ∈ more →
      (∃ interface, Admitted h uid interface ∧ selector ∈ interface) ∧
        .connected (some object) ∈ h) : Guarded (h ++ more) uid := by
  intro selector object called
  have before : (∃ interface, Admitted h uid interface ∧ selector ∈ interface) ∧
      .connected (some object) ∈ h := by
    rcases List.mem_append.mp called with old | new
    · exact guarded selector object old
    · exact calls selector object new
  obtain ⟨⟨interface, admitted, has⟩, connected⟩ := before
  exact ⟨⟨interface, admitted.append more, has⟩, List.mem_append_left more connected⟩

theorem ofPeer_some {c c' : Connection} {f : Client → Option Connection} {events : List Event}
    (h : (c.ofPeer f).map (·, []) = some (c', events)) :
    events = [] ∧ ∃ client, c.peer = .client client ∧ f client = some c' := by
  obtain ⟨c'', done, same⟩ := Option.map_eq_some_iff.mp h
  cases same
  unfold Connection.ofPeer at done
  cases peer : c.peer with
  | other =>
    rw [peer] at done
    cases done
  | client client =>
    rw [peer] at done
    exact ⟨rfl, client, rfl, done⟩

theorem handle_cases (listener : Listener) (c : Connection) (side : Side) (message : Message)
    (rest : List Message) :
    (message.selector ∉ side.exportedInterface ∧ Connection.handle listener c side message rest =
      ({ c with toServer := rest }, [.dropped message.selector])) ∨
    (message.selector ∈ side.exportedInterface ∧ side.exportedObject = .object none ∧
      Connection.handle listener c side message rest =
        ({ c with toServer := rest }, [.dropped message.selector])) ∨
    (∃ object, message.selector ∈ side.exportedInterface ∧
      side.exportedObject = .object (some object) ∧
      Connection.handle listener c side message rest =
        ({ c with toServer := rest }, [.called message.selector object])) ∨
    (message.selector ∈ side.exportedInterface ∧ side.exportedObject = .connectionInterface ∧
      Connection.handle listener c side message rest =
        ({ c with
            server := .accepted
              { side with
                exportedInterface := side.interface
                exportedObject := .object listener.exportedObject }
            toServer := rest
            replies := if message = .connectWithReply then c.replies + 1 else c.replies },
          [.connected listener.exportedObject])) := by
  unfold Connection.handle
  by_cases has : message.selector ∈ side.exportedInterface
  · rw [if_pos has]
    cases exported : side.exportedObject with
    | connectionInterface => exact .inr (.inr (.inr ⟨has, rfl, rfl⟩))
    | object object =>
      cases object with
      | none => exact .inr (.inl ⟨has, rfl, rfl⟩)
      | some object => exact .inr (.inr (.inl ⟨object, has, rfl, rfl⟩))
  · exact .inl ⟨has, if_neg has⟩

theorem sound_handle {h : List Event} {listener : Listener} {c : Connection} {side : Side}
    (sound : Sound h c) (here : c.server = .accepted side) (message : Message)
    (rest : List Message) :
    Sound (h ++ (Connection.handle listener c side message rest).2)
      (Connection.handle listener c side message rest).1 := by
  obtain ⟨admitted, fits⟩ := sound.side side here
  -- A message that changes nothing on the listener's side.
  have kept : ∀ event : Event, (∀ selector object, event = .called selector object →
      (∃ interface, Admitted h c.effectiveUserIdentifier interface ∧ selector ∈ interface) ∧
        .connected (some object) ∈ h) → Sound (h ++ [event]) { c with toServer := rest } := by
    intro event calls
    refine ⟨sound.guarded.append fun selector object member =>
      calls selector object (List.mem_singleton.mp member).symm, fun other is => ?_⟩
    exact ⟨(sound.side other is).1.append _, (sound.side other is).2.append _⟩
  rcases handle_cases listener c side message rest with ⟨_, done⟩ | ⟨_, _, done⟩ |
    ⟨object, has, exported, done⟩ | ⟨_, _, done⟩
  · rw [done]
    exact kept _ fun _ _ other => by cases other
  · rw [done]
    exact kept _ fun _ _ other => by cases other
  · rw [done]
    refine kept _ fun selector object' same => ?_
    cases same
    rw [Side.Fits, exported] at fits
    rw [fits.1] at has
    exact ⟨⟨side.interface, admitted, has⟩, fits.2⟩
  · rw [done]
    refine ⟨sound.guarded.append fun selector object member => ?_, fun other is => ?_⟩
    · cases List.mem_singleton.mp member
    · cases is
      exact ⟨admitted.append _, rfl, by simp⟩

theorem sound_step {h : List Event} {listener : Listener} {c c' : Connection} {act : Act}
    {events : List Event} (sound : Sound h c) (done : c.step listener act = some (c', events)) :
    c'.effectiveUserIdentifier = c.effectiveUserIdentifier ∧ Sound (h ++ events) c' := by
  -- The client's steps do not change the listener's side.
  have ofPeer : ∀ f : Client → Option Connection, (c.ofPeer f).map (·, []) = some (c', events) →
      (∀ client c', f client = some c' →
        c'.effectiveUserIdentifier = c.effectiveUserIdentifier ∧ c'.server = c.server) →
      c'.effectiveUserIdentifier = c.effectiveUserIdentifier ∧ Sound (h ++ events) c' := by
    intro f done same
    obtain ⟨rfl, client, _, moved⟩ := ofPeer_some done
    obtain ⟨uid, server⟩ := same client c' moved
    rw [List.append_nil]
    exact ⟨uid, by rw [uid]; exact sound.guarded, by rw [uid, server]; exact sound.side⟩
  cases act with
  | shouldAcceptNewConnection matching =>
    simp only [Connection.step] at done
    split at done
    · cases done
      refine ⟨rfl, sound.guarded.append fun selector object member => ?_, fun side is => ?_⟩
      · cases List.mem_singleton.mp member
      · dsimp only at is
        unfold Connection.shouldAccept at is
        cases chosen : listener.interface c.effectiveUserIdentifier with
        | none =>
          rw [chosen] at is
          cases is
        | some interface =>
          rw [chosen] at is
          dsimp only at is
          cases matching with
          | false => cases is
          | true =>
            cases is
            exact ⟨⟨listener, by simp, chosen⟩, rfl⟩
    · cases done
  | send message =>
    simp only [Connection.step] at done
    split at done
    · cases done
      rw [List.append_nil]
      exact ⟨rfl, sound.guarded, sound.side⟩
    · cases done
  | deliver =>
    simp only [Connection.step] at done
    split at done
    · rename_i side message rest server queue
      split at done
      · have same := Option.some.inj done
        have kept := @sound_handle _ listener _ _ sound server message rest
        rw [same] at kept
        refine ⟨?_, kept⟩
        have first : (Connection.handle listener c side message rest).1 = c' := by rw [same]
        rw [← first]
        rcases handle_cases listener c side message rest with ⟨_, done⟩ | ⟨_, _, done⟩ |
          ⟨object, _, _, done⟩ | ⟨_, _, done⟩
        all_goals rw [done]
      · cases done
    · cases done
  | reply =>
    refine ofPeer _ done fun client c' moved => ?_
    split at moved
    · cases moved
      exact ⟨rfl, rfl⟩
    · cases moved
  | remoteObjectProxy =>
    refine ofPeer _ done fun client c' moved => ?_
    cases moved
    exact ⟨rfl, rfl⟩
  | call selector =>
    refine ofPeer _ done fun client c' moved => ?_
    split at moved
    · cases moved
      exact ⟨rfl, rfl⟩
    · cases moved
  | wake =>
    refine ofPeer _ done fun client c' moved => ?_
    split at moved
    · cases moved
      exact ⟨rfl, rfl⟩
    · cases moved
  | timeOut =>
    refine ofPeer _ done fun client c' moved => ?_
    split at moved
    · cases moved
      exact ⟨rfl, rfl⟩
    · cases moved
  | invalidate =>
    simp only [Connection.step] at done
    split at done
    · cases done
      rw [List.append_nil]
      exact ⟨rfl, sound.guarded, fun side is => (by cases is)⟩
    · cases done
  | interrupt =>
    simp only [Connection.step] at done
    split at done
    · cases done
      rw [List.append_nil]
      exact ⟨rfl, sound.guarded, fun side is => (by cases is)⟩
    · cases done
  | invalidationHandler =>
    refine ofPeer _ done fun client c' moved => ?_
    split at moved
    · cases moved
      exact ⟨rfl, rfl⟩
    · cases moved

/-! ### The client's side -/

/-- The one first message of the client is on its way, answered by a reply on its way, or
    answered; and the listener has switched in between. -/
structure Bound (h : List Event) (c : Connection) (client : Client) : Prop where
  few : client.acceptedHandlers + c.replies + c.toServer.count .connectWithReply ≤ 1
  after : client.acceptedHandlers + c.replies ≤ h.countP isConnectedEvent
  quiet : client.acceptedHandlers = 0 →
    client.remoteObjectInterface ≠ .remote ∧ client.proxy = false
  first : client.acceptedHandlers = 0 → ∀ message ∈ c.toServer, message = .connectWithReply
  switched : c.interrupted = false → c.invalid = false →
    (c.Switched ↔ 0 < client.acceptedHandlers + c.replies)
  dropped : c.interrupted = false → ∀ selector, .dropped selector ∈ h →
    ∃ interface exported, Admitted h c.effectiveUserIdentifier interface ∧
      .connected exported ∈ h ∧ (selector ∉ interface ∨ exported = none)

theorem Bound.append {h more : List Event} {c c' : Connection} {client client' : Client}
    (bound : Bound h c client)
    (uid : c'.effectiveUserIdentifier = c.effectiveUserIdentifier)
    (up : c'.interrupted = false → c.interrupted = false)
    (drops : c'.interrupted = false → ∀ selector, .dropped selector ∈ more →
      ∃ interface exported, Admitted h c.effectiveUserIdentifier interface ∧
        .connected exported ∈ h ∧ (selector ∉ interface ∨ exported = none))
    (few : client'.acceptedHandlers + c'.replies + c'.toServer.count .connectWithReply ≤ 1)
    (after : client'.acceptedHandlers + c'.replies ≤ (h ++ more).countP isConnectedEvent)
    (quiet : client'.acceptedHandlers = 0 →
      client'.remoteObjectInterface ≠ .remote ∧ client'.proxy = false)
    (first : client'.acceptedHandlers = 0 → ∀ message ∈ c'.toServer, message = .connectWithReply)
    (switched : c'.interrupted = false → c'.invalid = false →
      (c'.Switched ↔ 0 < client'.acceptedHandlers + c'.replies)) :
    Bound (h ++ more) c' client' := by
  refine ⟨few, after, quiet, first, switched, fun still selector member => ?_⟩
  have before : ∃ interface exported, Admitted h c.effectiveUserIdentifier interface ∧
      .connected exported ∈ h ∧ (selector ∉ interface ∨ exported = none) := by
    rcases List.mem_append.mp member with old | new
    · exact bound.dropped (up still) selector old
    · exact drops still selector new
  obtain ⟨interface, exported, admitted, connected, why⟩ := before
  rw [uid]
  exact ⟨interface, exported, admitted.append more, List.mem_append_left more connected, why⟩

theorem Bound.peer {h : List Event} {c : Connection} {client client' : Client}
    (bound : Bound h c client) (same : client'.acceptedHandlers = client.acceptedHandlers)
    (quiet : client.acceptedHandlers = 0 →
      client'.remoteObjectInterface ≠ .remote ∧ client'.proxy = false) :
    Bound (h ++ []) { c with peer := .client client' } client' := by
  refine bound.append rfl id (fun _ _ none => (by cases none)) ?_ ?_ ?_ ?_ ?_
  · rw [same]
    exact bound.few
  · rw [same, List.append_nil]
    exact bound.after
  · rw [same]
    exact quiet
  · rw [same]
    exact bound.first
  · rw [same]
    exact bound.switched

theorem bound_handle {h : List Event} {listener : Listener} {c : Connection} {client : Client}
    {side : Side} {message : Message} {rest : List Message} (sound : Sound h c)
    (bound : Bound h c client) (server : c.server = .accepted side)
    (queue : c.toServer = message :: rest) (valid : c.invalid = false) :
    Bound (h ++ (Connection.handle listener c side message rest).2)
      (Connection.handle listener c side message rest).1 client := by
  obtain ⟨admitted, fits⟩ := sound.side side server
  have few := bound.few
  have after := bound.after
  have first := bound.first
  rw [queue] at few first
  rw [List.count_cons] at few
  have fewer : client.acceptedHandlers + c.replies + rest.count .connectWithReply ≤ 1 := by omega
  -- A message that only leaves the queue.
  have popped : ∀ event : Event, (c.interrupted = false → ∀ selector, .dropped selector = event →
      ∃ interface exported, Admitted h c.effectiveUserIdentifier interface ∧
        .connected exported ∈ h ∧ (selector ∉ interface ∨ exported = none)) →
      Bound (h ++ [event]) { c with toServer := rest } client := by
    intro event drops
    refine bound.append rfl id
      (fun still selector member => drops still selector (List.mem_singleton.mp member)) fewer ?_
      bound.quiet (fun none m member => first none m (List.mem_cons_of_mem message member))
      bound.switched
    rw [List.countP_append]
    exact Nat.le_trans after (Nat.le_add_right _ _)
  rcases handle_cases listener c side message rest with ⟨lacks, done⟩ | ⟨_, exported, done⟩ |
    ⟨object, _, _, done⟩ | ⟨_, exported, done⟩
  · rw [done]
    refine popped _ fun still selector same => ?_
    cases same
    rw [Side.Fits] at fits
    cases exported : side.exportedObject with
    | connectionInterface =>
      -- Before the switch only the first message is on its way, and it is in the interface.
      rw [exported] at fits
      have early : client.acceptedHandlers = 0 := by
        by_contra some
        obtain ⟨other, object, is, real⟩ :=
          (bound.switched still valid).mpr (Nat.lt_of_lt_of_le (Nat.pos_of_ne_zero some)
            (Nat.le_add_right _ _))
        cases server.symm.trans is
        rw [exported] at real
        cases real
      rw [first early message List.mem_cons_self, fits] at lacks
      exact absurd (List.mem_singleton.mpr rfl) lacks
    | object object =>
      rw [exported] at fits
      rw [fits.1] at lacks
      exact ⟨side.interface, object, admitted, fits.2, .inl lacks⟩
  · rw [done]
    refine popped _ fun still selector same => ?_
    cases same
    rw [Side.Fits, exported] at fits
    exact ⟨side.interface, none, admitted, fits.2, .inr rfl⟩
  · rw [done]
    exact popped _ fun _ _ other => (by cases other)
  · rw [done]
    have one : (if message = .connectWithReply then c.replies + 1 else c.replies) =
        c.replies + if message = .connectWithReply then 1 else 0 := by
      split
      · rfl
      · rfl
    have counted : client.acceptedHandlers + (c.replies + if message = .connectWithReply then 1
        else 0) + rest.count .connectWithReply ≤ 1 := by
      have same : (if message == .connectWithReply then 1 else 0) =
          if message = .connectWithReply then 1 else 0 := by simp
      rw [same] at few
      omega
    refine bound.append rfl id (fun _ _ other => (by cases List.mem_singleton.mp other)) ?_ ?_
      bound.quiet (fun none m member => first none m (List.mem_cons_of_mem message member)) ?_
    · dsimp only
      rw [one]
      exact counted
    · dsimp only
      rw [one, List.countP_append, List.countP_singleton]
      simp only [isConnectedEvent, if_true]
      split
      · omega
      · omega
    · intro still _
      have early : client.acceptedHandlers = 0 := by
        by_contra some
        obtain ⟨other, object, is, real⟩ :=
          (bound.switched still valid).mpr (Nat.lt_of_lt_of_le (Nat.pos_of_ne_zero some)
            (Nat.le_add_right _ _))
        cases server.symm.trans is
        rw [exported] at real
        cases real
      have greeting := first early message List.mem_cons_self
      dsimp only
      rw [if_pos greeting]
      exact ⟨fun _ => by omega, fun _ => ⟨_, _, rfl, rfl⟩⟩

theorem not_switched_accept (listener : Listener) (matching : Bool) (c : Connection) :
    ¬ Connection.Switched { c with server := c.shouldAccept listener matching } := by
  rintro ⟨side, object, is, real⟩
  dsimp only [Connection.shouldAccept] at is
  split at is
  · cases is
  · split at is
    · cases is
      cases real
    · cases is

theorem handle_peer (listener : Listener) (c : Connection) (side : Side) (message : Message)
    (rest : List Message) :
    (Connection.handle listener c side message rest).1.peer = c.peer := by
  rcases handle_cases listener c side message rest with ⟨_, done⟩ | ⟨_, _, done⟩ |
    ⟨object, _, _, done⟩ | ⟨_, _, done⟩
  all_goals rw [done]

theorem Bound.lost {h : List Event} {c c' : Connection} {client : Client}
    (bound : Bound h c client) (uid : c'.effectiveUserIdentifier = c.effectiveUserIdentifier)
    (up : c'.interrupted = false → c.interrupted = false) (down : c'.interrupted = false →
      c'.invalid = true) (queue : c'.toServer = []) (replies : c'.replies = 0) :
    Bound (h ++ []) c' client := by
  refine bound.append uid up (fun _ _ none => (by cases none)) ?_ ?_ bound.quiet ?_ ?_
  · have few := bound.few
    rw [queue, replies, List.count_nil]
    omega
  · rw [replies, List.append_nil]
    exact Nat.le_trans (Nat.le_add_right _ c.replies) bound.after
  · rw [queue]
    exact fun _ _ none => absurd none List.not_mem_nil
  · intro still valid
    rw [down still] at valid
    cases valid

theorem bound_step {h : List Event} {listener : Listener} {c c' : Connection} {act : Act}
    {events : List Event} (sound : Sound h c)
    (bound : ∀ client, c.peer = .client client → Bound h c client)
    (done : c.step listener act = some (c', events)) (client' : Client)
    (peer : c'.peer = .client client') : Bound (h ++ events) c' client' := by
  cases act with
  | shouldAcceptNewConnection matching =>
    simp only [Connection.step] at done
    split at done
    · rename_i unasked
      cases done
      have bound := bound client' peer
      have untouched : ¬ c.Switched := by
        rintro ⟨side, object, is, _⟩
        cases unasked.1.symm.trans is
      refine bound.append rfl id (fun _ _ other => (by cases List.mem_singleton.mp other))
        bound.few ?_ bound.quiet bound.first fun still valid => ?_
      · rw [List.countP_append]
        exact Nat.le_trans bound.after (Nat.le_add_right _ _)
      · exact (iff_of_false (not_switched_accept listener matching c)
          fun some => untouched ((bound.switched still valid).mpr some))
    · cases done
  | send message =>
    simp only [Connection.step] at done
    split at done
    · rename_i other
      cases done
      cases other.1.symm.trans peer
    · cases done
  | deliver =>
    simp only [Connection.step] at done
    split at done
    · rename_i side message rest server queue
      split at done
      · rename_i valid
        have same := Option.some.inj done
        have first : (Connection.handle listener c side message rest).1 = c' := by rw [same]
        have second : (Connection.handle listener c side message rest).2 = events := by rw [same]
        have before : c.peer = .client client' := by
          rw [← first, handle_peer] at peer
          exact peer
        rw [← first, ← second]
        exact bound_handle sound (bound client' before) server queue valid
      · cases done
    · cases done
  | reply =>
    obtain ⟨rfl, client, before, moved⟩ := ofPeer_some done
    split at moved
    · rename_i waiting
      cases moved
      cases peer
      have bound := bound client before
      have few := bound.few
      have after := bound.after
      have sum : client.acceptedHandlers + 1 + (c.replies - 1) =
          client.acceptedHandlers + c.replies := by omega
      refine bound.append rfl id (fun _ _ none => (by cases none)) ?_ ?_
        (fun none => absurd none (Nat.succ_ne_zero _))
        (fun none => absurd none (Nat.succ_ne_zero _)) fun still valid => ?_
      · simpa only [Connection.accept, sum] using few
      · simpa only [Connection.accept, sum, List.append_nil] using after
      · have switched := bound.switched still valid
        rw [← sum] at switched
        exact switched
    · cases moved
  | remoteObjectProxy =>
    obtain ⟨rfl, client, before, moved⟩ := ofPeer_some done
    cases moved
    cases peer
    refine (bound client before).peer rfl fun none => ?_
    obtain ⟨remote, proxy⟩ := (bound client before).quiet none
    exact ⟨remote, by simp [Client.isConnected, remote, proxy]⟩
  | call selector =>
    obtain ⟨rfl, client, before, moved⟩ := ofPeer_some done
    split at moved
    · rename_i allowed
      cases moved
      cases before.symm.trans peer
      have bound := bound client' before
      refine bound.append rfl id (fun _ _ none => (by cases none)) ?_ ?_ bound.quiet
        (fun none => ?_) bound.switched
      · simpa [List.count_append] using bound.few
      · rw [List.append_nil]
        exact bound.after
      · have proxy := (bound.quiet none).2
        rw [allowed.1] at proxy
        cases proxy
    · cases moved
  | wake =>
    obtain ⟨rfl, client, before, moved⟩ := ofPeer_some done
    split at moved
    · cases moved
      cases peer
      exact (bound client before).peer rfl fun none => (bound client before).quiet none
    · cases moved
  | timeOut =>
    obtain ⟨rfl, client, before, moved⟩ := ofPeer_some done
    split at moved
    · cases moved
      cases peer
      exact (bound client before).peer rfl fun none =>
        ⟨RemoteObjectInterface.noConfusion, ((bound client before).quiet none).2⟩
    · cases moved
  | invalidate =>
    simp only [Connection.step] at done
    split at done
    · cases done
      exact (bound client' peer).lost rfl id (fun _ => rfl) rfl rfl
    · cases done
  | interrupt =>
    simp only [Connection.step] at done
    split at done
    · cases done
      exact (bound client' peer).lost rfl (fun up => (by cases up)) (fun up => (by cases up)) rfl
        rfl
    · cases done
  | invalidationHandler =>
    obtain ⟨rfl, client, before, moved⟩ := ofPeer_some done
    split at moved
    · cases moved
      cases peer
      have same : (Connection.handleInvalidation client).acceptedHandlers =
          client.acceptedHandlers := by
        unfold Connection.handleInvalidation
        split
        · rfl
        · rfl
      refine (bound client before).peer same fun none => ?_
      obtain ⟨remote, proxy⟩ := (bound client before).quiet none
      unfold Connection.handleInvalidation
      split
      · exact ⟨RemoteObjectInterface.noConfusion, proxy⟩
      · exact ⟨remote, proxy⟩
    · cases moved

/-! ### Every run -/

structure Inv (w : World) : Prop where
  sound : ∀ i c, w.connections i = some c → Sound (w.history i) c
  bound : ∀ i c client, w.connections i = some c → c.peer = .client client →
    Bound (w.history i) c client
  unknown : ∀ i, w.connections i = none → w.history i = []

theorem history_append (w : World) (connections : Nat → Option Connection) (i j : Nat)
    (events : List Event) :
    World.history { w with connections := connections, log := w.log ++ events.map (i, ·) } j =
      w.history j ++ if i = j then events else [] := by
  unfold World.history
  rw [List.filterMap_append, List.filterMap_map]
  congr 1
  by_cases same : i = j
  · have each : ((fun (k, event) => if k = j then some event else none) ∘ (i, ·)) =
        (some : Event → Option Event) := funext fun event => if_pos same
    rw [if_pos same, each, List.filterMap_some]
  · rw [if_neg same]
    exact List.filterMap_eq_nil_iff.mpr fun event _ => if_neg same

theorem sound_new {c : Connection} (server : c.server = .unasked) : Sound [] c :=
  ⟨fun _ _ none => absurd none List.not_mem_nil, fun side is => by cases server.symm.trans is⟩

theorem bound_new (uid : Nat) (remoteInterface : Option Interface) (client : Client)
    (peer : (Connection.ofClient uid remoteInterface).peer = .client client) :
    Bound [] (.ofClient uid remoteInterface) client := by
  cases peer
  refine ⟨Nat.le_refl 1, Nat.le_refl 0, fun _ => ⟨RemoteObjectInterface.noConfusion, rfl⟩,
    fun _ message member => List.mem_singleton.mp member, fun _ _ => ?_,
    fun _ _ none => absurd none List.not_mem_nil⟩
  refine iff_of_false ?_ (Nat.lt_irrefl 0)
  rintro ⟨side, object, is, _⟩
  cases is

theorem inv_connect {w w' : World} {i : Nat} {c : Connection} (inv : Inv w)
    (server : c.server = .unasked) (bound : ∀ client, c.peer = .client client → Bound [] c client)
    (done : w.connect i c = some w') : Inv w' := by
  unfold World.connect at done
  split at done
  · rename_i free
    cases done
    have nothing := inv.unknown i free
    refine ⟨fun j c' here => ?_, fun j c' client here peer => ?_, fun j here => ?_⟩
    all_goals
      dsimp only [World.update] at here
      split at here
    · rename_i same
      cases here
      rw [same]
      exact nothing.symm ▸ sound_new server
    · exact inv.sound j c' here
    · rename_i same
      cases here
      rw [same]
      exact nothing.symm ▸ bound client peer
    · exact inv.bound j c' client here peer
    · cases here
    · exact inv.unknown j here
  · cases done

theorem inv_step (w : World) (l : Label) (w' : World) (inv : Inv w) (done : w.step l = some w') :
    Inv w' := by
  cases l with
  | configure listener =>
    cases done
    exact ⟨inv.sound, inv.bound, inv.unknown⟩
  | connectOther i uid => exact inv_connect inv rfl (fun client peer => (by cases peer)) done
  | connectClient i uid remoteInterface =>
    exact inv_connect inv rfl (bound_new uid remoteInterface) done
  | act i act =>
    obtain ⟨c, before, stepped⟩ := Option.bind_eq_some_iff.mp done
    obtain ⟨⟨c', events⟩, moved, rfl⟩ := Option.map_eq_some_iff.mp stepped
    have sound := inv.sound i c before
    refine ⟨fun j c'' here => ?_, fun j c'' client here peer => ?_, fun j here => ?_⟩
    all_goals
      rw [history_append]
      dsimp only [World.update] at here
      split at here
    · rename_i same
      cases here
      rw [same, if_pos rfl]
      exact (sound_step sound moved).2
    · rename_i other
      rw [if_neg (Ne.symm other), List.append_nil]
      exact inv.sound j c'' here
    · rename_i same
      cases here
      rw [same, if_pos rfl]
      exact bound_step sound (fun client => inv.bound i c client before) moved client peer
    · rename_i other
      rw [if_neg (Ne.symm other), List.append_nil]
      exact inv.bound j c'' client here peer
    · cases here
    · rename_i other
      rw [if_neg (Ne.symm other), List.append_nil]
      exact inv.unknown j here

theorem Inv.safe {w : World} (inv : Inv w) : Safe w := by
  refine ⟨fun i c here => (inv.sound i c here).guarded, fun i c client here peer => ?_, inv.unknown⟩
  have bound := inv.bound i c client here peer
  refine ⟨?_, Nat.le_trans (Nat.le_add_right _ _) bound.after, fun still valid connected => ?_,
    bound.dropped⟩
  · have few := bound.few
    omega
  · refine (bound.switched still valid).mpr (Nat.lt_of_lt_of_le (Nat.pos_of_ne_zero fun none => ?_)
      (Nat.le_add_right _ _))
    exact (bound.quiet none).1 (of_decide_eq_true connected)

/-- Whatever processes connect and send, and in whatever order messages, replies, timeouts and
    interruptions come: calls come to the exported object only from peers that passed the check,
    over the interface for their user, and clients are connected only to what they asked for. -/
theorem connections_safe (listener : Listener) (ls : List Label) :
    Runs.Always World.step Safe (.start listener) ls :=
  Runs.always_mono (fun _ inv => inv.safe) <|
    Runs.always_of_keep Inv inv_step
      ⟨fun _ _ none => (by cases none), fun _ _ _ none => (by cases none), fun _ _ => rfl⟩ ls

end SantaXPCConnection
