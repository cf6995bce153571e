import Santa.Library.Runs
import Santa.FileAccess.WatchItems

/-!
The target paths that the data file access client has muted, against the paths of
the installed rules. A reload queues its change of the paths; the client is told
later, with the number of paths at that time. The mute and unmute calls succeed;
what the subscription calls return is part of a delivery.
-/
namespace SantaMuting
open Deltas SantaWatchItems

/-! ### The client -/

structure Client where
  isSubscribed : Bool
  muted : Finset PairPathAndType

structure Returns where
  subscribe : Bool
  unsubscribeAll : Bool

def Client.muteTargetPaths (c : Client) (paths : Finset PairPathAndType) : Client :=
  { c with muted := c.muted ∪ paths }

def Client.unmuteTargetPaths (c : Client) (paths : Finset PairPathAndType) : Client :=
  { c with muted := c.muted \ paths }

def Client.unmuteAllTargetPaths (c : Client) : Client := { c with muted := ∅ }

def Client.enable (es : Returns) (c : Client) : Client :=
  if !c.isSubscribed && es.subscribe then { c with isSubscribed := true } else c

def Client.disable (es : Returns) (c : Client) : Client :=
  if c.isSubscribed then
    { c with isSubscribed := !es.unsubscribeAll }.unmuteAllTargetPaths
  else c

def Client.watchItemsCount (es : Returns) (count : Nat)
    (newPaths removedPaths : Finset PairPathAndType) (c : Client) : Client :=
  if count = 0 then c.disable es
  else ((c.unmuteTargetPaths removedPaths).muteTargetPaths newPaths).enable es

theorem disable_quiet {es : Returns} {c : Client} (succeeds : es.unsubscribeAll = true)
    (quiet : c.isSubscribed = false → c.muted = ∅) : c.disable es = ⟨false, ∅⟩ := by
  obtain ⟨isSubscribed, muted⟩ := c
  cases isSubscribed with
  | false =>
    obtain rfl : muted = ∅ := quiet rfl
    rfl
  | true => simp [Client.disable, Client.unmuteAllTargetPaths, succeeds]

theorem enable_subscribed {es : Returns} (succeeds : es.subscribe = true) (c : Client) :
    c.enable es = { c with isSubscribed := true } := by
  obtain ⟨isSubscribed, muted⟩ := c
  cases isSubscribed with
  | false => simp [Client.enable, succeeds]
  | true => rfl

/-! ### The deltas still to come -/

variable {Config Base : Type}

structure System (Config Base : Type) where
  items : WatchItems Config Base
  client : Client

def System.start : System Config Base := ⟨.new, ⟨false, ∅⟩⟩

/-- The deltas still to come lead from a base to the installed paths, and the client catches up
    with it. -/
structure Follows (s : System Config Base) : Prop where
  base : ∃ base, replay s.items.queue base = s.items.dataWatchItems.paths ∧
    CatchesUp s.client.muted base s.items.queue
  quiet : s.client.isSubscribed = false → s.client.muted = ∅
  subscribed : s.items.queue = [] →
    (s.client.isSubscribed = true ↔ s.items.dataWatchItems.paths ≠ ∅)

theorem follows_start : Follows (.start : System Config Base) where
  base := ⟨∅, rfl, catchesUp_self ∅ []⟩
  quiet _ := rfl
  subscribed _ := by simp [System.start, WatchItems.new, DataWatchItems.empty]

theorem Follows.settled {s : System Config Base} (follows : Follows s)
    (drained : s.items.queue = []) : s.client.muted = s.items.dataWatchItems.paths := by
  obtain ⟨base, leads, behind⟩ := follows.base
  rw [drained] at leads behind
  rw [behind.done]
  exact leads

theorem follows_deliver {s : System Config Base} (follows : Follows s) {es : Returns}
    {d : Delta PairPathAndType} {queue : List (Delta PairPathAndType)}
    (head : s.items.queue = d :: queue) (subscribes : es.subscribe = true)
    (unsubscribes : es.unsubscribeAll = true) :
    Follows (⟨{ s.items with queue := queue },
      s.client.watchItemsCount es s.items.dataWatchItems.count d.added d.removed⟩ :
        System Config Base) := by
  obtain ⟨base, leads, behind⟩ := follows.base
  rw [head] at leads behind
  by_cases none : s.items.dataWatchItems.count = 0
  · have empty : s.items.dataWatchItems.paths = ∅ := Finset.card_eq_zero.mp none
    rw [Client.watchItemsCount, if_pos none, disable_quiet unsubscribes follows.quiet]
    refine ⟨⟨d.apply base, leads, ?_⟩, fun _ => rfl, fun _ => ?_⟩
    · exact catchesUp_empty (leads.trans empty)
    · simp [empty]
  · rw [Client.watchItemsCount, if_neg none, enable_subscribed subscribes]
    refine ⟨⟨d.apply base, leads, behind.apply⟩, fun off => ?_, fun _ => ?_⟩
    · simp at off
    · simpa [DataWatchItems.count] using none

/-! ### Every step -/

variable [DecidableEq Config]

inductive Event (Config : Type) where
  | reload (findMatches : FindMatches) (newConfig : Option Config)
  | deliver (es : Returns)

/-- The count that a delivery reads is that of the items installed by then. -/
def step (parseConfig : Config → Option (ParsedConfig Base)) :
    System Config Base → Event Config → Option (System Config Base)
  | s, .reload findMatches newConfig =>
      some { s with items := reloadConfig parseConfig findMatches s.items newConfig }
  | s, .deliver es =>
      match s.items.queue with
      | [] => none
      | d :: queue => some ⟨{ s.items with queue := queue },
          s.client.watchItemsCount es s.items.dataWatchItems.count d.added d.removed⟩

def CallsSucceed : System Config Base → Event Config → Prop
  | _, .reload _ _ => True
  | _, .deliver es => es.subscribe = true ∧ es.unsubscribeAll = true

/-- Once every delta has run, the client has muted the paths of the installed configuration. -/
def Muted (parseConfig : Config → Option (ParsedConfig Base)) (s : System Config Base) : Prop :=
  (∃ findMatches, BuiltWith parseConfig findMatches s.items) ∧
    (s.items.queue = [] → s.client.muted = s.items.dataWatchItems.paths ∧
      (s.client.isSubscribed = true ↔ s.items.dataWatchItems.paths ≠ ∅))

theorem follows_reload {parseConfig : Config → Option (ParsedConfig Base)}
    {s : System Config Base} (follows : Follows s) (findMatches : FindMatches)
    (newConfig : Option Config) :
    Follows { s with items := reloadConfig parseConfig findMatches s.items newConfig } := by
  rcases reloadConfig_cases parseConfig findMatches s.items newConfig with same | ⟨-, -, queued⟩
  · rw [same]
    exact follows
  · obtain ⟨base, leads, behind⟩ := follows.base
    refine ⟨⟨base, ?_, ?_⟩, follows.quiet, ?_⟩
    · simp only [queued, replay_concat, leads, apply_between]
    · simp only [queued]
      exact behind.concat _
    · intro drained
      simp [queued] at drained

theorem follows_step {parseConfig : Config → Option (ParsedConfig Base)}
    {s t : System Config Base} {e : Event Config}
    (inv : Follows s ∧ ∃ findMatches, BuiltWith parseConfig findMatches s.items)
    (succeed : CallsSucceed s e) (accepted : step parseConfig s e = some t) :
    Follows t ∧ ∃ findMatches, BuiltWith parseConfig findMatches t.items := by
  obtain ⟨follows, built⟩ := inv
  cases e with
  | reload findMatches newConfig =>
    simp only [step, Option.some.injEq] at accepted
    subst t
    exact ⟨follows_reload follows findMatches newConfig,
      reloadConfig_built built findMatches newConfig⟩
  | deliver es =>
    simp only [step] at accepted
    split at accepted
    · exact absurd accepted (by simp)
    · rename_i d queue head
      simp only [Option.some.injEq] at accepted
      subst t
      exact ⟨follows_deliver follows head succeed.1 succeed.2, built⟩

/-- In every order of reloads and deliveries. -/
theorem muted_of_callsSucceed (parseConfig : Config → Option (ParsedConfig Base))
    (events : List (Event Config))
    (succeed : Runs.Meets (step parseConfig) CallsSucceed .start events) :
    Runs.Always (step parseConfig) (Muted parseConfig) .start events :=
  Runs.always_mono (fun _ inv => ⟨inv.2, fun drained =>
      ⟨inv.1.settled drained, inv.1.subscribed drained⟩⟩)
    (Runs.always_of_meets (fun _ _ _ inv succeed accepted => follows_step inv succeed accepted)
      ⟨follows_start, fun _ => [], new_built parseConfig _⟩ succeed)

def listed (paths : List String) : Option (ParsedConfig Unit) :=
  some ⟨paths.map fun path => ⟨(), path, .kPrefix⟩, [], paths.length⟩

def switchedOff : List (Event (List String)) :=
  [.reload (fun path => [path]) (some ["/a", "/b"]), .reload (fun _ => []) none,
    .deliver ⟨true, true⟩, .reload (fun path => [path]) (some ["/b"]), .deliver ⟨true, true⟩,
    .deliver ⟨true, true⟩]

/-- Here the paths are gone, and partly back, before the client is told of the first ones. -/
theorem switched_off_followed :
    (Runs.run (step listed) .start switchedOff).map (fun s => (s.items.queue.length,
        s.client.isSubscribed, s.client.muted)) = some (0, true, {("/b", .kPrefix)}) ∧
      Runs.Always (step listed) (Muted listed) .start switchedOff :=
  ⟨by decide +kernel, muted_of_callsSucceed listed switchedOff fun _ _ => ⟨trivial, fun _ _ =>
    ⟨trivial, fun _ _ => ⟨⟨rfl, rfl⟩, fun _ _ => ⟨trivial, fun _ _ => ⟨⟨rfl, rfl⟩, fun _ _ =>
      ⟨⟨rfl, rfl⟩, trivial⟩⟩⟩⟩⟩⟩⟩

end SantaMuting
