import ProxyPlane.Event.Basic

/-!
# The event bus

Events are numbered as they are published.  The last of them are kept for observers that come later
and know what they have seen.  Every observer has a queue of its own, and publishing never waits:
an observer whose queue is full, or who has gone away, is struck from the register.

## Main definitions

* `Channel` — an observer: what is replayed to it, what is queued for it, and which ends are left.
* `Bus` — the numbers issued, the ring of events kept, and the channels.
* `Bus.publish`, `Bus.subscribe`, `Bus.unsubscribe`, `Bus.leave` — changes.
* `Bus.receive` — reads the next event of a channel.
-/

set_option autoImplicit false
namespace ProxyPlane

/-- The two ends of the way to an observer. -/
structure Channel where
  id : Nat
  /-- Events from before the observer came; they take no room in the queue. -/
  backlog : List Envelope
  queue : List Envelope
  /-- Whether the bus still holds its end. -/
  registered : Bool
  /-- Whether the observer still holds its end. -/
  attended : Bool
  deriving DecidableEq, Repr

namespace Channel

/-- All that can be read now, in order. -/
def ready (c : Channel) : List Envelope := c.backlog ++ c.queue

/-- Queues an event, or strikes the observer from the register. -/
def deliver (capacity : Nat) (e : Envelope) (c : Channel) : Channel :=
  if !c.registered then c
  else if c.attended && c.queue.length < capacity then { c with queue := c.queue ++ [e] }
  else { c with registered := false }

end Channel

/-- What reading a channel gives. -/
inductive Reception
  | event (e : Envelope)
  /-- There is nothing to read, and there never will be. -/
  | ended
  /-- There is nothing to read yet. -/
  | pending
  deriving DecidableEq, Repr

/-- The bus. -/
structure Bus where
  ringCapacity : Nat
  queueCapacity : Nat
  /-- How many events were published. -/
  published : Nat
  /-- The last events. -/
  ring : List Envelope
  channels : List Channel
  /-- How many observers came. -/
  subscribed : Nat
  /-- How many observers were struck from the register. -/
  evicted : Nat
  deriving DecidableEq, Repr

namespace Bus

/-- A bus with the given capacities, which are at least one. -/
def withCapacity (ring queue : Nat) : Bus := ⟨max 1 ring, max 1 queue, 0, [], [], 0, 0⟩

/-- A bus that keeps 256 events and queues 64 for every observer. -/
def standard : Bus := withCapacity 256 64

/-- How many observers are registered. -/
def registered (b : Bus) : Nat := b.channels.countP (·.registered)

/-- The number of the last event, if there was one. -/
def lastId? (b : Bus) : Option Nat := b.ring.getLast?.map (·.id)

/-- Publishes an event and gives its number. -/
def publish (b : Bus) (event : Event) : Nat × Bus :=
  let e : Envelope := ⟨b.published + 1, event⟩
  let kept := if b.ring.length = b.ringCapacity then b.ring.drop 1 else b.ring
  let channels := b.channels.map (Channel.deliver b.queueCapacity e)
  let left := channels.countP (·.registered)
  (e.id, { b with
    published := e.id
    ring := kept ++ [e]
    channels := channels
    evicted := b.evicted + (b.registered - left) })

/-- A new observer.  One that names the last event it has seen gets the later ones replayed that
are still kept. -/
def subscribe (b : Bus) (since : Option Nat) : Nat × Bus :=
  let backlog := match since with
    | some seen => b.ring.filter fun e => decide (seen < e.id)
    | none => []
  let id := b.subscribed + 1
  (id, { b with channels := b.channels ++ [⟨id, backlog, [], true, true⟩], subscribed := id })

/-- Changes the channel of an observer. -/
def onChannel (b : Bus) (id : Nat) (f : Channel → Channel) : Bus :=
  { b with channels := b.channels.map fun c => if c.id = id then f c else c }

/-- The channel of an observer. -/
def channel? (b : Bus) (id : Nat) : Option Channel := b.channels.find? fun c => c.id = id

/-- Takes an observer off the register; what is queued for it can still be read. -/
def unsubscribe (b : Bus) (id : Nat) : Bus := b.onChannel id fun c => { c with registered := false }

/-- The observer goes away; the bus finds out when it publishes the next event. -/
def leave (b : Bus) (id : Nat) : Bus :=
  b.onChannel id fun c => { c with attended := false, backlog := [], queue := [] }

/-- The bus itself goes away. -/
def close (b : Bus) : Bus :=
  { b with channels := b.channels.map fun c => { c with registered := false } }

/-- Reads the next event of a channel: first what is replayed, then what is queued. -/
def receive (b : Bus) (id : Nat) : Reception × Bus :=
  match b.channel? id with
  | none => (.ended, b)
  | some c =>
    match c.backlog, c.queue with
    | e :: rest, _ => (.event e, b.onChannel id fun c => { c with backlog := rest })
    | [], e :: rest => (.event e, b.onChannel id fun c => { c with queue := rest })
    | [], [] => (if c.registered then .pending else .ended, b)

/-- Reads all that can be read now, and tells whether that is the end. -/
def receiveAll (b : Bus) (id : Nat) : List Envelope × Bool × Bus :=
  match b.channel? id with
  | none => ([], true, b)
  | some c => (c.ready, !c.registered, b.onChannel id fun c => { c with backlog := [], queue := [] })

end Bus
end ProxyPlane
