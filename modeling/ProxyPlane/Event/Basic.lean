import ProxyPlane.Json.Basic
import ProxyPlane.Text.Decimal

/-!
# Status events

What the control plane tells its observers.  On the wire an event is an object whose member `type`
names its kind, beside the members of that kind; an array that begins with the kind and goes on with
the values in their order is read as well.

## Main definitions

* `EngineState`, `Event`, `Envelope` — states, events, and events with their numbers.
* `Event.wire`, `Event.ofWire?` — the wire form.
-/

set_option autoImplicit false
namespace ProxyPlane

/-- How far the engine is. -/
inductive EngineState
  /-- There is no engine. -/
  | idle
  /-- An engine serves. -/
  | listening
  /-- An engine is being replaced. -/
  | reloading
  /-- There is no engine and there will be none. -/
  | closed
  deriving DecidableEq, Repr

namespace EngineState

/-- All states. -/
def all : List EngineState := [.idle, .listening, .reloading, .closed]

/-- The name of a state. -/
def label : EngineState → String
  | .idle => "idle"
  | .listening => "listening"
  | .reloading => "reloading"
  | .closed => "closed"

/-- The number of a state in the metrics. -/
def code : EngineState → Int
  | .idle => 0
  | .listening => 1
  | .reloading => 2
  | .closed => 3

/-- The state with a name. -/
def ofLabel? (s : String) : Option EngineState := all.find? fun state => state.label == s

/-- Reads a state: its name, or an object whose only member has that name and an empty value. -/
def ofWire? (isEmpty : Json → Bool) : Json → Option EngineState
  | .string s => ofLabel? s
  | .object [(name, payload)] => if isEmpty payload then ofLabel? name else none
  | _ => none

end EngineState

/-- What can happen. -/
inductive Event
  | engineStateChanged (state : EngineState)
  | reloadApplied (fingerprint : String)
  /-- A configuration was refused; the one before it is back. -/
  | reloadRolledBack (message : String)
  /-- A configuration was refused, and the one before it could not be brought back. -/
  | reloadFatal (message : String)
  /-- The record of whether the proxy runs has changed. -/
  | runningChanged (running : Bool)
  /-- The store no longer holds what runs. -/
  | driftDetected
  /-- The nodes of a subscription were replaced. -/
  | subscriptionUpdated (id nodes : Nat)
  deriving DecidableEq, Repr

namespace Event

/-- The kind of an event. -/
def kind : Event → String
  | .engineStateChanged _ => "engine_state_changed"
  | .reloadApplied _ => "reload_applied"
  | .reloadRolledBack _ => "reload_rolled_back"
  | .reloadFatal _ => "reload_fatal"
  | .runningChanged _ => "running_changed"
  | .driftDetected => "drift_detected"
  | .subscriptionUpdated _ _ => "subscription_updated"

/-- The members of an event beside its kind. -/
def members : Event → List (String × Json)
  | .engineStateChanged state => [("state", .string state.label)]
  | .reloadApplied fingerprint => [("fingerprint", .string fingerprint)]
  | .reloadRolledBack message => [("message", .string message)]
  | .reloadFatal message => [("message", .string message)]
  | .runningChanged running => [("running", .bool running)]
  | .driftDetected => []
  | .subscriptionUpdated id nodes => [("id", .nat id), ("nodes", .nat nodes)]

/-- The wire form of an event. -/
def wire (e : Event) : Json := .object (("type", .string e.kind) :: e.members)

/-- The names of the members of a kind, in their order. -/
def fields? : String → Option (List String)
  | "engine_state_changed" => some ["state"]
  | "reload_applied" => some ["fingerprint"]
  | "reload_rolled_back" => some ["message"]
  | "reload_fatal" => some ["message"]
  | "running_changed" => some ["running"]
  | "drift_detected" => some []
  | "subscription_updated" => some ["id", "nodes"]
  | _ => none

/-- Whether a value inside an event may stand for nothing. -/
def isEmptyPayload : Json → Bool
  | .null => true
  | .object [] => true
  | _ => false

/-- A number of 64 bits without a sign. -/
def unsigned? (j : Json) : Option Nat :=
  j.int?.bind fun n => if 0 ≤ n ∧ n ≤ Text.maxNat64 then some n.toNat else none

/-- The event of a kind with the values of its members. -/
def ofValues? : String → List Json → Option Event
  | "engine_state_changed", [state] => .engineStateChanged <$> EngineState.ofWire? isEmptyPayload state
  | "reload_applied", [fingerprint] => .reloadApplied <$> fingerprint.text?
  | "reload_rolled_back", [message] => .reloadRolledBack <$> message.text?
  | "reload_fatal", [message] => .reloadFatal <$> message.text?
  | "running_changed", [running] => .runningChanged <$> running.bool?
  | "drift_detected", [] => some .driftDetected
  | "subscription_updated", [id, nodes] => do some (.subscriptionUpdated (← unsigned? id) (← unsigned? nodes))
  | _, _ => none

/-- Reads an event; members that its kind does not have are passed over. -/
def ofWire? : Json → Option Event
  | .object members => do
    let kind ← (← members.lookup "type").text?
    ofValues? kind (← (← fields? kind).mapM fun name => members.lookup name)
  | .array (.string kind :: values) => ofValues? kind values
  | _ => none

end Event

/-- An event and its number. -/
structure Envelope where
  id : Nat
  event : Event
  deriving DecidableEq, Repr

/-- The wire form of a numbered event. -/
def Envelope.wire (e : Envelope) : Json := .object [("id", .nat e.id), ("event", e.event.wire)]

end ProxyPlane
