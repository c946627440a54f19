import ProxyPlane.Event.Basic

/-!
# Streams of events

An event on a stream is a block of lines, each with a name and a value, and an empty line after
them.
-/

set_option autoImplicit false
namespace ProxyPlane

/-- A line of a stream. -/
inductive StreamLine
  | field (name value : String)
  /-- The event itself. -/
  | data (value : Json)
  | blank

/-- An event as a block of lines. -/
def Envelope.lines (e : Envelope) : List StreamLine :=
  [.field "id" (toString e.id), .field "event" e.event.kind, .data e.wire, .blank]

end ProxyPlane
