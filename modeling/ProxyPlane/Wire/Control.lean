import ProxyPlane.Control.Run
import ProxyPlane.Control.Subscriptions
import ProxyPlane.Wire.Row

/-!
# Answers of the control plane on the wire
-/

set_option autoImplicit false
namespace ProxyPlane

/-- What runs, on the wire.  The drift is told in words, and left out if there is none. -/
def Status.wire (s : Status) : Json :=
  let drift := match s.drift with
    | some drift => [("drift", Json.string drift.message)]
    | none => []
  .object ([("running", .bool s.running), ("modified", .bool s.modified),
    ("engine_state", .string s.engine.label)] ++ drift)

/-- An import on the wire. -/
def Report.wire (r : Report) : Json := .object
  [("subscription", r.subscription.wire), ("results", .list Imported.wire r.results)]

end ProxyPlane
