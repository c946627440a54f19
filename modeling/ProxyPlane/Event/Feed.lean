import ProxyPlane.Event.Bus
import ProxyPlane.Telemetry.Log
import ProxyPlane.Telemetry.Metrics

/-!
# The feed

What observers can see: the events on the bus, the metrics and the log.  Whoever tells an event
counts it.
-/

set_option autoImplicit false
namespace ProxyPlane

/-- The bus, the metrics and the log. -/
structure Feed where
  bus : Bus
  metrics : Metrics
  log : List LogRecord
  deriving DecidableEq, Repr

namespace Feed

/-- Nothing was told yet. -/
def ofBus (bus : Bus) : Feed := ⟨bus, .initial, []⟩

/-- Counts an event and publishes it. -/
def emit (f : Feed) (event : Event) : Feed :=
  { f with bus := (f.bus.publish event).2, metrics := f.metrics.countEvent event.kind }

/-- Changes the metrics. -/
def measure (f : Feed) (change : Metrics → Metrics) : Feed := { f with metrics := change f.metrics }

/-- Writes a record into the log. -/
def note (f : Feed) (level : LogLevel) (source message : String)
    (fields : List (String × LogValue)) : Feed :=
  { f with log := f.log ++ [⟨level, source, message, fields⟩] }

end Feed
end ProxyPlane
