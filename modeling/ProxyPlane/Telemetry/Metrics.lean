import ProxyPlane.Number.Binary64
import ProxyPlane.Text.Decimal

/-!
# Metrics

What is counted and measured, and the text in which monitors read it: families by name, samples by
the values of their labels, and no family without samples.

## Main definitions

* `Tally` — counters by the values of their labels.
* `Metrics` — all counters and gauges.
* `Metrics.render` — the text for monitors.
-/

set_option autoImplicit false
namespace ProxyPlane

/-- Counters by the values of their labels. -/
abbrev Tally := List (List String × Nat)

namespace Tally

/-- Counts once more. -/
def add (labels : List String) : Tally → Tally
  | [] => [(labels, 1)]
  | (l, n) :: rest => if l = labels then (l, n + 1) :: rest else (l, n) :: add labels rest

/-- How often something was counted. -/
def count (t : Tally) (labels : List String) : Nat := (t.lookup labels).getD 0

end Tally

/-- All counters and gauges. -/
structure Metrics where
  /-- By status and route. -/
  requests : Tally
  /-- By kind. -/
  events : Tally
  /-- By outcome. -/
  reloads : Tally
  /-- By outcome. -/
  runs : Tally
  busyRuns : Nat
  engineState : Int
  /-- In milliseconds. -/
  reloadLatency : Int
  resolvedNodes : Int
  deriving DecidableEq, Repr

namespace Metrics

/-- Nothing was counted. -/
def initial : Metrics := ⟨[], [], [], [], 0, 0, 0, 0⟩

/-- A request was answered. -/
def countRequest (m : Metrics) (route : String) (status : Nat) : Metrics :=
  { m with requests := m.requests.add [toString status, route] }

/-- An event was published. -/
def countEvent (m : Metrics) (kind : String) : Metrics := { m with events := m.events.add [kind] }

/-- A reload came to an end. -/
def countReload (m : Metrics) (outcome : String) : Metrics :=
  { m with reloads := m.reloads.add [outcome] }

/-- A run was asked for and came to an end. -/
def countRun (m : Metrics) (outcome : String) : Metrics := { m with runs := m.runs.add [outcome] }

/-- A run was refused because of another one. -/
def countBusyRun (m : Metrics) : Metrics := { m with busyRuns := m.busyRuns + 1 }

/-- A number as far as a signed word of 64 bits holds it. -/
def saturate (n : Nat) : Int := min n Text.maxInt64

/-- How long the last reload took. -/
def observeLatency (m : Metrics) (seconds nanoseconds : Nat) : Metrics :=
  { m with reloadLatency := saturate (seconds * 1000 + nanoseconds / 1000000) }

/-- How many nodes were compiled last. -/
def setNodes (m : Metrics) (count : Nat) : Metrics := { m with resolvedNodes := saturate count }

/-! ## The text for monitors -/

/-- A family of samples: its name, what it is, its kind, the names of its labels, its samples. -/
structure Family where
  name : String
  help : String
  kind : String
  labels : List String
  samples : List (List String × Int)

/-- A label's value in quotes. -/
def quoteLabel (s : String) : String :=
  "\"" ++ String.ofList (s.toList.flatMap fun c =>
    if c = '\\' then ['\\', '\\'] else if c = '\n' then ['\\', 'n'] else if c = '"' then ['\\', '"'] else [c])
    ++ "\""

/-- Whether labels come before others, the first difference deciding. -/
def precedes : List String → List String → Bool
  | a :: as, b :: bs => if a = b then precedes as bs else decide (a < b)
  | _, _ => true

namespace Family

/-- A counter for each value of its labels. -/
def ofTally (name help : String) (labels : List String) (t : Tally) : Family :=
  ⟨name, help, "counter", labels, t.map fun (l, n) => (l, (n : Int))⟩

/-- A gauge. -/
def gauge (name help : String) (value : Int) : Family := ⟨name, help, "gauge", [], [([], value)]⟩

/-- The labels of a sample in braces. -/
def renderLabels (names values : List String) : String :=
  if names.isEmpty then ""
  else
    "\x7b" ++ String.intercalate "," ((names.zip values).map fun (n, v) => n ++ "=" ++ quoteLabel v)
      ++ "\x7d"

/-- The text of a family; nothing if it has no samples. -/
def render (f : Family) : String :=
  if f.samples.isEmpty then ""
  else
    let lines := (f.samples.mergeSort fun a b => precedes a.1 b.1).map fun (labels, value) =>
      f.name ++ renderLabels f.labels labels ++ " " ++ Binary64.wholeText value ++ "\n"
    "# HELP " ++ f.name ++ " " ++ f.help ++ "\n# TYPE " ++ f.name ++ " " ++ f.kind ++ "\n"
      ++ String.join lines

end Family

/-- The families by name. -/
def families (m : Metrics) : List Family :=
  [.gauge "engine_state" "Current reload worker state" m.engineState,
    .ofTally "events_emitted_total" "Status events emitted by type" ["type"] m.events,
    .ofTally "http_requests_total" "Total HTTP requests received" ["code", "route"] m.requests,
    .gauge "reload_latency_ms" "Time taken by the most recent reload (ms)" m.reloadLatency,
    .ofTally "reloads_total" "Engine reload requests by outcome" ["outcome"] m.reloads,
    .gauge "resolved_nodes" "Nodes emitted into the most recently compiled configuration" m.resolvedNodes,
    .ofTally "run_busy_total" "Run requests rejected while another run was in flight" [] [([], m.busyRuns)],
    .ofTally "runs_total" "Run requests by outcome" ["outcome"] m.runs]

/-- The text for monitors. -/
def render (m : Metrics) : String := String.join (m.families.map Family.render)

end Metrics
end ProxyPlane
