import ProxyPlane.Control.Plane
import ProxyPlane.Snapshot.Compile

/-!
# Running and stopping

To run is to compile the selected sections, to hand the snapshot to the worker, and to record the
stamps of what was compiled.  The three are steps of their own, so the store can be used while an
engine is being built; the stamps are those of the rows that were compiled, not of the rows that
are there in the end.

## Main definitions

* `Prepared`, `Store.prepare` — a compiled snapshot and the rows that it was compiled from.
* `Operation.start`, `Operation.halt`, `Operation.reselect` — changes of what runs, which give what
  was compiled; `Operation.starting` is `start` behind the gate, and `Operation.run` is `start` for
  those who do not ask.
* `Operation.resume` — runs again what ran when the store was closed; `Operation.restore` likewise.
* `Status`, `Operation.status` — what runs.
-/

set_option autoImplicit false
namespace ProxyPlane

/-- A compiled snapshot and the sections that it was compiled from. -/
structure Prepared where
  compiled : Compiled
  config : Section
  dns : Section
  routing : Section
  deriving DecidableEq

/-- The record of what runs once a snapshot serves. -/
def Prepared.record (p : Prepared) : RunningState where
  running := true
  config := some ⟨p.config.id, p.config.version⟩
  dns := some ⟨p.dns.id, p.dns.version⟩
  routing := some ⟨p.routing.id, p.routing.version⟩
  groupVersions := joinNumbers (p.compiled.groups.map (·.version))
  groups := p.compiled.groups.map (·.id)

namespace Store

/-- The section of a kind to compile: the candidate if it is of that kind, or the selected one. -/
def chosen (s : Store) (candidate : Option Section) (kind : SectionKind) : Except ControlError Section :=
  match candidate.filter fun row => row.kind = kind with
  | some row => .ok row
  | none =>
    match s.selected? kind with
    | some row => .ok row
    | none => .error (.notSelected kind)

/-- Compiles the selected sections, with a candidate in the place of the selected one of its kind. -/
def prepare (s : Store) (candidate : Option Section) : Except ControlError Prepared := do
  let config ← s.chosen candidate .config
  let dns ← s.chosen candidate .dns
  let routing ← s.chosen candidate .routing
  let sections ← (Config.Sections.parse config.body dns.body routing.body).mapError .ofGrammar
  let members := s.membersOf sections.routing.outbounds
  let compiled ← (compile sections routing.name members).mapError .compile
  return ⟨compiled, config, dns, routing⟩

end Store

namespace Operation

/-- Counts what comes of an operation on the engine. -/
def counted {α : Type} (outcome : String) (dry : Bool) (op : Operation α) : Operation α := ExceptT.mk do
  let result ← op.run
  let _ ← (modify fun p =>
    match result with
    | .ok _ => p.tell (·.measure (·.countRun outcome))
    | .error e => (p.tell (·.measure (·.countRun "failed"))).note .warn "run failed"
        [("error", .text e.message), ("dry", .flag dry)]).run
  return result

/-- Hands a snapshot to the worker. -/
def submit (snapshot : Snapshot) : Operation ReloadOutcome :=
  ExceptT.mk do return (← reload snapshot).mapError .ofReload

/-- Lets the engine serve nothing.  The caller records it. -/
def halt : Operation Unit := do
  let _ ← counted "stopped" true (submit .empty)
  modify (·.note .info "engine stopped" [])

/-- Compiles and hands over, and gives what was compiled.  The caller records it. -/
def launch (candidate : Option Section) : Operation Prepared :=
  counted "started" false do
    let prepared ← atomic fun p =>
      match p.store with
      | none => (.error (.store (.database "store.begin")), p)
      | some store => (store.prepare candidate, p)
    modify (·.tell (·.note .debug "vane_compiler" "compiled snapshot"
      [("groups", .number prepared.compiled.snapshot.groups.length),
        ("nodes", .number prepared.compiled.snapshot.nodes.length)]))
    let _ ← submit prepared.compiled.snapshot
    return prepared

/-- Runs the selected sections and gives what runs then, or stops if `dry` is set; behind the gate. -/
def starting (dry : Bool) : Operation (Option Prepared) := do
  if dry then
    halt
    mark false (.setRunning false)
    return none
  else
    let prepared ← launch none
    mark true (.saveRunning prepared.record)
    return some prepared

/-- Runs the selected sections and gives what runs then, or stops if `dry` is set. -/
def start (dry : Bool) : Operation (Option Prepared) := gated (starting dry)

/-- Runs the selected sections, or stops if `dry` is set. -/
def run (dry : Bool) : Operation Unit := do
  let _ ← start dry

/-- Runs with a candidate in the place of the selected section of its kind, selects it, and gives
what runs then. -/
def reselect (candidate : Section) : Operation Prepared := do
  let prepared ← launch (some candidate)
  mark true do
    let _ ← Transaction.selectSection candidate.kind candidate.id
    Transaction.saveRunning prepared.record
  return prepared

/-- Records that nothing runs. -/
def markStopped : Operation Unit := mark false (.setRunning false)

/-- Runs again what the store says was running, and gives what runs then.  If that fails, nothing is
recorded to run, so that the next start does not try again. -/
def resume : Operation (Option Prepared) := do
  let (running, configured) ← look fun s => (s.running.running, (s.selected? .config).isSome)
  if running then
    if configured then
      modify (·.note .info "restoring running state" [])
      tryCatch (start false) fun e => do
        markStopped
        throw e
    else
      modify (·.note .warn "data inconsistency: no selected config but last state is running" [])
      markStopped
      return none
  else return none

/-- Runs again what the store says was running. -/
def restore : Operation Unit := do
  let _ ← resume

/-- How the store differs from what runs. -/
def drift : Operation (Option Drift) := look Store.drift

/-- Whether the store differs from what runs; it always does while nothing runs. -/
def modified : Operation Bool := return (← drift).isSome

end Operation

/-- What runs. -/
structure Status where
  running : Bool
  modified : Bool
  engine : EngineState
  /-- How the store differs from what runs, if anything runs. -/
  drift : Option Drift
  deriving DecidableEq, Repr

/-- The record, the drift and the state of the engine in one step. -/
def Operation.status : Operation Status :=
  atomic fun p =>
    match p.store with
    | none => (.error (.store (.database "store.begin")), p)
    | some s => (.ok ⟨s.running.running, s.drift.isSome, p.worker.state, s.drift.filter (· ≠ .notRunning)⟩, p)

end ProxyPlane
