import ProxyPlane.Calendar.Cron
import ProxyPlane.Control.Drift
import ProxyPlane.Control.Error
import ProxyPlane.Control.Routine
import ProxyPlane.Store.Group
import ProxyPlane.Store.Section

/-!
# The control plane

Everything there is: the store, the worker with what observers see, the gate that lets one
operation on the engine through at a time, and the schedules of subscriptions.  An operation is a
routine on it.  Its steps are transactions of the store and requests to the worker.

A transaction that is committed tells what it has caused: that the record of what runs has changed,
and that the store has drifted from it, the latter once until it is in step again.

## Main definitions

* `Job`, `Plane` — the state.
* `Store.liveStamps`, `Store.drift` — the stamps in a store and how they differ from the record.
* `Plane.commit` — what a committed transaction causes.
* `Operation` — routines that may fail; `Operation.transact`, `read`, `change`, `reload`, `gated`.
-/

set_option autoImplicit false
namespace ProxyPlane

/-- The refreshes of a subscription. -/
structure Job where
  subscription : Id
  schedule : Cron
  /-- The seconds until the next refresh; `none` if there will be none. -/
  sleep : Option Nat

/-- The control plane. -/
structure Plane where
  /-- The store, as long as it is open. -/
  store : Option Store
  worker : Worker
  /-- Whether an operation on the engine is under way. -/
  gate : Bool
  /-- Whether the last transaction left the store adrift. -/
  drifted : Bool
  /-- The schedules of subscriptions, by identifier. -/
  jobs : List Job
  /-- What the network answers. -/
  remote : Remote
  /-- The time of the day and the date. -/
  now : Instant

/-- The stamps in the store of what the record of what runs is about. -/
def Store.liveStamps (s : Store) : LiveStamps :=
  let stamp := fun kind => (s.selected? kind).map fun row => Stamp.mk row.id row.version
  { config := stamp .config
    dns := stamp .dns
    routing := stamp .routing
    groups := s.running.state.groups.filterMap fun id => (s.groups.find? id).map fun g => (id, g.version) }

/-- How the store differs from the record of what runs. -/
def Store.drift (s : Store) : Option Drift := Drift.detect s.running.state s.liveStamps

namespace Plane

/-- A control plane on a store and a worker. -/
def ofParts (store : Store) (worker : Worker) (remote : Remote) (now : Instant) : Plane :=
  ⟨some store, worker, false, false, [], remote, now⟩

/-- Changes what observers see. -/
def tell (p : Plane) (f : Feed → Feed) : Plane :=
  { p with worker := { p.worker with feed := f p.worker.feed } }

/-- Tells an event. -/
def emit (p : Plane) (event : Event) : Plane := p.tell (·.emit event)

/-- Writes a record into the log. -/
def note (p : Plane) (level : LogLevel) (message : String) (fields : List (String × LogValue)) : Plane :=
  p.tell (·.note level "vane_control" message fields)

/-- Takes over a store and tells what that causes.  `marked` is the record of whether something runs,
if the transaction was about that. -/
def commit (p : Plane) (store : Store) (marked : Option Bool) : Plane :=
  let p := { p with store := some store }
  let p := match marked with
    | some running => p.emit (.runningChanged running)
    | none => p
  match store.drift.filter (· ≠ .notRunning) with
  | none => { p with drifted := false }
  | some drift =>
    let p := if p.drifted then p
      else (p.note .info "running configuration is out of date" [("reason", .text drift.message)]).emit
        .driftDetected
    { p with drifted := true }

end Plane

/-- What becomes of the changes of a transaction. -/
inductive Closing
  | rollback
  /-- They are kept; the record of whether something runs was set to `marked`, if it was set. -/
  | commit (marked : Option Bool)
  deriving DecidableEq, Repr

/-- A routine on the control plane that may fail. -/
abbrev Operation := ExceptT ControlError (Routine Plane)

namespace Operation
variable {α : Type}

/-- An operation of one step. -/
def atomic (f : Plane → Except ControlError α × Plane) : Operation α := ExceptT.mk (Routine.atomic f)

/-- Changes the control plane in one step. -/
def modify (f : Plane → Plane) : Operation Unit := atomic fun p => (.ok (), f p)

/-- Fails where a check fails. -/
def check : Except ControlError α → Operation α
  | .ok a => pure a
  | .error e => throw e

/-- One transaction, which tells itself how it ends; one that fails changes nothing. -/
def transact (t : Transaction (α × Closing)) : Operation α :=
  atomic fun p =>
    match p.store with
    | none => (.error (.store (.database "store.begin")), p)
    | some store =>
      match t.on store with
      | (.error e, _) => (.error (.ofStore e), p)
      | (.ok (a, .rollback), _) => (.ok a, p)
      | (.ok (a, .commit marked), after) => (.ok a, p.commit after marked)

/-- A transaction that only reads. -/
def read (t : Transaction α) : Operation α := transact ((·, .rollback) <$> t)

/-- Looks at the store. -/
def look (f : Store → α) : Operation α := read (f <$> get)

/-- A transaction that is committed. -/
def change (t : Transaction α) : Operation α := transact ((·, .commit none) <$> t)

/-- A transaction that sets whether something runs, and is committed. -/
def mark (running : Bool) (t : Transaction α) : Operation α := transact ((·, .commit (some running)) <$> t)

/-- A request to the worker, as far as the building of an engine and then to its end. -/
def reload (snapshot : Snapshot) : Routine Plane (Except ReloadError ReloadOutcome) := do
  let begun ← Routine.atomic fun (p : Plane) =>
    let (answer, worker) := p.worker.request snapshot
    (answer, { p with worker })
  match begun with
  | some answer => return answer
  | none => Routine.atomic fun (p : Plane) =>
    let (answer, worker) := p.worker.complete
    (answer, { p with worker })

/-- An operation on the engine.  There is one at a time; others are refused while it is under way. -/
def gated (op : Operation α) : Operation α := do
  atomic fun p =>
    if p.gate then (.error .busy, p.tell (·.measure (·.countBusyRun))) else (.ok (), { p with gate := true })
  ExceptT.mk do
    let result ← op.run
    (modify fun p => { p with gate := false }).run >>= fun _ => return result

end Operation

/-- Whether a routine has to wait, because an engine is being built in a workshop that holds builds
back. -/
def Plane.building (p : Plane) : Bool := p.worker.rebuild.isSome && p.worker.shop.held

end ProxyPlane
