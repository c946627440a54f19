import ProxyPlane.Control.Run
import ProxyPlane.Control.Subscriptions

/-!
# Services

What is done once there are a store and a worker: what ran before runs again, and subscriptions are
refreshed on schedule.  Neither has to succeed for the services to be there.
-/

set_option autoImplicit false
namespace ProxyPlane

/-- Writes a record of the program itself into the log. -/
def Plane.noteApp (p : Plane) (level : LogLevel) (message : String)
    (fields : List (String × LogValue)) : Plane :=
  p.tell (·.note level "vane_app" message fields)

namespace Operation

/-- Does what can be done of an operation; what it fails with is noted. -/
def attempt {α : Type} (op : Operation α) (failed : String) : Routine Plane Unit := do
  match ← ExceptT.run op with
  | .ok _ => return ()
  | .error e => Routine.atomic fun p => ((), p.noteApp .warn failed [("error", .text e.message)])

/-- Brings the services up. -/
def bringUp : Routine Plane Unit := do
  attempt restore "failed to restore the running state; engine left stopped"
  attempt startScheduler "failed to start the subscription scheduler"

end Operation

namespace Plane

/-- The services on a store.  They are there once the worker is, even if nothing could be restored. -/
def start (dry : Bool) (store : Store) (remote : Remote) (now : Instant) (feed : Feed) :
    Except ReloadError Unit × Plane :=
  let (booted, worker) := (Worker.idle dry (.fresh .none none) feed).boot
  let p := ofParts store worker remote now
  match booted with
  | .ok () => (.ok (), (Operation.bringUp.run p).2)
  | .error e => (.error e, p)

/-- The end of the services: nothing is scheduled any more and the worker shuts down. -/
def stop (p : Plane) : Plane :=
  let p := p.stopScheduler
  match p.worker.shutdown with
  | (.ok (), worker) => { p with worker }
  | (.error e, worker) =>
    { p with worker }.noteApp .warn "reload worker already closed" [("error", .text e.message)]

end Plane
end ProxyPlane
