import ProxyPlane.Engine.Workshop
import ProxyPlane.Event.Feed

/-!
# The reload worker

The worker owns the engine that serves.  To apply a snapshot it builds an engine for it, hands the
handles over and closes the engine before it.  If the building fails, an engine for the snapshot
that served before is built instead, and the request is refused; if that fails too, there is no
engine any more and the worker ends.

A dry worker acknowledges every request and has no engine at all.

A reload has two halves, since building takes time: `Worker.begin` takes the serving engine down to
its handles and begins to build, `Worker.complete` does the rest.  No other request is taken in
between.

## Main definitions

* `ReloadError`, `ReloadOutcome` — what comes of a request.
* `Worker` — the engine that serves, the reload under way, and what observers see.
* `Worker.boot` — a worker that serves the empty snapshot.
* `Worker.submit` — a request; its two halves are `Worker.begin` and `Worker.complete`.
* `Worker.shutdown` — the end.
-/

set_option autoImplicit false
namespace ProxyPlane

/-- What came of a request that succeeded. -/
inductive ReloadOutcome
  /-- The snapshot with this fingerprint serves. -/
  | applied (fingerprint : String)
  /-- A dry worker took note. -/
  | acknowledged
  deriving DecidableEq, Repr

/-- Why a request fails. -/
inductive ReloadError
  /-- Another request is under way. -/
  | busy
  /-- The snapshot is refused; the one before it serves again. -/
  | rejected (fault : Fault)
  /-- Nothing serves any more. -/
  | fatal (fault : Fault)
  /-- The first engine does not start. -/
  | start (fault : Fault)
  /-- The worker has ended. -/
  | closed
  deriving DecidableEq, Repr

/-- The wording of a failure. -/
def ReloadError.message : ReloadError → String
  | .busy => "the last request hasn't completed"
  | .rejected fault =>
    "failed to apply configuration, previous configuration restored: " ++ fault.message
  | .fatal fault => "failed to restore previous configuration: " ++ fault.message
  | .start fault => "failed to start engine: " ++ fault.message
  | .closed => "reload worker is not running"

/-- How a worker ended. -/
inductive WorkerExit
  | shutdown
  | fatal
  deriving DecidableEq, Repr

/-- A reload whose engine is being built. -/
structure Rebuild where
  snapshot : Snapshot
  /-- The number of the engine that is being built. -/
  number : Nat
  /-- The engine that serves until the new one does. -/
  previous : Engine
  /-- The handles that the new engine gets. -/
  resources : Option Nat
  deriving DecidableEq

/-- The worker. -/
structure Worker where
  dry : Bool
  shop : Workshop
  feed : Feed
  state : EngineState
  /-- The engine that serves. -/
  live : Option Engine
  /-- The reload under way. -/
  rebuild : Option Rebuild
  ended : Option WorkerExit
  deriving DecidableEq

namespace Worker

/-- Tells an event. -/
def emit (w : Worker) (event : Event) : Worker := { w with feed := w.feed.emit event }

/-- Moves to a state and tells so, unless it is there already. -/
def enter (w : Worker) (state : EngineState) : Worker :=
  if w.state = state then w
  else
    { w with state := state, feed := w.feed.measure fun m => { m with engineState := state.code } }.emit
      (.engineStateChanged state)

/-- Counts the outcome of a reload. -/
def count (w : Worker) (outcome : String) : Worker :=
  { w with feed := w.feed.measure (·.countReload outcome) }

/-- A worker before it has an engine. -/
def idle (dry : Bool) (shop : Workshop) (feed : Feed) : Worker :=
  ⟨dry, shop, feed, .idle, none, none, none⟩

/-- Builds the first engine, for the empty snapshot, and lets it listen and serve.  A dry worker has
nothing to do. -/
def boot (w : Worker) : Except ReloadError Unit × Worker :=
  if w.dry then
    (.ok (), { w with feed := w.feed.note .info "vane_engine" "reload worker running in dry mode" [] })
  else
    let snapshot := Snapshot.empty
    let (n, shop) := w.shop.start none none snapshot
    match shop.finish n none snapshot with
    | (.error fault, shop) => (.error (.start fault), { w with shop })
    | (.ok engine, shop) =>
      match shop.listen engine snapshot.sections.global.port with
      | (.error fault, shop) => (.error (.start fault), { w with shop })
      | ((.ok ()), shop) =>
        match shop.serve engine with
        | (.error fault, shop) => (.error (.start fault), { w with shop })
        | (.ok (), shop) => (.ok (), { w with shop, live := some engine }.enter .listening)

/-- The cache that an engine for a snapshot gets from the engine before it: all of it or nothing,
as the kind of address that is asked for stays the same or not. -/
def inherited (previous : Engine) (snapshot : Snapshot) : Option DnsCache :=
  if previous.snapshot.sections.dns.preference = snapshot.sections.dns.preference then
    some previous.cache
  else none

/-- The first half of a reload, if an engine serves: it gives up its handles, and another one is
begun. -/
def begin (w : Worker) (snapshot : Snapshot) : Worker :=
  match w.live with
  | none => w
  | some previous =>
    let w := w.enter .reloading
    let (resources, shop) := w.shop.eject previous
    let (n, shop) := shop.start resources (inherited previous snapshot) snapshot
    { w with shop, live := none, rebuild := some ⟨snapshot, n, previous, resources⟩ }

/-- The worker ends because nothing serves any more. -/
def die (w : Worker) (fault : Fault) : Except ReloadError ReloadOutcome × Worker :=
  let w := ((w.count "fatal").emit (.reloadFatal fault.message)).enter .closed
  (.error (.fatal fault), { w with live := none, rebuild := none, ended := some .fatal })

/-- Lets a new engine take over.  `refused` is what the snapshot asked for failed with, if the engine
is a replacement for that. -/
def takeOver (w : Worker) (r : Rebuild) (engine : Engine) (refused : Option Fault) :
    Except ReloadError ReloadOutcome × Worker :=
  let (engine, shop) := match r.resources with
    | some generation => w.shop.inject engine generation
    | none => (engine, w.shop)
  match (shop.close r.previous).serve engine with
  | (.error fault, shop) => { w with shop := shop.close engine }.die fault
  | (.ok (), shop) =>
    let fingerprint := engine.snapshot.fingerprint
    let feed := w.feed.measure (·.setNodes engine.snapshot.nodes.length)
    let w := { w with shop, feed, live := some engine, rebuild := none }.enter .listening
    match refused with
    | none => (.ok (.applied fingerprint), (w.count "applied").emit (.reloadApplied fingerprint))
    | some fault =>
      (.error (.rejected fault), (w.count "rolled_back").emit (.reloadRolledBack fault.message))

/-- The second half of a reload. -/
def complete (w : Worker) : Except ReloadError ReloadOutcome × Worker :=
  match w.rebuild with
  | none => (.error .closed, w)
  | some r =>
    match w.shop.finish r.number (inherited r.previous r.snapshot) r.snapshot with
    | (.ok engine, shop) => { w with shop }.takeOver r engine none
    | (.error fault, shop) =>
      let before := r.previous.snapshot
      let (n, shop) := shop.start r.resources (some r.previous.cache) before
      match shop.finish n (some r.previous.cache) before with
      | (.ok engine, shop) => { w with shop }.takeOver r engine (some fault)
      | (.error rollback, shop) => { w with shop := shop.close r.previous }.die rollback

/-- Why a request cannot be taken, if it cannot. -/
def refusal (w : Worker) : Option ReloadError :=
  if w.rebuild.isSome then some .busy else if w.ended.isSome then some .closed else none

/-- Takes a request as far as the building of an engine, or answers it at once. -/
def request (w : Worker) (snapshot : Snapshot) : Option (Except ReloadError ReloadOutcome) × Worker :=
  match w.refusal with
  | some error => (some (.error error), w)
  | none =>
    if w.dry then (some (.ok .acknowledged), w.count "dry") else (none, w.begin snapshot)

/-- A request from its beginning to its end. -/
def submit (w : Worker) (snapshot : Snapshot) : Except ReloadError ReloadOutcome × Worker :=
  match w.request snapshot with
  | (some answer, w) => (answer, w)
  | (none, w) => w.complete

/-- Closes the engine that serves. -/
def close (w : Worker) : Worker :=
  let shop := match w.live with
    | some engine => w.shop.close engine
    | none => w.shop
  { w with shop, live := none }.enter .closed

/-- Ends the worker.  A reload under way comes first. -/
def shutdown (w : Worker) : Except ReloadError Unit × Worker :=
  let w := if w.rebuild.isSome then w.complete.2 else w
  if w.ended.isSome then (.error .closed, w) else (.ok (), { w.close with ended := some .shutdown })

end Worker
end ProxyPlane
