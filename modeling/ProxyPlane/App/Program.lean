import ProxyPlane.App.Services
import ProxyPlane.App.Settings
import ProxyPlane.Http.Service
import ProxyPlane.Store.Directory
import ProxyPlane.Store.Session
import ProxyPlane.Telemetry.LogFilter
import ProxyPlane.Telemetry.LogLine

/-!
# The program

From the command line to the end: the settings are checked, the log is set up, the services are
brought up, the program listens until it is told to stop, and the engine is closed.  What the program
meets on its way — the directory, the network, the clock — is given.

What runs when the program stops stays recorded as running, so that the next start restores it.

## Main definitions

* `Surroundings` — what the program meets.
* `Journal` — the log as it is written.
* `Program` — the program while it listens; `begin`, `Program.handle`, `Program.finish`.
* `Outcome`, `run` — the whole.
-/

set_option autoImplicit false
namespace ProxyPlane
namespace App

/-- What the program meets. -/
structure Surroundings where
  env : Environment
  /-- The directory with a name. -/
  directory : String → Directory
  /-- Whether a log was set up before. -/
  logging : Bool
  /-- The text of the address that one listens on, if one can. -/
  bind : SocketAddress → Option String
  remote : Remote
  now : Instant

/-- The log as it is written. -/
structure Journal where
  filter : LogFilter
  span : LogSpan
  lines : List LogLine

namespace Journal

/-- The log of a program that begins. -/
def fresh (filter : LogFilter) : Journal := ⟨filter, ⟨["bootstrap"], "dev"⟩, []⟩

/-- Writes a record, if it is logged. -/
def write (j : Journal) (span : Option LogSpan) (r : LogRecord) : Journal :=
  if j.filter.admits r.level r.source then { j with lines := j.lines ++ [⟨r, span⟩] } else j

/-- The span, if it is logged. -/
def span? (j : Journal) : Option LogSpan :=
  if j.filter.admits .info "vane_telemetry" then some j.span else none

/-- Writes records inside the span. -/
def inside (j : Journal) (records : List LogRecord) : Journal :=
  records.foldl (fun k r => k.write j.span? r) j

/-- Writes a record outside the span. -/
def outside (j : Journal) (r : LogRecord) : Journal := j.write none r

/-- Sets the mode of the program again. -/
def mode (j : Journal) (mode : String) : Journal :=
  { j with span := { j.span with modes := j.span.modes ++ [mode] } }

end Journal

/-- The program while it listens. -/
structure Program where
  settings : Settings
  journal : Journal
  plane : Plane

/-- How the program ends. -/
structure Outcome where
  code : Nat
  /-- Whether lines begin with the time. -/
  timestamps : Bool
  format : LogFormat
  lines : List LogLine
  failure : Option Failure
  /-- The store, if the program got as far as changing it. -/
  store : Option Store

/-- A program that ends early. -/
def Outcome.failed (failure : Failure) : Outcome := ⟨1, true, .json, [], some failure, none⟩

/-- The end of a program with these settings. -/
def Settings.outcome (s : Settings) (journal : Journal) (failure : Option Failure) (store : Option Store) :
    Outcome :=
  ⟨if failure.isSome then 1 else 0, s.timestamps, s.logFormat, journal.lines, failure, store⟩

/-- The name of a file in a directory. -/
def fileIn (directory name : String) : String := directory ++ "/" ++ name

/-- Opens the store and brings the services up. -/
def openServices (s : Settings) (w : Surroundings) : Except Failure Unit × List LogRecord × Option Plane :=
  match (w.directory s.configDir).store with
  | .error e => (.error (.store "store.open" e), [], none)
  | .ok store =>
    let path := fileIn s.configDir Store.fileName
    let feed := (Feed.ofBus .standard).note .debug "vane_store" "store opened" [("path", .text path)]
    match Plane.start s.apiOnly store w.remote w.now feed with
    | (.error e, p) => (.error (.engine "reload_worker.start" e), p.worker.feed.log, none)
    | (.ok (), p) => (.ok (), p.worker.feed.log, some p)

/-- The program up to the moment when it listens. -/
def begin (a : Arguments) (w : Surroundings) : Except Outcome Program :=
  match Settings.check a (w.directory a.configDir).usable with
  | .error failure => .error (.failed failure)
  | .ok s =>
    if w.logging then .error (.failed (.telemetry "telemetry.init"))
    else
      let journal := (Journal.fresh (.choose (w.env.lookup "RUST_LOG") s.logLevel)).inside
        [⟨.info, "vane_app", "Vane bootstrap starting",
          [("config_dir", .text s.configDir), ("api_only", .flag s.apiOnly)]⟩]
      let (opened, records, plane) := openServices s w
      let journal := journal.inside records
      match opened, plane with
      | .error failure, _ => .error (s.outcome journal (some failure) none)
      | .ok (), none => .error (s.outcome journal none none)
      | .ok (), some plane =>
        let journal := journal.mode (if s.apiOnly then "api_only" else "engine")
        match w.bind s.listen with
        | none => .error (s.outcome journal (some (.io "api.bind")) plane.store)
        | some address =>
          .ok ⟨s, journal.outside ⟨.info, "vane_api", "api listening", [("addr", .text address)]⟩, plane⟩

/-- Answers a request.  What is noted meanwhile is written outside the span. -/
def Program.handle (p : Program) (r : Http.Request) : Http.Response × Program :=
  let (response, plane) := (Http.respond r).run p.plane
  let records := plane.worker.feed.log.drop p.plane.worker.feed.log.length
  (response, { p with plane, journal := records.foldl Journal.outside p.journal })

/-- The end of a program that is told to stop. -/
def Program.finish (p : Program) : Outcome :=
  let journal := (p.journal.outside ⟨.info, "vane_app", "shutdown signal received", []⟩).inside
    [⟨.info, "vane_app", "api stopped; closing engine", []⟩]
  let stopped := p.plane.stop
  let journal := journal.inside (stopped.worker.feed.log.drop p.plane.worker.feed.log.length)
  let failure := if stopped.worker.ended = some .fatal then some Failure.engineFatal else none
  p.settings.outcome journal failure stopped.store

/-- The whole program, which is told to stop as soon as it listens. -/
def run (a : Arguments) (w : Surroundings) : Outcome :=
  match begin a w with
  | .error outcome => outcome
  | .ok program => program.finish

/-- The name of the program and its version. -/
def versionText : String := "vane 0.1.0"

end App
end ProxyPlane
