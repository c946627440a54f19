import ProxyPlane.Engine.DnsCache
import ProxyPlane.Snapshot.Basic

/-!
# The workshop

Engines are built in a workshop, each from a snapshot, from the handles that the engine before it
gave up, and from a cache of names.  What is done to an engine goes into a journal.  Any of these
acts can fail: the next so many of a kind fail when they are armed to, a level of logging that the
engine does not know fails its building, and a port that is occupied fails the listening.

## Main definitions

* `Fault`, `Fault.message` — what can go wrong.
* `Act` — an entry of the journal.
* `Engine` — an engine that was built.
* `Workshop` — faults to come, engines built, and the journal.
* `Workshop.start`, `Workshop.finish` — the two halves of building an engine.
* `Workshop.listen`, `Workshop.serve`, `Workshop.close` — what is done to it.
-/

set_option autoImplicit false
namespace ProxyPlane

/-- What can go wrong with an engine. -/
inductive Fault
  /-- An attempt at building that was armed to fail. -/
  | build (attempt : Nat)
  | logLevel (level : String)
  | listen
  /-- The address to listen on is in use. -/
  | occupied (address : String)
  | serve
  /-- The engine serves without ever being ready. -/
  | unready
  deriving DecidableEq, Repr

/-- The wording of a fault. -/
def Fault.message : Fault → String
  | .build attempt => "build " ++ toString attempt ++ ": scripted engine failure"
  | .logLevel level => "unknown log level '" ++ level ++ "'"
  | .listen => "scripted listen failure"
  | .occupied address => "failed to bind " ++ address ++ ": Address already in use (os error 98)"
  | .serve => "serve: scripted serve failure"
  | .unready => "engine dropped its ready signal"

/-- How many of the next acts of a kind fail. -/
structure Armed where
  builds : Nat
  listens : Nat
  serves : Nat
  readies : Nat
  closes : Nat
  deriving DecidableEq, Repr

/-- Nothing fails. -/
def Armed.none : Armed := ⟨0, 0, 0, 0, 0⟩

/-- What is done to an engine, by its number. -/
inductive Act
  /-- An attempt at building; the number of the handles and the size of the cache it was given. -/
  | build (attempt : Nat) (fingerprint : String) (generation : Option Nat) (cached : Option Nat)
  | listen (engine port : Nat)
  | serve (engine : Nat)
  | eject (engine : Nat)
  | inject (engine generation : Nat)
  | close (engine : Nat)
  deriving DecidableEq, Repr

/-- An engine. -/
structure Engine where
  number : Nat
  snapshot : Snapshot
  /-- The handles that it holds, by how many engines have held them before. -/
  resources : Option Nat
  cache : DnsCache
  deriving DecidableEq

/-- The name that an engine learns as soon as it is built, by its number. -/
def Engine.ownName (n : Nat) : String := "host" ++ toString n ++ ".example"

/-- The levels of logging that an engine knows. -/
def Engine.logLevels : List String := ["error", "warn", "info", "debug", "trace"]

/-- Where engines are built. -/
structure Workshop where
  armed : Armed
  /-- The address that cannot be listened on, if it is in use. -/
  occupied : Option String
  /-- Whether builds wait. -/
  held : Bool
  /-- Whether an engine learns a name of its own as soon as it is built. -/
  greets : Bool
  /-- How often building was begun. -/
  attempts : Nat
  /-- How often it got as far as the engine itself. -/
  reached : Nat
  /-- The engines that were built, by number and fingerprint, the last one at the end. -/
  built : List (Nat × String)
  journal : List Act
  deriving DecidableEq

namespace Workshop

/-- A workshop in which nothing was built. -/
def fresh (armed : Armed) (occupied : Option String) : Workshop :=
  ⟨armed, occupied, false, true, 0, 0, [], []⟩

/-- Writes into the journal. -/
def log (w : Workshop) (act : Act) : Workshop := { w with journal := w.journal ++ [act] }

/-- Begins to build an engine: it gets its number. -/
def start (w : Workshop) (resources : Option Nat) (cache : Option DnsCache) (snapshot : Snapshot) :
    Nat × Workshop :=
  let n := w.attempts + 1
  let counted : Workshop := { w with attempts := n }
  (n, counted.log (.build n snapshot.fingerprint resources (cache.map DnsCache.size)))

/-- What an engine knows that has just been built: what it was given, and perhaps its own name. -/
def known (w : Workshop) (n : Nat) (cache : Option DnsCache) : DnsCache :=
  if w.greets then (cache.getD .empty).insert (Engine.ownName n) [] else cache.getD .empty

/-- Finishes building an engine.  It starts out with handles of its own. -/
def finish (w : Workshop) (n : Nat) (cache : Option DnsCache) (snapshot : Snapshot) :
    Except Fault Engine × Workshop :=
  if 0 < w.armed.builds then
    (.error (.build n), { w with armed := { w.armed with builds := w.armed.builds - 1 } })
  else
    let w := { w with reached := w.reached + 1 }
    let level := snapshot.sections.global.logLevel
    if Engine.logLevels.contains level then
      (.ok ⟨n, snapshot, some 0, w.known n cache⟩,
        { w with built := w.built ++ [(n, snapshot.fingerprint)] })
    else (.error (.logLevel level), w)

/-- Lets an engine listen on a port. -/
def listen (w : Workshop) (e : Engine) (port : Nat) : Except Fault Unit × Workshop :=
  let w := w.log (.listen e.number port)
  if 0 < w.armed.listens then
    (.error .listen, { w with armed := { w.armed with listens := w.armed.listens - 1 } })
  else
    match w.occupied with
    | some address => (.error (.occupied address), w)
    | none => (.ok (), w)

/-- Lets an engine serve, and waits until it is ready. -/
def serve (w : Workshop) (e : Engine) : Except Fault Unit × Workshop :=
  let w := w.log (.serve e.number)
  if 0 < w.armed.serves then
    (.error .serve, { w with armed := { w.armed with serves := w.armed.serves - 1 } })
  else if 0 < w.armed.readies then
    (.error .unready, { w with armed := { w.armed with readies := w.armed.readies - 1 } })
  else (.ok (), w)

/-- Takes the handles of an engine. -/
def eject (w : Workshop) (e : Engine) : Option Nat × Workshop :=
  (e.resources, w.log (.eject e.number))

/-- Gives handles to an engine. -/
def inject (w : Workshop) (e : Engine) (generation : Nat) : Engine × Workshop :=
  ({ e with resources := some (generation + 1) }, w.log (.inject e.number generation))

/-- Closes an engine.  It is closed even where closing fails. -/
def close (w : Workshop) (e : Engine) : Workshop :=
  { w.log (.close e.number) with armed := { w.armed with closes := w.armed.closes - 1 } }

end Workshop
end ProxyPlane
