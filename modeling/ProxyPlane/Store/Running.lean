import ProxyPlane.Store.Row
import ProxyPlane.Text.Blank
import ProxyPlane.Text.Decimal

/-!
# What is recorded as running

The store remembers whether the proxy runs and the versions of everything it was started from: a
stamp for each section, and the groups by identifier with their versions beside them.  Identifiers
and versions are kept as text with commas, the identifiers read leniently and the versions strictly.

## Main definitions

* `Stamp`, `RunningState` — the record.
* `joinNumbers` — numbers as text.
* `readIds` — the numbers in a text, whatever else is in it.
* `RunningState.frozenVersions?` — the versions, if all of them can be read.
* `RunningRow` — the record as it is kept, with `RunningState.row` and `RunningRow.state` between them.
-/

set_option autoImplicit false
namespace ProxyPlane

/-- A section at a version. -/
structure Stamp where
  id : Id
  version : Version
  deriving DecidableEq, Repr

/-- What the store remembers of the last start. -/
structure RunningState where
  running : Bool
  config : Option Stamp
  dns : Option Stamp
  routing : Option Stamp
  /-- The versions of the groups, in their order. -/
  groupVersions : String
  groups : List Id
  deriving DecidableEq, Repr

/-- Numbers with commas between them. -/
def joinNumbers (numbers : List Int) : String := String.intercalate "," (numbers.map toString)

/-- The parts of a text with commas, each read as a number if it is one. -/
def readNumbers (text : String) : List (Option Int) :=
  (Text.splitOn (· == ',') text.toList).map fun part => Text.readInt? (Text.trim part)

/-- The numbers in a text with commas; parts that are none are passed over. -/
def readIds (text : String) : List Id := (readNumbers text).filterMap id

namespace RunningState

/-- Nothing has ever been started. -/
def never : RunningState := ⟨false, none, none, none, "", []⟩

/-- The stamp of a kind of section. -/
def stamp (s : RunningState) : SectionKind → Option Stamp
  | .config => s.config
  | .dns => s.dns
  | .routing => s.routing

/-- The versions of the groups; `none` if one cannot be read. -/
def frozenVersions? (s : RunningState) : Option (List Version) :=
  if s.groupVersions.isEmpty then some [] else (readNumbers s.groupVersions).mapM id

end RunningState

/-- The record as it is kept: every column may be empty by itself, and the groups are text. -/
structure RunningRow where
  running : Bool
  configId : Option Id
  configVersion : Option Version
  dnsId : Option Id
  dnsVersion : Option Version
  routingId : Option Id
  routingVersion : Option Version
  groupIds : String
  groupVersions : String
  deriving DecidableEq, Repr

/-- The record before anything was started. -/
def RunningRow.initial : RunningRow := ⟨false, none, none, none, none, none, none, "", ""⟩

/-- A stamp needs both of its columns. -/
def Stamp.ofColumns? (id : Option Id) (version : Option Version) : Option Stamp := do
  some ⟨← id, ← version⟩

/-- The record that is kept. -/
def RunningRow.state (r : RunningRow) : RunningState where
  running := r.running
  config := Stamp.ofColumns? r.configId r.configVersion
  dns := Stamp.ofColumns? r.dnsId r.dnsVersion
  routing := Stamp.ofColumns? r.routingId r.routingVersion
  groupVersions := r.groupVersions
  groups := readIds r.groupIds

/-- How a record is kept. -/
def RunningState.row (s : RunningState) : RunningRow where
  running := s.running
  configId := s.config.map (·.id)
  configVersion := s.config.map (·.version)
  dnsId := s.dns.map (·.id)
  dnsVersion := s.dns.map (·.version)
  routingId := s.routing.map (·.id)
  routingVersion := s.routing.map (·.version)
  groupIds := joinNumbers s.groups
  groupVersions := s.groupVersions

end ProxyPlane
