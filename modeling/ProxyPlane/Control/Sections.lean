import ProxyPlane.Control.Run

/-!
# Operations on sections

A body has to parse as what its kind says.  While the proxy runs, another section is selected only
if the engine takes it, and a selected section is removed only after the engine has stopped.
-/

set_option autoImplicit false
namespace ProxyPlane

open Config in
/-- A body has to be a section of its kind. -/
def checkBody (kind : SectionKind) (body : String) : Except ControlError Unit :=
  match kind with
  | .config => ((GlobalOptions.parse body).map fun _ => ()).mapError .ofGrammar
  | .dns => ((DnsOptions.parse body).map fun _ => ()).mapError .ofGrammar
  | .routing => ((RoutingOptions.parse body).map fun _ => ()).mapError .ofGrammar

namespace Operation

/-- All sections of a kind. -/
def sections (kind : SectionKind) : Operation (List Section) := look (·.sectionsOf kind)

/-- One section. -/
def loadSection (kind : SectionKind) (id : Id) : Operation Section := read (.loadSection kind id)

/-- A new section, which is not selected. -/
def createSection (kind : SectionKind) (name body : String) : Operation Section := do
  check ((checkRemarks .name name).mapError .ofStore)
  check (checkBody kind body)
  change (.createSection kind name body)

/-- Replaces the body of a section. -/
def updateSection (kind : SectionKind) (id : Id) (body : String) : Operation Section := do
  check (checkBody kind body)
  change (.updateSection kind id body)

/-- Renames a section. -/
def renameSection (kind : SectionKind) (id : Id) (name : String) : Operation Section := do
  check ((checkRemarks .name name).mapError .ofStore)
  change (.renameSection kind id name)

/-- Selects a section.  If that replaces another one while the proxy runs, the engine is reloaded
first, and keeps what it has if that fails; what runs then is given.  Behind the gate. -/
def choosing (kind : SectionKind) (id : Id) : Operation (Option Prepared) := do
  let candidate ← transact do
    let row ← Transaction.loadSection kind id
    let s ← get
    if s.running.running && (s.selected? kind).any (·.id != id) then return (some row, .rollback)
    let _ ← Transaction.selectSection kind id
    return (none, .commit none)
  match candidate with
  | none => return none
  | some row =>
    modify (·.note .info "selection changed while running; reloading"
      [("kind", .text kind.label), ("id", .number id)])
    return some (← reselect row)

/-- Selects a section, with a reload if that is needed, and gives what runs then if there was one. -/
def choose (kind : SectionKind) (id : Id) : Operation (Option Prepared) := gated (choosing kind id)

/-- Selects a section, with a reload if that is needed. -/
def selectSection (kind : SectionKind) (id : Id) : Operation Unit := do
  let _ ← choose kind id

/-- Removes a section, if it is there, and tells how many that were.  If it is the selected one and
the proxy runs, the engine is stopped first.  Behind the gate. -/
def removing (kind : SectionKind) (id : Id) : Operation Nat := do
  let removed ← transact do
    let s ← get
    match (s.sections.get kind).find? id with
    | none => return (some 0, .rollback)
    | some row =>
      if row.selected && s.running.running then return (none, .rollback)
      let _ ← Transaction.removeSection kind id
      return (some 1, .commit none)
  match removed with
  | some count => return count
  | none =>
    modify (·.note .info "selected row removed while running; stopping"
      [("kind", .text kind.label), ("id", .number id)])
    halt
    mark false do
      Transaction.setRunning false
      let _ ← Transaction.removeSection kind id
      return 1

/-- Removes a section, if it is there, and tells how many that were. -/
def removeSection (kind : SectionKind) (id : Id) : Operation Nat := gated (removing kind id)

end Operation
end ProxyPlane
