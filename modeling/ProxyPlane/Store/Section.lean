import ProxyPlane.Store.Basic

/-!
# Sections in the store

A section is created unselected at version 1.  Its body moves the version, its name does not, since
only the body is compiled.  Selecting a section unselects the others of its kind.
-/

set_option autoImplicit false
namespace ProxyPlane

/-- All sections of a kind, by identifier. -/
def Store.sectionsOf (s : Store) (kind : SectionKind) : List Section := (s.sections.get kind).rows

/-- The section of a kind that is selected; the last one if there were several. -/
def Store.selected? (s : Store) (kind : SectionKind) : Option Section :=
  ((s.sectionsOf kind).filter (·.selected)).getLast?

namespace Transaction

/-- Replaces the table of a kind. -/
def putSections (kind : SectionKind) (t : Table Section) : Transaction Unit :=
  modify fun s => { s with sections := s.sections.set kind t }

/-- The section with an identifier. -/
def loadSection (kind : SectionKind) (id : Id) : Transaction Section := do
  require (.sectionOf kind) id (((← get).sections.get kind).find? id)

/-- A new section, unselected, at version 1. -/
def createSection (kind : SectionKind) (name body : String) : Transaction Section := do
  let table := (← get).sections.get kind
  putSections kind (table.push fun id => ⟨id, kind, name, body, false, 1⟩)
  loadSection kind (table.issued + 1)

/-- Changes a section. -/
def editSection (kind : SectionKind) (id : Id) (f : Section → Section) : Transaction Section := do
  putSections kind (((← get).sections.get kind).modify id f)
  loadSection kind id

/-- Replaces the body of a section, which moves its version. -/
def updateSection (kind : SectionKind) (id : Id) (body : String) : Transaction Section :=
  editSection kind id fun row => { row with body := body, version := row.version + 1 }

/-- Renames a section; the version stays, since names are not compiled. -/
def renameSection (kind : SectionKind) (id : Id) (name : String) : Transaction Section :=
  editSection kind id fun row => { row with name := name }

/-- Selects a section instead of the others of its kind.  Gives the one that was selected before,
if it was another. -/
def selectSection (kind : SectionKind) (id : Id) : Transaction (Option Id) := do
  let _ ← loadSection kind id
  let s ← get
  putSections kind ((s.sections.get kind).map fun row => { row with selected := row.id == id })
  return ((s.selected? kind).map (·.id)).filter (· != id)

/-- Removes a section and gives it. -/
def removeSection (kind : SectionKind) (id : Id) : Transaction Section := do
  let row ← loadSection kind id
  putSections kind (((← get).sections.get kind).retain fun row => row.id != id)
  return row

end Transaction
end ProxyPlane
