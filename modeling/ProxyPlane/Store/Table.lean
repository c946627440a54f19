import ProxyPlane.Store.Row

/-!
# Tables

Rows in the order of their identifiers, and the last identifier that was issued.  An identifier is
never issued twice, whatever is removed in between.

## Main definitions

* `Row` — what has an identifier.
* `Table` — rows and the last identifier issued, with `find?`, `push`, `modify` and `retain`.
* `PerKind` — one thing for each kind of section.
-/

set_option autoImplicit false
namespace ProxyPlane

/-- What has an identifier. -/
class Row (α : Type) where
  id : α → Id

instance : Row Section := ⟨Section.id⟩
instance : Row Node := ⟨Node.id⟩
instance : Row Subscription := ⟨Subscription.id⟩
instance : Row Group := ⟨Group.id⟩

/-- Rows by identifier, and the last identifier issued. -/
structure Table (α : Type) where
  rows : List α
  issued : Id
  deriving DecidableEq, Repr

namespace Table
variable {α : Type} [Row α]

/-- A table that never held a row. -/
def empty : Table α := ⟨[], 0⟩

/-- The row with an identifier. -/
def find? (t : Table α) (id : Id) : Option α := t.rows.find? fun row => Row.id row == id

/-- A new row at the end, made from the next identifier. -/
def push (t : Table α) (make : Id → α) : Table α := ⟨t.rows ++ [make (t.issued + 1)], t.issued + 1⟩

/-- Changes every row in the same way. -/
def map (t : Table α) (f : α → α) : Table α := ⟨t.rows.map f, t.issued⟩

/-- Changes the row with an identifier. -/
def modify (t : Table α) (id : Id) (f : α → α) : Table α :=
  t.map fun row => if Row.id row == id then f row else row

/-- Keeps the rows that pass a test; identifiers that are gone are not issued again. -/
def retain (t : Table α) (keep : α → Bool) : Table α := ⟨t.rows.filter keep, t.issued⟩

end Table

/-- One thing for each kind of section. -/
structure PerKind (α : Type) where
  config : α
  dns : α
  routing : α
  deriving DecidableEq, Repr

namespace PerKind
variable {α : Type}

/-- The thing for a kind. -/
def get (p : PerKind α) : SectionKind → α
  | .config => p.config
  | .dns => p.dns
  | .routing => p.routing

/-- Replaces the thing for a kind. -/
def set (p : PerKind α) (kind : SectionKind) (a : α) : PerKind α :=
  match kind with
  | .config => { p with config := a }
  | .dns => { p with dns := a }
  | .routing => { p with routing := a }

end PerKind
end ProxyPlane
