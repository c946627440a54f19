import ProxyPlane.Store.Error
import ProxyPlane.Store.Running
import ProxyPlane.Store.Table

/-!
# The store

A store is a value: the tables and the record of what runs.  A transaction reads and changes a
store of its own; what it has changed before it fails stays changed in it, and it is up to
`Transaction.atomically` to take over the result or to leave the store as it was.

## Main definitions

* `Store`, `Store.empty` — the tables.
* `Transaction` — a step that may fail and keeps what it has done.
* `Transaction.atomically` — all of a transaction or nothing.
* `Transaction.running`, `Transaction.saveRunning`, `Transaction.setRunning` — the record of what runs.
-/

set_option autoImplicit false
namespace ProxyPlane

/-- All that is kept. -/
structure Store where
  sections : PerKind (Table Section)
  nodes : Table Node
  subscriptions : Table Subscription
  groups : Table Group
  running : RunningRow
  deriving DecidableEq, Repr

/-- A store that never held anything. -/
def Store.empty : Store :=
  ⟨⟨.empty, .empty, .empty⟩, .empty, .empty, .empty, .initial⟩

/-- A step on a store that may fail; a failure keeps the changes made before it. -/
abbrev Transaction := ExceptT StoreError (StateM Store)

namespace Transaction
variable {α : Type}

/-- Runs a transaction on a store. -/
def on (t : Transaction α) (s : Store) : Except StoreError α × Store := (ExceptT.run t).run s

/-- All of a transaction if it succeeds, or nothing. -/
def atomically (t : Transaction α) (s : Store) : Except StoreError α × Store :=
  match t.on s with
  | (.ok a, after) => (.ok a, after)
  | (.error e, _) => (.error e, s)

/-- Fails where a check fails. -/
def check (c : Except StoreError α) : Transaction α := liftExcept c
where
  /-- A check as a transaction that changes nothing. -/
  liftExcept : Except StoreError α → Transaction α
    | .ok a => pure a
    | .error e => throw e

/-- A row that has to be there. -/
def require (entity : Entity) (id : Id) : Option α → Transaction α
  | some row => pure row
  | none => throw (.notFound entity id)

/-- The record of what runs. -/
def running : Transaction RunningState := return (← get).running.state

/-- Replaces the record of what runs. -/
def saveRunning (state : RunningState) : Transaction Unit :=
  modify fun s => { s with running := state.row }

/-- Sets whether something runs and keeps the stamps. -/
def setRunning (on : Bool) : Transaction Unit :=
  modify fun s => { s with running := { s.running with running := on } }

end Transaction
end ProxyPlane
