import ProxyPlane.Store.Group
import ProxyPlane.Store.Section

/-!
# Sessions

A session is a store with at most one transaction open on it.  Steps see what the steps before them
did; nobody else sees it before the commit.

## Main definitions

* `Session` — what is committed and what is pending.
* `Session.step`, `Session.commit`, `Session.rollback`, `Session.reopen`.
-/

set_option autoImplicit false
namespace ProxyPlane

/-- The name of the file of a store that is kept on disk. -/
def Store.fileName : String := "vane.db"

/-- A store and the transaction that is open on it. -/
structure Session where
  committed : Store
  pending : Option Store
  /-- Whether the store is kept on disk. -/
  durable : Bool
  deriving DecidableEq, Repr

namespace Session
variable {α : Type}

/-- A new store. -/
def fresh (durable : Bool) : Session := ⟨.empty, none, durable⟩

/-- A step of the open transaction, which begins with its first step.  A failed step ends nothing. -/
def step (s : Session) (t : Transaction α) : Except StoreError α × Session :=
  let (result, after) := t.on (s.pending.getD s.committed)
  (result, { s with pending := some after })

/-- Makes the steps of the transaction durable. -/
def commit (s : Session) : Session := ⟨s.pending.getD s.committed, none, s.durable⟩

/-- Forgets the steps of the transaction. -/
def rollback (s : Session) : Session := { s with pending := none }

/-- Closes the store and opens it again: only what is committed to a disk is there then. -/
def reopen (s : Session) : Session := ⟨if s.durable then s.committed else .empty, none, s.durable⟩

/-- The name of the file, if there is one. -/
def file? (s : Session) : Option String := if s.durable then some Store.fileName else none

end Session
end ProxyPlane
