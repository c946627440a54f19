import ProxyPlane.Store.Subscription

/-!
# Groups in the store

Every change of a group moves its version, whether or not it changes anything.

## Main definitions

* `Store.groupsNamed`, `Store.membersOf` — groups by name, and the nodes that they reach.
* `Transaction.createGroup` … `Transaction.detachSubscriptions` — changes.
-/

set_option autoImplicit false
namespace ProxyPlane

namespace Store

/-- The groups that have one of the given names, by identifier. -/
def groupsNamed (s : Store) (names : List String) : List Group :=
  s.groups.rows.filter fun g => names.contains g.name

/-- The nodes that a group reaches: those of its subscriptions in the order of attachment, then
those attached one by one. -/
def reached (s : Store) (g : Group) : List Node :=
  g.subscriptions.flatMap s.nodesOf ++ g.nodes.filterMap s.nodes.find?

/-- The groups that have one of the given names, with the nodes that they reach. -/
def membersOf (s : Store) (names : List String) : List GroupMembers :=
  (s.groupsNamed names).map fun g => ⟨g, s.reached g⟩

end Store

/-- Attaches what is not attached yet, at the end. -/
def attach (attached : List Id) (id : Id) : List Id :=
  if attached.contains id then attached else attached ++ [id]

namespace Transaction

/-- The group with an identifier. -/
def group (id : Id) : Transaction Group := do require .group id ((← get).groups.find? id)

/-- A name that no other group has. -/
def freeGroupName (name : String) (owner : Option Id) : Transaction Unit := do
  match (← get).groups.rows.find? fun g => g.name == name with
  | some g => if some g.id != owner then throw (.alreadyExists .group name)
  | none => pure ()

/-- A new group without members, at version 1. -/
def createGroup (name policy : String) (params : List PolicyParam) : Transaction Group := do
  check (checkIdentifier .name name)
  freeGroupName name none
  let s ← get
  set { s with groups := s.groups.push fun id => ⟨id, name, policy, params, [], [], 1⟩ }
  group (s.groups.issued + 1)

/-- Changes a group without moving its version. -/
def editGroup (id : Id) (f : Group → Group) : Transaction Unit :=
  modify fun s => { s with groups := s.groups.modify id f }

/-- Moves the version of a group, which has to exist. -/
def bumpGroup (id : Id) : Transaction Group := do
  bump [id]
  group id

/-- Renames a group. -/
def renameGroup (id : Id) (name : String) : Transaction Group := do
  check (checkIdentifier .name name)
  freeGroupName name (some id)
  editGroup id fun g => { g with name := name }
  bumpGroup id

/-- Removes groups and tells how many there were. -/
def removeGroups (ids : List Id) : Transaction Nat := do
  let s ← get
  set { s with groups := s.groups.retain fun g => !ids.contains g.id }
  return (s.groups.rows.filter fun g => ids.contains g.id).length

/-- Replaces the policy of a group and its parameters. -/
def setPolicy (id : Id) (policy : String) (params : List PolicyParam) : Transaction Group := do
  editGroup id fun g => { g with policy := policy, params := params }
  bumpGroup id

/-- Attaches nodes; each of them has to exist. -/
def attachNodes (id : Id) (nodes : List Id) : Transaction Group := do
  let _ ← group id
  nodes.forM fun n => do
    let _ ← node n
    editGroup id fun g => { g with nodes := attach g.nodes n }
  bumpGroup id

/-- Detaches nodes. -/
def detachNodes (id : Id) (nodes : List Id) : Transaction Group := do
  editGroup id fun g => { g with nodes := g.nodes.filter fun n => !nodes.contains n }
  bumpGroup id

/-- Attaches subscriptions; each of them has to exist. -/
def attachSubscriptions (id : Id) (subscriptions : List Id) : Transaction Group := do
  let _ ← group id
  subscriptions.forM fun s => do
    let _ ← subscription s
    editGroup id fun g => { g with subscriptions := attach g.subscriptions s }
  bumpGroup id

/-- Detaches subscriptions. -/
def detachSubscriptions (id : Id) (subscriptions : List Id) : Transaction Group := do
  editGroup id fun g => { g with
    subscriptions := g.subscriptions.filter fun s => !subscriptions.contains s }
  bumpGroup id

end Transaction
end ProxyPlane
