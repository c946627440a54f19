import ProxyPlane.Store.Basic

/-!
# Nodes in the store

A node is imported from a link, which has to be new among the nodes of the same subscription (or
among those without one).  What changes the nodes that a group reaches moves the group's version,
once, by however many ways the group reaches them.

## Main definitions

* `Store.groupsReaching` — the groups that reach a node, directly or through its subscription.
* `Transaction.bump` — moves the versions of groups.
* `Transaction.importNode`, `Transaction.importNodes` — new nodes, one by one or together.
* `Transaction.removeNodes`, `Transaction.tagNode` — changes.
-/

set_option autoImplicit false
namespace ProxyPlane

/-- A node to be imported. -/
structure NewNode where
  link : String
  tag : Option String
  deriving DecidableEq, Repr

/-- What became of one link of an import. -/
structure Imported where
  link : String
  outcome : Except StoreError Node

namespace Store

/-- The nodes that a subscription owns, by identifier. -/
def nodesOf (s : Store) (subscription : Id) : List Node :=
  s.nodes.rows.filter fun n => n.subscription == some subscription

/-- Whether a group reaches a node, directly or through the node's subscription. -/
def reaches (g : Group) (n : Node) : Bool :=
  g.nodes.contains n.id || n.subscription.any g.subscriptions.contains

/-- The groups that reach one of the given nodes. -/
def groupsReaching (s : Store) (ids : List Id) : List Id :=
  let nodes := s.nodes.rows.filter fun n => ids.contains n.id
  (s.groups.rows.filter fun g => nodes.any (reaches g)).map (·.id)

/-- Takes nodes out, also of the groups they are attached to. -/
def dropNodes (s : Store) (gone : Node → Bool) : Store :=
  let ids := (s.nodes.rows.filter gone).map (·.id)
  { s with
    nodes := s.nodes.retain fun n => !gone n
    groups := s.groups.map fun g => { g with nodes := g.nodes.filter fun id => !ids.contains id } }

end Store

namespace Transaction

/-- Moves the version of every given group by one. -/
def bump (ids : List Id) : Transaction Unit :=
  modify fun s => { s with
    groups := s.groups.map fun g => if ids.contains g.id then { g with version := g.version + 1 } else g }

/-- The node with an identifier. -/
def node (id : Id) : Transaction Node := do require .node id ((← get).nodes.find? id)

/-- A tag that no other node has. -/
def freeNodeTag (tag : String) (owner : Option Id) : Transaction Unit := do
  match (← get).nodes.rows.find? fun n => n.tag == some tag with
  | some n => if some n.id != owner then throw (.alreadyExists .tag tag)
  | none => pure ()

/-- Imports one node.  The tag is looked at first, then the link, then whether the link is new. -/
def importNode (new : NewNode) (subscription : Option Id) : Transaction Node := do
  if let some tag := new.tag then
    check (checkIdentifier .tag tag)
    freeNodeTag tag none
  let endpoint ← check (readLink new.link)
  let s ← get
  if s.nodes.rows.any fun n => n.link == new.link && n.subscription == subscription then
    throw (.alreadyExists .node new.link)
  if let some owner := subscription then
    if (s.subscriptions.find? owner).isNone then throw (.database "node.import")
  set { s with nodes := s.nodes.push fun id =>
    ⟨id, new.link, endpoint.name, endpoint.address, endpoint.protocol, new.tag, subscription⟩ }
  node (s.nodes.issued + 1)

/-- Whether an import goes on after a failure.  A store that fails ends every import; anything but
a link that is there already ends an import that asks for it. -/
def endsImport (abort : Bool) : StoreError → Bool
  | .database _ => true
  | .alreadyExists .node _ => false
  | _ => abort

/-- Imports nodes one after another and tells what became of each. -/
def importNodes (subscription : Option Id) (abort : Bool) : List NewNode → Transaction (List Imported)
  | [] => return []
  | new :: rest => do
    let outcome ← tryCatch (.ok <$> importNode new subscription) fun e => pure (.error e)
    if let .error e := outcome then
      if endsImport abort e then throw e
    return ⟨new.link, outcome⟩ :: (← importNodes subscription abort rest)

/-- Removes nodes and tells how many there were. -/
def removeNodes (ids : List Id) : Transaction Nat := do
  let s ← get
  let removed := (s.nodes.rows.filter fun n => ids.contains n.id).length
  set (s.dropNodes fun n => ids.contains n.id)
  bump (s.groupsReaching ids)
  return removed

/-- Gives a node a tag.  Nodes are named by their tags, so the groups that reach it move unless
the tag is the one it has. -/
def tagNode (id : Id) (tag : String) : Transaction Node := do
  check (checkIdentifier .tag tag)
  freeNodeTag tag (some id)
  let row ← node id
  if row.tag == some tag then return row
  modify fun s => { s with nodes := s.nodes.modify id fun n => { n with tag := some tag } }
  bump ((← get).groupsReaching [id])
  node id

end Transaction
end ProxyPlane
