import ProxyPlane.Control.Plane

/-!
# Operations on groups and nodes

Each of them is one transaction.
-/

set_option autoImplicit false
namespace ProxyPlane

/-- The policies that an engine knows for choosing a node of a group. -/
def policies : List String := ["random", "fixed", "min_avg10", "min_moving_avg", "min"]

/-- A policy has to be one that an engine knows. -/
def checkPolicy (policy : String) : Except ControlError Unit :=
  if policies.contains policy then .ok () else .error (.refused (.unknownPolicy policy))

namespace Operation

/-- All groups. -/
def groups : Operation (List Group) := look (·.groups.rows)

/-- One group. -/
def group (id : Id) : Operation Group := read (.group id)

/-- A new group without members. -/
def createGroup (name policy : String) (params : List PolicyParam) : Operation Group := do
  check (checkPolicy policy)
  change (.createGroup name policy params)

/-- Renames a group. -/
def renameGroup (id : Id) (name : String) : Operation Group := change (.renameGroup id name)

/-- Removes groups and tells how many there were. -/
def removeGroups (ids : List Id) : Operation Nat := change (.removeGroups ids)

/-- Replaces the policy of a group. -/
def setPolicy (id : Id) (policy : String) (params : List PolicyParam) : Operation Group := do
  check (checkPolicy policy)
  change (.setPolicy id policy params)

/-- Attaches nodes to a group. -/
def attachNodes (id : Id) (nodes : List Id) : Operation Group := change (.attachNodes id nodes)

/-- Detaches nodes from a group. -/
def detachNodes (id : Id) (nodes : List Id) : Operation Group := change (.detachNodes id nodes)

/-- Attaches subscriptions to a group. -/
def attachSubscriptions (id : Id) (subscriptions : List Id) : Operation Group :=
  change (.attachSubscriptions id subscriptions)

/-- Detaches subscriptions from a group. -/
def detachSubscriptions (id : Id) (subscriptions : List Id) : Operation Group :=
  change (.detachSubscriptions id subscriptions)

/-- All nodes. -/
def nodes : Operation (List Node) := look (·.nodes.rows)

/-- Imports nodes that belong to no subscription. -/
def importNodes (nodes : List NewNode) (abort : Bool) : Operation (List Imported) :=
  change (.importNodes none abort nodes)

/-- Removes nodes and tells how many there were. -/
def removeNodes (ids : List Id) : Operation Nat := change (.removeNodes ids)

/-- Gives a node a tag. -/
def tagNode (id : Id) (tag : String) : Operation Node := change (.tagNode id tag)

end Operation
end ProxyPlane
