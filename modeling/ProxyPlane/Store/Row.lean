import ProxyPlane.Config.Kind

/-!
# Rows

What the store keeps: sections, nodes, subscriptions and groups.  Identifiers are issued in
increasing order and never reused; versions count the changes that alter what a row compiles to.
-/

set_option autoImplicit false
namespace ProxyPlane

/-- The identifier of a row. -/
abbrev Id := Int

/-- How often a row has changed. -/
abbrev Version := Int

/-- A textual section. -/
structure Section where
  id : Id
  kind : SectionKind
  name : String
  body : String
  /-- Whether this is the section of its kind to run. -/
  selected : Bool
  version : Version
  deriving DecidableEq, Repr

/-- An outbound endpoint. -/
structure Node where
  id : Id
  link : String
  name : String
  address : String
  protocol : String
  /-- A name of its own, unique among all nodes. -/
  tag : Option String
  /-- The subscription that owns the node. -/
  subscription : Option Id
  deriving DecidableEq, Repr

/-- A remote list of nodes. -/
structure Subscription where
  id : Id
  link : String
  tag : Option String
  /-- The calendar expression of its refreshes. -/
  schedule : String
  /-- Whether it is refreshed on schedule. -/
  scheduled : Bool
  /-- What came of the last refresh. -/
  status : String
  info : String
  deriving DecidableEq, Repr

/-- The schedule of a new subscription. -/
def Subscription.defaultSchedule : String := "10 */6 * * *"

/-- A parameter of a selection policy. -/
structure PolicyParam where
  key : Option String
  value : String
  deriving DecidableEq, Repr

/-- A named set of nodes and how one of them is chosen. -/
structure Group where
  id : Id
  name : String
  policy : String
  params : List PolicyParam
  /-- The nodes attached one by one, in the order of attachment. -/
  nodes : List Id
  /-- The subscriptions attached as a whole, in the order of attachment. -/
  subscriptions : List Id
  version : Version
  deriving DecidableEq, Repr

/-- A group and the nodes it reaches: those of its subscriptions first, then those attached one by
one.  A node or a link may occur more than once. -/
structure GroupMembers where
  group : Group
  nodes : List Node
  deriving DecidableEq, Repr

end ProxyPlane
