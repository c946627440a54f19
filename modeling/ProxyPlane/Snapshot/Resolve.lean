import ProxyPlane.Config.Options
import ProxyPlane.Store.Row

/-!
# Resolving groups

The groups that a routing refers to, and their nodes, each link once and under a name of its own.

Nodes are met group by group in the order of identifiers.  Nodes that share a link are one node; a
tagged row takes the place of an untagged one.  A tagged node is named by its tag.  The others are
named afterwards, in the order in which they were met, by their display name, which the number of
their subscription precedes, and a number follows where that name is taken.

## Main definitions

* `normalizeName` — a display name that the configuration language can hold.
* `collect` — the nodes of some groups, each link once.
* `uniqueName` — the name of an untagged node.
* `resolve` — the groups and nodes of a routing.
-/

set_option autoImplicit false
namespace ProxyPlane

open Config

/-- A display name without blanks at its ends and with `_` for colons and quotes; an empty one
becomes `node`. -/
def normalizeName (name : String) : String :=
  let chars := (Text.trim name.toList).map fun c => if c = ':' ∨ c = '\'' ∨ c = '"' then '_' else c
  if chars.isEmpty then "node" else String.ofList chars

/-- A link met in some groups: the row that stands for it and the names of those groups. -/
structure Candidate where
  node : Node
  groups : List String
  deriving DecidableEq, Repr

namespace Candidate

/-- One more row with the same link, met in `group`. -/
def meet (group : String) (node : Node) (c : Candidate) : Candidate where
  node := if c.node.tag.isNone && node.tag.isSome then node else c.node
  groups := if c.groups.contains group then c.groups else c.groups ++ [group]

/-- Adds a row to the candidates: to the one with its link, or as a new one at the end. -/
def add (group : String) (node : Node) : List Candidate → List Candidate
  | [] => [⟨node, [group]⟩]
  | c :: rest =>
    if c.node.link = node.link then c.meet group node :: rest else c :: add group node rest

end Candidate

/-- The nodes of some groups, each link once, in the order in which they are met. -/
def collect (members : List GroupMembers) : List Candidate :=
  members.foldl (fun candidates m =>
    m.nodes.foldl (fun candidates node => Candidate.add m.group.name node candidates) candidates) []

/-- The name an untagged node would like to have. -/
def baseName (node : Node) : String :=
  match node.subscription with
  | some id => toString id ++ "." ++ normalizeName node.name
  | none => normalizeName node.name

/-- A name with a number after it. -/
def numbered (base : String) (n : Nat) : String := base ++ "." ++ toString n

/-- The least number from `n` on with which a name is free, when there is one among the next
`fuel`. -/
def freeNumber? (base : String) (taken : List String) : Nat → Nat → Option Nat
  | 0, _ => none
  | fuel + 1, n =>
    if taken.contains (numbered base n) then freeNumber? base taken fuel (n + 1) else some n

/-- The name of an untagged node: its base, or the base with the least free number.  Among as many
numbers as there are names, and one more, one is free. -/
def uniqueName (node : Node) (taken : List String) : String :=
  let base := baseName node
  if taken.contains base then
    ((freeNumber? base taken (taken.length + 1) 0).map (numbered base)).getD base
  else base

/-- A node with its name. -/
structure ResolvedNode where
  name : String
  link : String
  /-- The row that stands for the link. -/
  node : Id
  /-- The names of the groups the link belongs to, in increasing order. -/
  groups : List String
  deriving DecidableEq, Repr

/-- A group and the names of its nodes. -/
structure ResolvedGroup where
  group : Group
  nodes : List String
  deriving DecidableEq, Repr

/-- The groups and nodes of a routing. -/
structure Resolution where
  groups : List ResolvedGroup
  nodes : List ResolvedNode
  deriving DecidableEq, Repr

/-- The name of a candidate when some names are taken. -/
def Candidate.name (taken : List String) (c : Candidate) : String :=
  c.node.tag.getD (uniqueName c.node taken)

/-- Names candidates one after the other. -/
def nameCandidates (taken : List String) : List Candidate → List ResolvedNode
  | [] => []
  | c :: rest =>
    ⟨c.name taken, c.node.link, c.node.id, c.groups.mergeSort fun a b => decide (a ≤ b)⟩
      :: nameCandidates (c.name taken :: taken) rest

/-- Tagged candidates before untagged ones, each in the order in which they were met. -/
def taggedFirst (candidates : List Candidate) : List Candidate :=
  candidates.filter (fun c => c.node.tag.isSome) ++ candidates.filter (fun c => c.node.tag.isNone)

/-- The groups that a routing refers to, by identifier. -/
def referenced (routing : RoutingOptions) (members : List GroupMembers) : List GroupMembers :=
  (members.filter fun m => routing.outbounds.contains m.group.name).mergeSort
    fun a b => a.group.id ≤ b.group.id

/-- The names that a routing refers to and that are neither groups nor built in. -/
def missingNames (routing : RoutingOptions) (members : List GroupMembers) : List String :=
  routing.outbounds.filter fun name =>
    !members.any (fun m => m.group.name == name) && !isBuiltinOutbound name

/-- The groups and nodes of a routing.  `members` are groups that may or may not be referred to;
`routingName` is for the wording of an error. -/
def resolve (members : List GroupMembers) (routingName : String) (routing : RoutingOptions) :
    Except CompileError Resolution :=
  let found := referenced routing members
  let missing := missingNames routing found
  if !missing.isEmpty then .error (.missingGroups missing)
  else
    match found.find? fun m => m.nodes.isEmpty with
    | some m => .error (.emptyGroup m.group.name routingName)
    | none =>
      let nodes := nameCandidates [] (taggedFirst (collect found))
      .ok ⟨found.map fun m =>
        ⟨m.group, (nodes.filter fun node => node.groups.contains m.group.name).map (·.name)⟩, nodes⟩

end ProxyPlane
