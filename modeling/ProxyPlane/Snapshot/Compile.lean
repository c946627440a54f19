import ProxyPlane.Snapshot.Basic
import ProxyPlane.Snapshot.Resolve

/-!
# Compiling

Sections and groups become a snapshot.

## Main definitions

* `assemble` — the snapshot of sections and a resolution.
* `compile` — resolves and assembles, and keeps the groups that were read.
-/

set_option autoImplicit false
namespace ProxyPlane

open Config

/-- A selection policy as a call. -/
def Group.policyCall (group : Group) : Call :=
  ⟨group.policy, false, group.params.map fun p => ⟨p.key, .bare p.value⟩⟩

/-- The call that chooses nodes by name. -/
def nameFilter (names : List String) : Call :=
  ⟨"name", false, names.map fun name => ⟨none, .bare name⟩⟩

/-- The snapshot of sections and a resolution. -/
def assemble (sections : Sections) (resolution : Resolution) : Snapshot where
  sections := sections
  groups := resolution.groups.map fun g => ⟨g.group.name, nameFilter g.nodes, g.group.policyCall⟩
  nodes := resolution.nodes.map fun n => ⟨n.name, n.link⟩

/-- A snapshot and the groups it was made from, as they were read, by identifier. -/
structure Compiled where
  snapshot : Snapshot
  groups : List Group
  deriving DecidableEq, Repr

/-- Resolves the groups that the routing refers to and assembles the snapshot. -/
def compile (sections : Sections) (routingName : String) (members : List GroupMembers) :
    Except CompileError Compiled := do
  let resolution ← resolve members routingName sections.routing
  return ⟨assemble sections resolution, resolution.groups.map (·.group)⟩

end ProxyPlane
