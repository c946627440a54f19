import ProxyPlane.Config.Options
import ProxyPlane.Config.Printer
import ProxyPlane.Text.Sha256
import ProxyPlane.Text.Utf8

/-!
# Snapshots

A snapshot is a configuration with nothing left to look up: the options of the three sections, the
groups with the names of their nodes, and the nodes with their links.

## Main definitions

* `Snapshot`, `Snapshot.empty` — the type, and the snapshot of a stopped proxy.
* `Snapshot.render` — its text in the configuration language, five blocks in a fixed order.
* `Snapshot.fingerprint` — the hash of that text.
-/

set_option autoImplicit false
namespace ProxyPlane

open Config

/-- A node under the name that groups know it by. -/
structure NodeEntry where
  name : String
  link : String
  deriving DecidableEq, Repr

/-- A group as the proxy sees it. -/
structure GroupEntry where
  name : String
  /-- The names of the nodes to choose from. -/
  filter : Call
  policy : Call
  deriving DecidableEq, Repr

/-- A configuration with nothing left to look up. -/
structure Snapshot where
  sections : Sections
  groups : List GroupEntry
  nodes : List NodeEntry
  deriving DecidableEq, Repr

namespace Snapshot

/-- The snapshot of a stopped proxy: everything goes out directly. -/
def empty : Snapshot :=
  ⟨⟨.default, .default, .only (.named "direct")⟩, [], []⟩

/-- Whether nothing is routed through a group. -/
def isEmpty (s : Snapshot) : Bool :=
  s.groups.isEmpty && s.nodes.isEmpty && s.sections.routing.rules.isEmpty

/-- A block around some lines. -/
def renderBlock (name body : String) : String :=
  name ++ " \x7b\n" ++ body ++ "\x7d\n"

/-- The line of a node: its name as a literal, its link in quotes. -/
def renderNode (node : NodeEntry) : String :=
  indent 1 ++ (Scalar.bare node.name).render ++ ": " ++ (Scalar.inQuotes node.link).render ++ "\n"

/-- The lines of a group. -/
def renderGroup (group : GroupEntry) : String :=
  indent 1 ++ group.name ++ " \x7b\n"
    ++ indent 2 ++ "filter: " ++ group.filter.render ++ "\n"
    ++ indent 2 ++ "policy: " ++ group.policy.renderTarget ++ "\n"
    ++ indent 1 ++ "\x7d\n"

/-- The lines of a routing: rules, other statements, fallback. -/
def renderRouting (routing : RoutingOptions) : String :=
  String.join (routing.rules.map fun rule => indent 1 ++ rule.render ++ "\n")
    ++ renderStatements 1 routing.extra
    ++ indent 1 ++ "fallback: " ++ routing.fallback.renderTarget ++ "\n"

/-- The text of a snapshot. -/
def render (s : Snapshot) : String :=
  renderBlock "global" (renderStatements 1 s.sections.global.statements)
    ++ renderBlock "node" (String.join (s.nodes.map renderNode))
    ++ renderBlock "group" (String.join (s.groups.map renderGroup))
    ++ renderBlock "dns" (renderStatements 1 s.sections.dns.statements)
    ++ renderBlock "routing" (renderRouting s.sections.routing)

/-- The SHA-256 hash of the text, in hexadecimal. -/
def fingerprint (s : Snapshot) : String :=
  Sha256.hexDigest (Utf8.encode s.render.toList)

end Snapshot
end ProxyPlane
