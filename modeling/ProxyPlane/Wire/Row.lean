import ProxyPlane.Control.Drift
import ProxyPlane.Json.Basic
import ProxyPlane.Store.Group

/-!
# Rows on the wire

How rows, the results of imports and the record of what runs are written as JSON.
-/

set_option autoImplicit false
namespace ProxyPlane

/-- A section on the wire. -/
def Section.wire (s : Section) : Json := .object
  [("id", .int s.id), ("kind", .string s.kind.label), ("name", .string s.name), ("body", .string s.body),
    ("selected", .bool s.selected), ("version", .int s.version)]

/-- A node on the wire. -/
def Node.wire (n : Node) : Json := .object
  [("id", .int n.id), ("link", .string n.link), ("name", .string n.name), ("address", .string n.address),
    ("protocol", .string n.protocol), ("tag", .option .string n.tag),
    ("subscription_id", .option .int n.subscription)]

/-- A subscription on the wire. -/
def Subscription.wire (s : Subscription) : Json := .object
  [("id", .int s.id), ("link", .string s.link), ("tag", .option .string s.tag), ("cron_exp", .string s.schedule),
    ("cron_enable", .bool s.scheduled), ("status", .string s.status), ("info", .string s.info)]

/-- A parameter of a policy on the wire. -/
def PolicyParam.wire (p : PolicyParam) : Json := .object
  [("key", .option .string p.key), ("val", .string p.value)]

/-- A group on the wire. -/
def Group.wire (g : Group) : Json := .object
  [("id", .int g.id), ("name", .string g.name), ("policy", .string g.policy),
    ("policy_params", .list PolicyParam.wire g.params), ("node_ids", .list .int g.nodes),
    ("subscription_ids", .list .int g.subscriptions), ("version", .int g.version)]

/-- A group and what it reaches, on the wire. -/
def GroupMembers.wire (m : GroupMembers) : Json := .object
  [("group", m.group.wire), ("nodes", .list Node.wire m.nodes)]

/-- What became of a link, on the wire. -/
def Imported.wire (i : Imported) : Json :=
  let (node, error) : Json × Json := match i.outcome with
    | .ok n => (n.wire, .null)
    | .error e => (.null, .string e.message)
  .object [("link", .string i.link), ("node", node), ("error", error)]

/-- A stamp on the wire. -/
def Stamp.wire (s : Stamp) : Json := .object [("id", .int s.id), ("version", .int s.version)]

/-- The record of what runs, on the wire. -/
def RunningState.wire (s : RunningState) : Json := .object
  [("running", .bool s.running), ("config", .option Stamp.wire s.config), ("dns", .option Stamp.wire s.dns),
    ("routing", .option Stamp.wire s.routing), ("group_versions", .string s.groupVersions),
    ("group_ids", .list .int s.groups)]

/-- Reads a stamp. -/
def Stamp.ofWire? (j : Json) : Option Stamp := do some ⟨← (j.get "id").int?, ← (j.get "version").int?⟩

/-- Reads the record of what runs. -/
def RunningState.ofWire? (j : Json) : Option RunningState := do
  let ids ← (j.get "group_ids").items?
  some ⟨← (j.get "running").bool?, Stamp.ofWire? (j.get "config"), Stamp.ofWire? (j.get "dns"),
    Stamp.ofWire? (j.get "routing"), ← (j.get "group_versions").text?, ← ids.mapM Json.int?⟩

/-- A difference on the wire. -/
def Drift.wire (d : Drift) : Json :=
  let (name, fields) : String × List (String × Json) := match d with
    | .notRunning => ("not_running", [])
    | .unselected kind => ("unselected", [("kind", .string kind.label)])
    | .sectionChanged kind running live =>
      ("section_changed", [("kind", .string kind.label), ("running", .option Stamp.wire running), ("live", live.wire)])
    | .groupRemoved id => ("group_removed", [("id", .int id)])
    | .groupChanged id running live =>
      ("group_changed", [("id", .int id), ("running", .int running), ("live", .int live)])
    | .unreadable => ("unreadable", [])
  .object (("drift", .string name) :: fields)

end ProxyPlane
