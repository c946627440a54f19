import ProxyPlane.Config.Parser
import ProxyPlane.Text.Decimal

/-!
# The options of each section

What the statements of a section say to the proxy: its port and log level, the preferred version of
addresses, and the routing.

## Main definitions

* `GlobalOptions`, `DnsOptions`, `RoutingOptions` — the options, and `parse` for each.
* `Sections`, `Sections.parse` — the three together.
* `RoutingOptions.outbounds` — the names that the routing needs a group for.
* `isBuiltinOutbound` — the names that need none.
-/

set_option autoImplicit false
namespace ProxyPlane
namespace Config

/-- The literal that the first assignment of a literal to `key` gives. -/
def lookup (key : String) (statements : List Statement) : Option String :=
  statements.findSome? fun
    | .assignment k (.scalar s) => if k = key then some s.text else none
    | _ => none

/-- The options of the global section. -/
structure GlobalOptions where
  statements : List Statement
  port : Nat
  logLevel : String
  deriving DecidableEq, Repr

/-- The options of an empty global section. -/
def GlobalOptions.default : GlobalOptions := ⟨[], 12345, "info"⟩

/-- The options that statements give; the port has to fit sixteen bits. -/
def GlobalOptions.ofStatements (statements : List Statement) : Except GrammarError GlobalOptions :=
  let logLevel := (lookup "log_level" statements).getD GlobalOptions.default.logLevel
  match lookup "tproxy_port" statements with
  | none => .ok ⟨statements, GlobalOptions.default.port, logLevel⟩
  | some text =>
    match Text.readNat? 65535 text.toList with
    | some port => .ok ⟨statements, port, logLevel⟩
    | none => .error (.ofMeaning .config (.badPort text))

/-- The options of a global section. -/
def GlobalOptions.parse (source : String) : Except GrammarError GlobalOptions :=
  parseSection .config source >>= ofStatements

/-- Which version of addresses answers should prefer. -/
inductive IpPreference
  | any
  | v4
  | v6
  deriving DecidableEq, Repr

/-- The number a preference is written as. -/
def IpPreference.number : IpPreference → Nat
  | .any => 0
  | .v4 => 4
  | .v6 => 6

/-- The preference that a number stands for. -/
def IpPreference.ofNumber? (n : Nat) : Option IpPreference :=
  [IpPreference.any, .v4, .v6].find? fun p => p.number == n

/-- The options of the dns section. -/
structure DnsOptions where
  statements : List Statement
  preference : IpPreference
  deriving DecidableEq, Repr

/-- The options of an empty dns section. -/
def DnsOptions.default : DnsOptions := ⟨[], .any⟩

/-- The options that statements give. -/
def DnsOptions.ofStatements (statements : List Statement) : Except GrammarError DnsOptions :=
  match lookup "ip_version_prefer" statements with
  | none => .ok ⟨statements, .any⟩
  | some text =>
    match (Text.readNat? 255 text.toList).bind IpPreference.ofNumber? with
    | some preference => .ok ⟨statements, preference⟩
    | none => .error (.ofMeaning .dns (.badPreference text))

/-- The options of a dns section. -/
def DnsOptions.parse (source : String) : Except GrammarError DnsOptions :=
  parseSection .dns source >>= ofStatements

/-- The options of the routing section. -/
structure RoutingOptions where
  rules : List Rule
  /-- Where traffic goes that no rule matches. -/
  fallback : Call
  /-- The statements that are neither rules nor the fallback. -/
  extra : List Statement
  deriving DecidableEq, Repr

/-- A routing that sends everything to one outbound. -/
def RoutingOptions.only (fallback : Call) : RoutingOptions := ⟨[], fallback, []⟩

/-- Sorts statements into rules, the last fallback and the rest.  Every fallback has to be a single
outbound. -/
def sortRouting : List Statement → Except GrammarError (List Rule × Option Call × List Statement)
  | [] => .ok ([], none, [])
  | .rule rule :: rest => do
    let (rules, fallback, extra) ← sortRouting rest
    return (rule :: rules, fallback, extra)
  | .assignment key value :: rest =>
    if key = "fallback" then
      match value.toCall? with
      | none => .error (.ofMeaning .routing .badFallback)
      | some call => do
        let (rules, fallback, extra) ← sortRouting rest
        return (rules, some (fallback.getD call), extra)
    else do
      let (rules, fallback, extra) ← sortRouting rest
      return (rules, fallback, .assignment key value :: extra)
  | .block name body :: rest => do
    let (rules, fallback, extra) ← sortRouting rest
    return (rules, fallback, .block name body :: extra)

/-- The options that statements give. -/
def RoutingOptions.ofStatements (statements : List Statement) :
    Except GrammarError RoutingOptions := do
  match ← sortRouting statements with
  | (_, none, _) => .error (.ofMeaning .routing .noFallback)
  | (rules, some fallback, extra) => return ⟨rules, fallback, extra⟩

/-- The options of a routing section. -/
def RoutingOptions.parse (source : String) : Except GrammarError RoutingOptions :=
  parseSection .routing source >>= ofStatements

/-- The outbound that overrides all rules; its name is kept whole. -/
def mustRules : String := "must_rules"

/-- The outbounds that exist without a group. -/
def builtinOutbounds : List String := ["direct", "block", "must_direct", mustRules]

/-- Whether an outbound exists without a group. -/
def isBuiltinOutbound (name : String) : Bool := builtinOutbounds.contains name

/-- The characters that mark an outbound which no later rule overrides. -/
def mustMark : List Char := "must_".toList

/-- The group an outbound stands for: its name without the mark. -/
def outboundGroup (name : String) : String :=
  if name = mustRules then name
  else if mustMark.isPrefixOf name.toList then String.ofList (name.toList.drop mustMark.length)
  else name

/-- The names the routing refers to, the fallback first, each once. -/
def RoutingOptions.outbounds (routing : RoutingOptions) : List String :=
  ((routing.fallback :: routing.rules.map Rule.outbound).map fun call =>
    outboundGroup call.name).eraseDups

/-- The three sections a configuration is made from. -/
structure Sections where
  global : GlobalOptions
  dns : DnsOptions
  routing : RoutingOptions
  deriving DecidableEq, Repr

/-- The options of three sections; of several faults the first section's is reported. -/
def Sections.parse (global dns routing : String) : Except GrammarError Sections := do
  let g ← GlobalOptions.parse global
  let d ← DnsOptions.parse dns
  let r ← RoutingOptions.parse routing
  return ⟨g, d, r⟩

end Config
end ProxyPlane
