import ProxyPlane.Config.Statement
import ProxyPlane.Json.Basic

/-!
# Statements on the wire

The configuration language as JSON.  A value or a statement is an object with one member, whose name
tells which form it has.

## Main definitions

* `Scalar.wire`, `Call.wire`, `Value.wire`, `Rule.wire`, `Statement.wire` — as JSON.
* `Scalar.ofWire?`, `Call.ofWire?`, `Value.ofWire?`, `Rule.ofWire?`, `Statement.ofWire?` — and back.
-/

set_option autoImplicit false
namespace ProxyPlane
namespace Config

/-- A scalar on the wire. -/
def Scalar.wire (s : Scalar) : Json :=
  .object [("text", .string s.text), ("quoted", .bool s.quoted)]

/-- An argument on the wire. -/
def Argument.wire (a : Argument) : Json :=
  .object [("key", .option .string a.key), ("val", a.value.wire)]

/-- A call on the wire. -/
def Call.wire (c : Call) : Json := .object
  [("name", .string c.name), ("not", .bool c.negated), ("params", .list Argument.wire c.arguments)]

/-- A value on the wire. -/
def Value.wire : Value → Json
  | .scalar s => .object [("Scalar", s.wire)]
  | .calls chain => .object [("Functions", .list Call.wire chain)]

/-- A rule on the wire. -/
def Rule.wire (r : Rule) : Json :=
  .object [("conditions", .list Call.wire r.conditions), ("outbound", r.outbound.wire)]

mutual
/-- A statement on the wire. -/
def Statement.wire : Statement → Json
  | .assignment key value =>
    .object [("Assignment", .object [("key", .string key), ("value", value.wire)])]
  | .block name body =>
    .object [("Section", .object [("name", .string name), ("items", .array (wireStatements body))])]
  | .rule rule => .object [("Rule", rule.wire)]

/-- Statements on the wire. -/
def wireStatements : List Statement → List Json
  | [] => []
  | s :: rest => s.wire :: wireStatements rest
end

/-- The items of an array, each of them read. -/
def unwireItems {α : Type} (read : Json → Option α) (j : Json) : Option (List α) :=
  j.items?.bind fun items => items.mapM read

/-- Reads a scalar. -/
def Scalar.ofWire? (j : Json) : Option Scalar := do
  some ⟨← (j.get "text").text?, ← (j.get "quoted").bool?⟩

/-- Reads an argument. -/
def Argument.ofWire? (j : Json) : Option Argument := do
  some ⟨(j.get "key").text?, ← Scalar.ofWire? (j.get "val")⟩

/-- Reads a call. -/
def Call.ofWire? (j : Json) : Option Call := do
  some ⟨← (j.get "name").text?, ← (j.get "not").bool?, ← unwireItems Argument.ofWire? (j.get "params")⟩

/-- Reads a value. -/
def Value.ofWire? : Json → Option Value
  | .object [("Scalar", j)] => .scalar <$> Scalar.ofWire? j
  | .object [("Functions", j)] => .calls <$> unwireItems Call.ofWire? j
  | _ => none

/-- Reads a rule. -/
def Rule.ofWire? (j : Json) : Option Rule := do
  some ⟨← unwireItems Call.ofWire? (j.get "conditions"), ← Call.ofWire? (j.get "outbound")⟩

mutual
/-- Reads a statement. -/
def Statement.ofWire? : Json → Option Statement
  | .object [("Assignment", j)] => do
    some (.assignment (← (j.get "key").text?) (← Value.ofWire? (j.get "value")))
  | .object [("Section", .object members)] => do
    some (.block (← (members.lookup "name").bind Json.text?) (← unwireBody members))
  | .object [("Rule", j)] => .rule <$> Rule.ofWire? j
  | _ => none

/-- Reads the statements in the members of a block. -/
def unwireBody : List (String × Json) → Option (List Statement)
  | [] => none
  | (name, .array items) :: rest => if name = "items" then unwireStatements items else unwireBody rest
  | _ :: rest => unwireBody rest

/-- Reads statements. -/
def unwireStatements : List Json → Option (List Statement)
  | [] => some []
  | j :: rest => do some ((← Statement.ofWire? j) :: (← unwireStatements rest))
end

end Config
end ProxyPlane
