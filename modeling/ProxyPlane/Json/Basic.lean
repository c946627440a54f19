import ProxyPlane.Number.Binary64

/-!
# JSON values

Objects keep their members in order and hold each name once.

## Main definitions

* `Json`, `Json.Number` — the values.
* `Json.put` — adds a member, in the place of one with the same name.
* `Json.render` — the shortest text of a value.
-/

set_option autoImplicit false
namespace ProxyPlane

/-- Numbers: whole ones as they are, others and those beyond 64 bits in floating point. -/
inductive Json.Number
  | integer (n : Int)
  | float (negative : Bool) (magnitude : Binary64)
  deriving DecidableEq, Repr

/-- A JSON value. -/
inductive Json
  | null
  | bool (b : Bool)
  | number (n : Json.Number)
  | string (s : String)
  | array (items : List Json)
  | object (members : List (String × Json))
  deriving Repr, Inhabited

namespace Json

/-- A whole number. -/
def int (n : Int) : Json := .number (.integer n)

/-- A natural number. -/
def nat (n : Nat) : Json := .number (.integer n)

/-- A value or `null`. -/
def option {α : Type} (f : α → Json) : Option α → Json
  | some a => f a
  | none => .null

/-- An array of values. -/
def list {α : Type} (f : α → Json) (items : List α) : Json := .array (items.map f)

/-- Adds a member at the end, or in the place of one with the same name. -/
def put (name : String) (value : Json) : List (String × Json) → List (String × Json)
  | [] => [(name, value)]
  | (n, v) :: rest => if n = name then (n, value) :: rest else (n, v) :: put name value rest

/-- The member with a name; `null` where there is none. -/
def get (name : String) : Json → Json
  | .object members => (members.lookup name).getD .null
  | _ => .null

/-- The text of a string. -/
def text? : Json → Option String
  | .string s => some s
  | _ => none

/-- The truth value of a boolean. -/
def bool? : Json → Option Bool
  | .bool b => some b
  | _ => none

/-- The value of a whole number. -/
def int? : Json → Option Int
  | .number (.integer n) => some n
  | _ => none

/-- The items of an array. -/
def items? : Json → Option (List Json)
  | .array items => some items
  | _ => none

/-- The members of an object. -/
def members? : Json → Option (List (String × Json))
  | .object members => some members
  | _ => none

end Json
end ProxyPlane
