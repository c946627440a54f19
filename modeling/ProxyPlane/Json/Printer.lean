import ProxyPlane.Json.Basic
import ProxyPlane.Text.Hex

/-!
# Writing JSON

The compact text of a value.  Quotes, backslashes and the characters below the blank are escaped and
nothing else.  A floating-point number has the fewest digits that read back; it is positional from
10⁻⁵ up to 10¹⁶ and then always has a point, and elsewhere it has a signed exponent of at least two
digits.
-/

set_option autoImplicit false
namespace ProxyPlane
namespace Json

/-- A character inside a string. -/
def escapeChar (c : Char) : List Char :=
  if c = '"' then ['\\', '"']
  else if c = '\\' then ['\\', '\\']
  else if c = '\n' then ['\\', 'n']
  else if c = '\r' then ['\\', 'r']
  else if c = '\t' then ['\\', 't']
  else if c = '\x08' then ['\\', 'b']
  else if c = '\x0c' then ['\\', 'f']
  else if c.toNat < 0x20 then
    ['\\', 'u', '0', '0', Text.hexDigit (c.toNat / 16), Text.hexDigit (c.toNat % 16)]
  else [c]

/-- A string with its quotes. -/
def quote (s : String) : String :=
  String.ofList ('"' :: s.toList.flatMap escapeChar ++ ['"'])

/-- Digits with a point among or beside them. -/
def positional (digits : List Char) (exponent : Int) : String :=
  let n := digits.length
  if exponent < 0 then
    "0." ++ String.ofList (List.replicate (-exponent - 1).toNat '0' ++ digits)
  else
    let whole := exponent.toNat + 1
    if n ≤ whole then String.ofList (digits ++ List.replicate (whole - n) '0') ++ ".0"
    else String.ofList (digits.take whole) ++ "." ++ String.ofList (digits.drop whole)

/-- Digits with a point after the first and an exponent. -/
def scientific (digits : List Char) (exponent : Int) : String :=
  let power := toString exponent.natAbs
  String.ofList (digits.take 1) ++ (if digits.length ≤ 1 then "" else ".")
    ++ String.ofList (digits.drop 1) ++ (if exponent < 0 then "e-" else "e+")
    ++ (if power.length < 2 then "0" else "") ++ power

/-- A number. -/
def Number.render : Number → String
  | .integer n => toString n
  | .float negative x =>
    let sign := if negative then "-" else ""
    if x.significand = 0 then sign ++ "0.0"
    else
      let d := x.shortest
      if -5 ≤ d.exponent ∧ d.exponent < 16 then sign ++ positional d.digits d.exponent
      else sign ++ scientific d.digits d.exponent

mutual
/-- The compact text of a value. -/
def render : Json → String
  | .null => "null"
  | .bool true => "true"
  | .bool false => "false"
  | .number n => n.render
  | .string s => quote s
  | .array items => "[" ++ String.intercalate "," (renderItems items) ++ "]"
  | .object members => "\x7b" ++ String.intercalate "," (renderMembers members) ++ "\x7d"

/-- The texts of the items of an array. -/
def renderItems : List Json → List String
  | [] => []
  | item :: rest => item.render :: renderItems rest

/-- The texts of the members of an object. -/
def renderMembers : List (String × Json) → List String
  | [] => []
  | (name, value) :: rest => (quote name ++ ":" ++ value.render) :: renderMembers rest
end

end Json
end ProxyPlane
