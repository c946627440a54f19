import ProxyPlane.Json.Reader
import ProxyPlane.Text.Decimal

/-!
# Reading JSON of a known shape

A shape says what a text has to look like and which type its values have.  The text is read from
left to right, and what is wrong first is reported: that it is no JSON, or that it has another
shape.

A record may be written as an object or as an array of its fields in their order.  In an object each
field occurs at most once, members that are no fields are passed over, and a field that has a
default may be left out; in an array only fields at the end that have a default may be.

## Main definitions

* `Shape`, `Fields` — shapes, and `Shape.Value`, the type of what they describe.
* `Shape.read` — a value of a shape at the beginning of some bytes.
* `Shape.parse` — the value that a whole text stands for.
-/

set_option autoImplicit false
namespace ProxyPlane
namespace Json

mutual
/-- What a text has to look like. -/
inductive Shape
  | bool
  | text
  /-- A whole number of 64 bits with sign. -/
  | int
  /-- A whole number of 16 bits without sign. -/
  | nat16
  /-- Anything. -/
  | value
  /-- `null` or the shape. -/
  | optional (shape : Shape)
  | list (shape : Shape)
  | record (fields : Fields)

/-- The fields of a record. -/
inductive Fields
  | nil
  | required (name : String) (shape : Shape) (rest : Fields)
  /-- A field that may be left out. -/
  | defaulted (name : String) (shape : Shape) (rest : Fields)
end

mutual
/-- The values that a shape describes. -/
@[reducible] def Shape.Value : Shape → Type
  | .bool => Bool
  | .text => String
  | .int => Int
  | .nat16 => Nat
  | .value => Json
  | .optional s => Option s.Value
  | .list s => List s.Value
  | .record fields => fields.Values

/-- The values of the fields of a record; one that was left out is `none`. -/
@[reducible] def Fields.Values : Fields → Type
  | .nil => Unit
  | .required _ s rest => s.Value × rest.Values
  | .defaulted _ s rest => Option s.Value × rest.Values
end

/-- The fields of a record that have been read so far. -/
@[reducible] def Fields.Partial : Fields → Type
  | .nil => Unit
  | .required _ s rest => Option s.Value × rest.Partial
  | .defaulted _ s rest => Option s.Value × rest.Partial

/-- No field read yet. -/
def Fields.none : (fields : Fields) → fields.Partial
  | .nil => ()
  | .required _ _ rest => (.none, rest.none)
  | .defaulted _ _ rest => (.none, rest.none)

/-- The values of all fields, if no required one is missing. -/
def Fields.complete : (fields : Fields) → fields.Partial → Except Fault fields.Values
  | .nil, () => .ok ()
  | .required _ _ rest, (some v, vs) => do return (v, ← rest.complete vs)
  | .required _ _ _, (.none, _) => .error .mismatch
  | .defaulted _ _ rest, (v, vs) => do return (v, ← rest.complete vs)

/-- The fault of a value of another kind than the one asked for: the value still has to be JSON as
far as it is a single token. -/
def otherKind {α : Type} (s : Bytes) : Except Fault α := do
  match skipSpace s with
  | [] => .error .malformed
  | b :: rest =>
    if b = byte 'n' then let _ ← readWord "ull" rest; .error .mismatch
    else if b = byte 't' then let _ ← readWord "rue" rest; .error .mismatch
    else if b = byte 'f' then let _ ← readWord "alse" rest; .error .mismatch
    else if b = byte '"' then let _ ← readString rest; .error .mismatch
    else if b = byte '-' || isDigit b then let _ ← readNumber (b :: rest); .error .mismatch
    else if b = byte '[' || b = byte '\x7b' then .error .mismatch
    else .error .malformed

/-- A truth value. -/
def readBool (s : Bytes) : Except Fault (Bool × Bytes) :=
  match skipSpace s with
  | b :: rest =>
    if b = byte 't' then do return (true, ← readWord "rue" rest)
    else if b = byte 'f' then do return (false, ← readWord "alse" rest)
    else otherKind s
  | [] => otherKind s

/-- A text. -/
def readText (s : Bytes) : Except Fault (String × Bytes) :=
  match skipSpace s with
  | b :: rest => if b = byte '"' then readString rest else otherKind s
  | [] => otherKind s

/-- A whole number between `low` and `high`. -/
def readInteger (low high : Int) (s : Bytes) : Except Fault (Int × Bytes) :=
  match skipSpace s with
  | b :: rest =>
    if b = byte '-' || isDigit b then do
      match ← readNumber (b :: rest) with
      | (.integer n, rest) => if low ≤ n ∧ n ≤ high then return (n, rest) else .error .mismatch
      | (.float .., _) => .error .mismatch
    else otherKind s
  | [] => otherKind s

/-- The bytes after a comma before the next item, or after the bracket that closes the array. -/
inductive ItemStep
  | item (rest : Bytes)
  | close (rest : Bytes)

/-- What stands before the next item of an array, the first one or a later one. -/
def nextItem (first : Bool) (s : Bytes) : Except Fault ItemStep :=
  match skipSpace s with
  | [] => .error .malformed
  | b :: rest =>
    if b = byte ']' then .ok (.close rest)
    else if first then .ok (.item (b :: rest))
    else if b = byte ',' then
      match skipSpace rest with
      | [] => .error .malformed
      | c :: _ => if c = byte ']' then .error .malformed else .ok (.item rest)
    else .error .malformed

/-- The items of an array, from after its opening bracket. -/
def readList {α : Type} (read : Bytes → Except Fault (α × Bytes)) :
    Nat → Bool → Bytes → Except Fault (List α × Bytes)
  | 0, _, _ => .error .malformed
  | fuel + 1, first, s => do
    match ← nextItem first s with
    | .close rest => return ([], rest)
    | .item s =>
      let (item, s) ← read s
      let (items, rest) ← readList read fuel false s
      return (item :: items, rest)

/-- The bytes after a colon. -/
def readColon (s : Bytes) : Except Fault Bytes :=
  match skipSpace s with
  | b :: rest => if b = byte ':' then .ok rest else .error .malformed
  | [] => .error .malformed

/-- The members of an object, from after its opening brace: `step` takes the name of a member and the
bytes after it. -/
def readObject {α : Type} (step : α → String → Bytes → Except Fault (α × Bytes)) :
    Nat → Bool → α → Bytes → Except Fault (α × Bytes)
  | 0, _, _, _ => .error .malformed
  | fuel + 1, first, state, s => do
    match skipSpace s with
    | [] => .error .malformed
    | b :: rest =>
      if b = byte '\x7d' then return (state, rest)
      else
        let s := if first then b :: rest else if b = byte ',' then skipSpace rest else []
        match s with
        | [] => .error .malformed
        | q :: rest =>
          if q = byte '"' then
            let (name, rest) ← readString rest
            let (state, rest) ← step state name rest
            readObject step fuel false state rest
          else .error .malformed

mutual
/-- A value of a shape and the bytes after it. -/
def Shape.read : (shape : Shape) → Nat → Bytes → Except Fault (shape.Value × Bytes)
  | .bool, _, s => readBool s
  | .text, _, s => readText s
  | .int, _, s => readInteger (-Text.maxInt64 - 1) Text.maxInt64 s
  | .nat16, _, s => do
    let (n, rest) ← readInteger 0 65535 s
    return (n.toNat, rest)
  | .value, depth, s => readAny (fuelFor s) depth s
  | .optional shape, depth, s =>
    match skipSpace s with
    | b :: rest =>
      if b = byte 'n' then do return (none, ← readWord "ull" rest)
      else do
        let (v, rest) ← shape.read depth (b :: rest)
        return (some v, rest)
    | [] => .error .malformed
  | .list shape, depth, s =>
    match skipSpace s with
    | b :: rest =>
      if b = byte '[' then readList (shape.read (depth - 1)) (fuelFor rest) true rest
      else otherKind s
    | [] => otherKind s
  | .record fields, depth, s =>
    match skipSpace s with
    | b :: rest =>
      if b = byte '[' then fields.readItems (depth - 1) true rest
      else if b = byte '\x7b' then do
        let (values, rest) ← readObject (fields.readMember (depth - 1)) (fuelFor rest) true
          fields.none rest
        return (← fields.complete values, rest)
      else otherKind s
    | [] => otherKind s

/-- The fields of a record written as an array, from after its opening bracket or after an item. -/
def Fields.readItems : (fields : Fields) → Nat → Bool → Bytes →
    Except Fault (fields.Values × Bytes)
  | .nil, _, _, s =>
    match skipSpace s with
    | b :: rest => if b = byte ']' then .ok ((), rest) else .error .malformed
    | [] => .error .malformed
  | .required _ shape rest, depth, first, s => do
    match ← nextItem first s with
    | .close _ => .error .mismatch
    | .item s =>
      let (v, s) ← shape.read depth s
      let (vs, s) ← rest.readItems depth false s
      return ((v, vs), s)
  | .defaulted _ shape rest, depth, first, s => do
    match ← nextItem first s with
    | .close _ =>
      let (vs, s) ← rest.readItems depth first s
      return ((none, vs), s)
    | .item s =>
      let (v, s) ← shape.read depth s
      let (vs, s) ← rest.readItems depth false s
      return ((some v, vs), s)

/-- A member of a record written as an object, from after its name. -/
def Fields.readMember : (fields : Fields) → Nat → fields.Partial → String → Bytes →
    Except Fault (fields.Partial × Bytes)
  | .nil, _, (), _, s => do return ((), ← skipValue (fuelFor s) (← readColon s))
  | .required n shape rest, depth, (v, vs), name, s =>
    if name = n then
      if v.isSome then .error .mismatch
      else do
        let (v, s) ← shape.read depth (← readColon s)
        return ((some v, vs), s)
    else do
      let (vs, s) ← rest.readMember depth vs name s
      return ((v, vs), s)
  | .defaulted n shape rest, depth, (v, vs), name, s =>
    if name = n then
      if v.isSome then .error .mismatch
      else do
        let (v, s) ← shape.read depth (← readColon s)
        return ((some v, vs), s)
    else do
      let (vs, s) ← rest.readMember depth vs name s
      return ((v, vs), s)
end

/-- The value of a shape that a whole text stands for. -/
def Shape.parse (shape : Shape) (s : Bytes) : Except Fault shape.Value := do
  let (v, rest) ← shape.read maxDepth s
  endOfText rest
  return v

end Json
end ProxyPlane
