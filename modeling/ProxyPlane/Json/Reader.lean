import ProxyPlane.Json.Scan

/-!
# Reading JSON

Any value, to a nesting of at most 127.  A name that occurs more than once in an object keeps its
last value.

## Main definitions

* `readAny` — a value at the beginning of some bytes.
* `parse` — the value that a whole text stands for.
-/

set_option autoImplicit false
namespace ProxyPlane
namespace Json

/-- The deepest nesting, and one more. -/
def maxDepth : Nat := 128

mutual
/-- A value and the bytes after it.  Containers may be nested less than `depth` deep. -/
def readAny : Nat → Nat → Bytes → Except Fault (Json × Bytes)
  | 0, _, _ => .error .malformed
  | fuel + 1, depth, s =>
    match skipSpace s with
    | [] => .error .malformed
    | b :: rest =>
      if b = byte 'n' then do return (.null, ← readWord "ull" rest)
      else if b = byte 't' then do return (.bool true, ← readWord "rue" rest)
      else if b = byte 'f' then do return (.bool false, ← readWord "alse" rest)
      else if b = byte '"' then do
        let (text, rest) ← readString rest
        return (.string text, rest)
      else if b = byte '-' || isDigit b then do
        let (n, rest) ← readNumber (b :: rest)
        return (.number n, rest)
      else if b = byte '[' then
        if depth ≤ 1 then .error .malformed
        else match skipSpace rest with
          | [] => .error .malformed
          | c :: more =>
            if c = byte ']' then .ok (.array [], more)
            else do
              let (items, rest) ← readItems fuel (depth - 1) rest
              return (.array items, rest)
      else if b = byte '\x7b' then
        if depth ≤ 1 then .error .malformed
        else match skipSpace rest with
          | [] => .error .malformed
          | c :: more =>
            if c = byte '\x7d' then .ok (.object [], more)
            else do
              let (members, rest) ← readMembers fuel (depth - 1) [] rest
              return (.object members, rest)
      else .error .malformed

/-- The items of an array, and the bytes after its closing bracket. -/
def readItems : Nat → Nat → Bytes → Except Fault (List Json × Bytes)
  | 0, _, _ => .error .malformed
  | fuel + 1, depth, s => do
    let (item, s) ← readAny fuel depth s
    match skipSpace s with
    | [] => .error .malformed
    | c :: rest =>
      if c = byte ',' then
        let (items, rest) ← readItems fuel depth rest
        return (item :: items, rest)
      else if c = byte ']' then return ([item], rest)
      else .error .malformed

/-- The members of an object added to `members`, and the bytes after its closing brace. -/
def readMembers : Nat → Nat → List (String × Json) → Bytes →
    Except Fault (List (String × Json) × Bytes)
  | 0, _, _, _ => .error .malformed
  | fuel + 1, depth, members, s =>
    match skipSpace s with
    | [] => .error .malformed
    | q :: rest =>
      if q = byte '"' then do
        let (name, rest) ← readString rest
        match skipSpace rest with
        | [] => .error .malformed
        | colon :: rest =>
          if colon = byte ':' then
            let (value, rest) ← readAny fuel depth rest
            match skipSpace rest with
            | [] => .error .malformed
            | c :: rest =>
              if c = byte ',' then readMembers fuel depth (put name value members) rest
              else if c = byte '\x7d' then return (put name value members, rest)
              else .error .malformed
          else .error .malformed
      else .error .malformed
end

/-- Enough fuel for a text: every call but one takes a byte. -/
def fuelFor (s : Bytes) : Nat := 2 * s.length + 2

/-- Nothing but space may be left of a text. -/
def endOfText (s : Bytes) : Except Fault Unit :=
  if (skipSpace s).isEmpty then .ok () else .error .malformed

/-- The value that a whole text stands for. -/
def parse (s : Bytes) : Except Fault Json := do
  let (value, rest) ← readAny (fuelFor s) maxDepth s
  endOfText rest
  return value

/-- The value that a text of characters stands for. -/
def parseText (s : String) : Except Fault Json := parse (Utf8.encode s.toList)

end Json
end ProxyPlane
