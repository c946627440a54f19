import ProxyPlane.Json.Basic
import ProxyPlane.Text.Decimal
import ProxyPlane.Text.Hex
import ProxyPlane.Text.Utf8

/-!
# The lexical level of JSON

Reading of strings and numbers from bytes, and skipping of values that nobody asks for.

A number is read as a significand of at most 64 bits and a power of ten: digits that no longer fit
into the significand only count towards the power.  The number is the significand in floating point
times or divided by that power, each step rounded, so that the last bit need not be that of the
number nearest to the text.

## Main definitions

* `Fault` — the text is no JSON, or it is not of the shape that was asked for.
* `readString`, `readNumber` — one string, one number.
* `skipValue` — any value; its strings are not decoded and its numbers may be out of range.
-/

set_option autoImplicit false
namespace ProxyPlane
namespace Json

/-- Why a text cannot be read. -/
inductive Fault
  /-- The text is no JSON. -/
  | malformed
  /-- The text is JSON of another shape. -/
  | mismatch
  deriving DecidableEq, Repr

/-- The bytes of a text. -/
abbrev Bytes := List UInt8

/-- The byte of an ASCII character. -/
def byte (c : Char) : UInt8 := c.toNat.toUInt8

/-- Whether a byte may stand between tokens. -/
def isSpace (b : UInt8) : Bool :=
  b == byte ' ' || b == byte '\n' || b == byte '\t' || b == byte '\r'

/-- The bytes after the space at their beginning. -/
def skipSpace (s : Bytes) : Bytes := s.dropWhile isSpace

/-- Whether a byte is a decimal digit. -/
def isDigit (b : UInt8) : Bool := byte '0' ≤ b && b ≤ byte '9'

/-- The bytes after a fixed word. -/
def readWord (word : String) (s : Bytes) : Except Fault Bytes :=
  let bytes := Utf8.encode word.toList
  if bytes.isPrefixOf s then .ok (s.drop bytes.length) else .error .malformed

/-! ## Strings -/

/-- The character that an escape of one letter stands for. -/
def shortEscape? (b : UInt8) : Option Char :=
  if b = byte '"' then some '"'
  else if b = byte '\\' then some '\\'
  else if b = byte '/' then some '/'
  else if b = byte 'b' then some '\x08'
  else if b = byte 'f' then some '\x0c'
  else if b = byte 'n' then some '\n'
  else if b = byte 'r' then some '\r'
  else if b = byte 't' then some '\t'
  else none

/-- The number that four hexadecimal digits stand for. -/
def hexUnit? (a b c d : UInt8) : Option Nat := do
  let a ← Text.hexValue? (Char.ofNat a.toNat)
  let b ← Text.hexValue? (Char.ofNat b.toNat)
  let c ← Text.hexValue? (Char.ofNat c.toNat)
  let d ← Text.hexValue? (Char.ofNat d.toNat)
  return ((a * 16 + b) * 16 + c) * 16 + d

/-- The character of an escape by number, and the bytes after it.  Halves of characters count only
as a pair. -/
def readUnicode? (s : Bytes) : Option (Char × Bytes) :=
  match s with
  | a :: b :: c :: d :: rest => do
    let unit ← hexUnit? a b c d
    if 0xDC00 ≤ unit ∧ unit ≤ 0xDFFF then none
    else if 0xD800 ≤ unit ∧ unit ≤ 0xDBFF then
      match rest with
      | x :: y :: a :: b :: c :: d :: rest =>
        if x = byte '\\' ∧ y = byte 'u' then
          let low ← hexUnit? a b c d
          if 0xDC00 ≤ low ∧ low ≤ 0xDFFF then
            return (Char.ofNat (0x10000 + (unit - 0xD800) * 0x400 + (low - 0xDC00)), rest)
          else none
        else none
      | _ => none
    else return (Char.ofNat unit, rest)
  | _ => none

/-- The bytes that a string stands for, from after its first quote to its last, and the bytes
after that.  Every step takes a byte, so that as much `fuel` as there are bytes is enough. -/
def stringBytes? : Nat → Bytes → Option (Bytes × Bytes)
  | 0, _ => none
  | _, [] => none
  | fuel + 1, b :: rest =>
    if b = byte '"' then some ([], rest)
    else if b = byte '\\' then
      match rest with
      | [] => none
      | e :: rest =>
        if e = byte 'u' then do
          let (c, rest) ← readUnicode? rest
          let (bytes, rest) ← stringBytes? fuel rest
          return (String.utf8EncodeChar c ++ bytes, rest)
        else do
          let c ← shortEscape? e
          let (bytes, rest) ← stringBytes? fuel rest
          return (String.utf8EncodeChar c ++ bytes, rest)
    else if b < 0x20 then none
    else do
      let (bytes, rest) ← stringBytes? fuel rest
      return (b :: bytes, rest)

/-- A string from after its first quote, and the bytes after it. -/
def readString (s : Bytes) : Except Fault (String × Bytes) :=
  match stringBytes? s.length s with
  | none => .error .malformed
  | some (bytes, rest) =>
    match Utf8.decode? bytes with
    | none => .error .malformed
    | some chars => .ok (String.ofList chars, rest)

/-- The bytes after a string, from after its first quote; its escapes need only look right. -/
def skipString : Nat → Bytes → Except Fault Bytes
  | 0, _ => .error .malformed
  | _, [] => .error .malformed
  | fuel + 1, b :: rest =>
    if b = byte '"' then .ok rest
    else if b = byte '\\' then
      match rest with
      | [] => .error .malformed
      | e :: rest =>
        if e = byte 'u' then
          match rest with
          | a :: b :: c :: d :: rest =>
            if (hexUnit? a b c d).isSome then skipString fuel rest else .error .malformed
          | _ => .error .malformed
        else if (shortEscape? e).isSome then skipString fuel rest
        else .error .malformed
    else if b < 0x20 then .error .malformed
    else skipString fuel rest

/-! ## Numbers -/

/-- The digits at the beginning, and the bytes after them. -/
def spanDigits (s : Bytes) : Bytes × Bytes := (s.takeWhile isDigit, s.dropWhile isDigit)

/-- The parts of a number: whole digits, digits after a point and a signed exponent, each of the
latter two only if it was written. -/
structure NumberText where
  whole : Bytes
  fraction : Option Bytes
  exponent : Option (Bool × Bytes)

/-- The whole digits: a zero alone, or digits that do not begin with zero. -/
def readWhole (s : Bytes) : Except Fault (Bytes × Bytes) :=
  let (digits, rest) := spanDigits s
  if digits.isEmpty || (digits.head? == some (byte '0') && digits.length > 1) then .error .malformed
  else .ok (digits, rest)

/-- The digits after a point, if there is one; then at least one digit has to follow. -/
def readFraction (s : Bytes) : Except Fault (Option Bytes × Bytes) :=
  match s with
  | b :: rest =>
    if b = byte '.' then
      let (digits, rest) := spanDigits rest
      if digits.isEmpty then .error .malformed else .ok (some digits, rest)
    else .ok (none, s)
  | [] => .ok (none, [])

/-- The exponent, if there is one: whether it is negative, and its digits. -/
def readExponent (s : Bytes) : Except Fault (Option (Bool × Bytes) × Bytes) :=
  match s with
  | b :: rest =>
    if b = byte 'e' ∨ b = byte 'E' then
      let (negative, rest) := match rest with
        | c :: more => if c = byte '-' then (true, more) else if c = byte '+' then (false, more)
          else (false, rest)
        | [] => (false, [])
      let (digits, rest) := spanDigits rest
      if digits.isEmpty then .error .malformed else .ok (some (negative, digits), rest)
    else .ok (none, s)
  | [] => .ok (none, [])

/-- A number without its sign. -/
def readNumberText (s : Bytes) : Except Fault (NumberText × Bytes) := do
  let (whole, s) ← readWhole s
  let (fraction, s) ← readFraction s
  let (exponent, s) ← readExponent s
  return (⟨whole, fraction, exponent⟩, s)

/-- The value of a digit. -/
def digitOf (b : UInt8) : Nat := b.toNat - (byte '0').toNat

/-- The greatest significand. -/
def maxSignificand : Nat := Text.maxNat64

/-- Takes digits into a significand until one does not fit: the significand and how many digits it
did not take. -/
def takeDigits (significand : Nat) : Bytes → Nat × Nat
  | [] => (significand, 0)
  | b :: rest =>
    let grown := significand * 10 + digitOf b
    if maxSignificand < grown then (significand, rest.length + 1) else takeDigits grown rest

/-- A power of ten in floating point. -/
def powerOfTen (n : Nat) : Binary64 := (Binary64.ofNat? (Nat.pow 10 n)).getD .zero

/-- Divides by powers of ten of at most 308. -/
def divideByPower (x : Binary64) (n : Nat) : Binary64 :=
  if n ≤ 308 then (x.div? (powerOfTen n)).getD .zero
  else if x.significand = 0 then x
  else divideByPower ((x.div? (powerOfTen 308)).getD .zero) (n - 308)
termination_by n

/-- A significand times a power of ten, in floating point. -/
def ofParts (significand : Nat) (power : Int) : Except Fault Binary64 :=
  let x := (Binary64.ofNat? significand).getD .zero
  match power with
  | .ofNat n =>
    if 308 < n then if x.significand = 0 then .ok x else .error .malformed
    else match x.mul? (powerOfTen n) with
      | some y => .ok y
      | none => .error .malformed
  | .negSucc n => .ok (divideByPower x (n + 1))

/-- The greatest exponent that is counted; beyond it a number is zero or out of range. -/
def maxPower : Nat := 0x7FFFFFFF

/-- The exponent as a number, kept within the counted range. -/
def exponentOf (exponent : Option (Bool × Bytes)) : Int :=
  match exponent with
  | none => 0
  | some (negative, digits) =>
    let n := digits.foldl (fun acc b => min (maxPower + 1) (acc * 10 + digitOf b)) 0
    if negative then -(n : Int) else n

/-- The number that a text without sign stands for. -/
def NumberText.value (t : NumberText) (negative : Bool) : Except Fault Number := do
  let (whole, dropped) := takeDigits 0 t.whole
  match t.fraction, t.exponent with
  | none, none =>
    if dropped = 0 ∧ !negative then return .integer whole
    else if dropped = 0 ∧ whole ≠ 0 ∧ whole ≤ Text.maxInt64 + 1 then return .integer (-(whole : Int))
    else return .float negative (← ofParts whole dropped)
  | fraction, exponent =>
    let digits := fraction.getD []
    let (significand, unused) := takeDigits whole digits
    let taken := digits.length - unused
    let power : Int := (dropped : Int) - (taken : Int) + exponentOf exponent
    return .float negative (← ofParts significand power)

/-- A number that begins with a sign or a digit, and the bytes after it. -/
def readNumber (s : Bytes) : Except Fault (Number × Bytes) := do
  let (negative, s) := match s with
    | b :: rest => if b = byte '-' then (true, rest) else (false, s)
    | [] => (false, [])
  let (text, rest) ← readNumberText s
  return (← text.value negative, rest)

/-- The bytes after a number of whatever size. -/
def skipNumber (s : Bytes) : Except Fault Bytes := do
  let s := match s with
    | b :: rest => if b = byte '-' then rest else s
    | [] => []
  return (← readNumberText s).2

/-! ## Values nobody asks for -/

mutual
/-- The bytes after any value. -/
def skipValue : Nat → Bytes → Except Fault Bytes
  | 0, _ => .error .malformed
  | fuel + 1, s =>
    match skipSpace s with
    | [] => .error .malformed
    | b :: rest =>
      if b = byte 'n' then readWord "ull" rest
      else if b = byte 't' then readWord "rue" rest
      else if b = byte 'f' then readWord "alse" rest
      else if b = byte '"' then skipString rest.length rest
      else if b = byte '-' || isDigit b then skipNumber (b :: rest)
      else if b = byte '[' then
        match skipSpace rest with
        | [] => .error .malformed
        | c :: more => if c = byte ']' then .ok more else skipItems fuel rest
      else if b = byte '\x7b' then
        match skipSpace rest with
        | [] => .error .malformed
        | c :: more => if c = byte '\x7d' then .ok more else skipMembers fuel rest
      else .error .malformed

/-- The bytes after the items of an array and its closing bracket. -/
def skipItems : Nat → Bytes → Except Fault Bytes
  | 0, _ => .error .malformed
  | fuel + 1, s => do
    match skipSpace (← skipValue fuel s) with
    | [] => .error .malformed
    | c :: rest =>
      if c = byte ',' then skipItems fuel rest
      else if c = byte ']' then return rest
      else .error .malformed

/-- The bytes after the members of an object and its closing brace. -/
def skipMembers : Nat → Bytes → Except Fault Bytes
  | 0, _ => .error .malformed
  | fuel + 1, s =>
    match skipSpace s with
    | [] => .error .malformed
    | q :: rest =>
      if q = byte '"' then do
        match skipSpace (← skipString rest.length rest) with
        | [] => .error .malformed
        | colon :: rest =>
          if colon = byte ':' then
            match skipSpace (← skipValue fuel rest) with
            | [] => .error .malformed
            | c :: rest =>
              if c = byte ',' then skipMembers fuel rest
              else if c = byte '\x7d' then return rest
              else .error .malformed
          else .error .malformed
      else .error .malformed
end

end Json
end ProxyPlane
