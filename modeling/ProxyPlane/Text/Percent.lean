import ProxyPlane.Text.Hex
import ProxyPlane.Text.Utf8

/-!
# Percent-encoding

A byte written as `%` and two hexadecimal digits.  A `%` without two digits after it stands for
itself.

## Main definitions

* `Percent.decodeBytes` — the bytes behind the escapes.
* `Percent.decode?` — the text behind the escapes, when it is well-formed UTF-8.
* `Percent.encodeText` — every character but the unreserved ones escaped.
-/

set_option autoImplicit false
namespace ProxyPlane
namespace Percent

open Text

/-- One byte as an escape with uppercase digits. -/
def escape (b : UInt8) : List Char :=
  ['%', hexDigitUpper (b.toNat / 16), hexDigitUpper (b.toNat % 16)]

/-- The bytes of a text with each escape replaced by its byte. -/
def decodeBytes : List Char → List UInt8
  | [] => []
  | '%' :: a :: b :: rest =>
    match hexValue? a, hexValue? b with
    | some high, some low => UInt8.ofNat (high * 16 + low) :: decodeBytes rest
    | _, _ => '%'.toNat.toUInt8 :: decodeBytes (a :: b :: rest)
  | c :: rest => String.utf8EncodeChar c ++ decodeBytes rest
termination_by s => s.length

/-- The text behind the escapes, when its bytes are well-formed. -/
def decode? (s : List Char) : Option (List Char) :=
  Utf8.decode? (decodeBytes s)

/-- The unreserved characters: ASCII letters and digits and `-`, `.`, `_`, `~`. -/
def isUnreserved (c : Char) : Bool :=
  c.isAlphanum || c == '-' || c == '.' || c == '_' || c == '~'

/-- A character with its bytes escaped unless `keep` holds of it. -/
def encodeChar (keep : Char → Bool) (c : Char) : List Char :=
  if keep c then [c] else (String.utf8EncodeChar c).flatMap escape

/-- A text in which all but the unreserved characters are escaped. -/
def encodeText (s : List Char) : List Char :=
  s.flatMap (encodeChar isUnreserved)

end Percent
end ProxyPlane
