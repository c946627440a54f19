import ProxyPlane.Text.Blank

/-!
# Base64

The four usual forms: the standard or the URL-safe alphabet, with padding or without.  Reading is
strict.  The bits that the last character carries beyond the last byte have to be zero, a padded
text has to be padded to whole groups of four, and an unpadded one must not be padded at all.

## Main definitions

* `Base64.Form` — one of the four forms.
* `Base64.encode` — the text of some bytes.
* `Base64.decode?` — the bytes of a text in one form.
* `Base64.decodeAny?` — the bytes of a trimmed text in the first form that reads it.
-/

set_option autoImplicit false
namespace ProxyPlane
namespace Base64

/-- An alphabet and whether the text is padded with `=`. -/
structure Form where
  urlSafe : Bool
  padded : Bool
  deriving DecidableEq, Repr

/-- The forms in the order in which they are tried. -/
def Form.all : List Form :=
  [⟨false, true⟩, ⟨false, false⟩, ⟨true, true⟩, ⟨true, false⟩]

/-- The character of six bits. -/
def Form.digit (form : Form) (n : Nat) : Char :=
  if n < 26 then Char.ofNat ('A'.toNat + n)
  else if n < 52 then Char.ofNat ('a'.toNat + (n - 26))
  else if n < 62 then Char.ofNat ('0'.toNat + (n - 52))
  else if n = 62 then (if form.urlSafe then '-' else '+')
  else (if form.urlSafe then '_' else '/')

/-- The six bits of a character. -/
def Form.value? (form : Form) (c : Char) : Option Nat :=
  if 'A' ≤ c ∧ c ≤ 'Z' then some (c.toNat - 'A'.toNat)
  else if 'a' ≤ c ∧ c ≤ 'z' then some (c.toNat - 'a'.toNat + 26)
  else if '0' ≤ c ∧ c ≤ '9' then some (c.toNat - '0'.toNat + 52)
  else if c = form.digit 62 then some 62
  else if c = form.digit 63 then some 63
  else none

/-- The padding of `n` missing characters. -/
def Form.padding (form : Form) (n : Nat) : List Char :=
  if form.padded then List.replicate n '=' else []

/-- The text of some bytes. -/
def encode (form : Form) : List UInt8 → List Char
  | [] => []
  | [a] =>
    [form.digit (a.toNat / 4), form.digit (a.toNat % 4 * 16)] ++ form.padding 2
  | [a, b] =>
    [form.digit (a.toNat / 4), form.digit (a.toNat % 4 * 16 + b.toNat / 16),
      form.digit (b.toNat % 16 * 4)] ++ form.padding 1
  | a :: b :: c :: rest =>
    form.digit (a.toNat / 4) :: form.digit (a.toNat % 4 * 16 + b.toNat / 16)
      :: form.digit (b.toNat % 16 * 4 + c.toNat / 64) :: form.digit (c.toNat % 64)
      :: encode form rest

/-- The bytes of groups of four digits; the last group may hold two or three. -/
def bytesOfDigits? : List Nat → Option (List UInt8)
  | [] => some []
  | [_] => none
  | [a, b] => if b % 16 = 0 then some [UInt8.ofNat (a * 4 + b / 16)] else none
  | [a, b, c] =>
    if c % 4 = 0 then
      some [UInt8.ofNat (a * 4 + b / 16), UInt8.ofNat (b % 16 * 16 + c / 4)]
    else none
  | a :: b :: c :: d :: rest => do
    let bytes ← bytesOfDigits? rest
    return UInt8.ofNat (a * 4 + b / 16) :: UInt8.ofNat (b % 16 * 16 + c / 4)
      :: UInt8.ofNat (c % 4 * 64 + d) :: bytes

/-- The text before its padding, when the padding is the one the form asks for. -/
def Form.unpad? (form : Form) (s : List Char) : Option (List Char) :=
  if form.padded then
    let digits := s.takeWhile (· != '=')
    if s.length % 4 = 0 ∧ s = digits ++ List.replicate (s.length - digits.length) '='
        ∧ s.length - digits.length ≤ 2 then some digits
    else none
  else some s

/-- The bytes of a text in one form. -/
def decode? (form : Form) (s : List Char) : Option (List UInt8) := do
  let digits ← form.unpad? s
  let values ← digits.mapM form.value?
  bytesOfDigits? values

/-- The bytes of a text without the blanks at its ends, in the first form that reads it. -/
def decodeAny? (s : List Char) : Option (List UInt8) :=
  Form.all.findSome? fun form => decode? form (Text.trim s)

end Base64
end ProxyPlane
