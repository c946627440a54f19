/-!
# Whole numbers in decimal

Reading of signed and unsigned decimal numbers with a range.  A sign may stand before the digits,
at least one digit is needed, leading zeros are allowed and nothing else may follow.

## Main definitions

* `digitValue?` — the value of one ASCII digit.
* `natOfDigits?` — a non-empty run of digits.
* `readNat?` — an unsigned number up to a limit, `+` allowed.
* `readInt?` — a signed number in the range of 64-bit words.
-/

set_option autoImplicit false
namespace ProxyPlane
namespace Text

/-- The value of an ASCII digit. -/
def digitValue? (c : Char) : Option Nat :=
  if '0' ≤ c ∧ c ≤ '9' then some (c.toNat - '0'.toNat) else none

/-- Reads on after digits worth `acc`. -/
def natOfDigitsFrom? (acc : Nat) : List Char → Option Nat
  | [] => some acc
  | c :: rest => (digitValue? c).bind fun d => natOfDigitsFrom? (acc * 10 + d) rest

/-- The number a non-empty run of digits stands for. -/
def natOfDigits? : List Char → Option Nat
  | [] => none
  | c :: rest => natOfDigitsFrom? 0 (c :: rest)

/-- An unsigned decimal number up to `limit`; a `+` may stand before it. -/
def readNat? (limit : Nat) (s : List Char) : Option Nat :=
  let digits := match s with
    | '+' :: rest => rest
    | s => s
  (natOfDigits? digits).filter (· ≤ limit)

/-- The greatest signed 64-bit number. -/
def maxInt64 : Nat := 0x7FFFFFFFFFFFFFFF

/-- The greatest unsigned 64-bit number. -/
def maxNat64 : Nat := 0xFFFFFFFFFFFFFFFF

/-- A signed decimal number in the 64-bit range; a `+` or a `-` may stand before it. -/
def readInt? (s : List Char) : Option Int :=
  match s with
  | '-' :: rest => ((natOfDigits? rest).filter (· ≤ maxInt64 + 1)).map fun n => -(n : Int)
  | s => (readNat? maxInt64 s).map Int.ofNat

end Text
end ProxyPlane
