/-!
# Floating-point numbers with 53 bits

Non-negative finite numbers of the 64-bit format, as a whole number times a power of two, with the
operations rounded to the nearest such number, ties to the even significand.  All of it is exact
arithmetic on whole numbers.

## Main definitions

* `Binary64` — the numbers.
* `Binary64.nearest?` — the number nearest to a fraction, unless it is out of range.
* `Binary64.shortest` — the fewest decimal digits that read back as the same number, and where the
  point stands.
* `Binary64.wholeText` — a rounded whole number as text.
-/

set_option autoImplicit false
namespace ProxyPlane

/-- The number `significand * 2 ^ exponent`. -/
structure Binary64 where
  significand : Nat
  exponent : Int
  deriving DecidableEq, Repr

namespace Binary64

/-- The least exponent. -/
def minExponent : Int := -1074

/-- The greatest exponent. -/
def maxExponent : Int := 971

/-- The least significand of 53 bits. -/
def leastFull : Nat := 0x10000000000000

/-- Zero. -/
def zero : Binary64 := ⟨0, minExponent⟩

/-- A fraction `num / den` times `2 ^ exponent`, as a fraction. -/
def scale (num den : Nat) (exponent : Int) : Nat × Nat :=
  match exponent with
  | .ofNat n => (num * Nat.pow 2 n, den)
  | .negSucc n => (num, den * Nat.pow 2 (n + 1))

/-- A fraction rounded to a whole number, ties to the even one. -/
def roundEven (num den : Nat) : Nat :=
  let q := num / den
  let r := num % den
  if 2 * r < den then q else if den < 2 * r then q + 1 else q + q % 2

/-- The exponent at which a positive fraction has 53 bits before the point, or the least one. -/
def exponentFor (num den : Nat) : Int :=
  let guess : Int := (num.log2 : Int) - (den.log2 : Int) - 52
  let (n, d) := scale num den (-guess)
  max minExponent (if n / d < leastFull then guess - 1 else guess)

/-- The number nearest to the fraction `num / den`, unless that is out of range. -/
def nearest? (num den : Nat) : Option Binary64 :=
  if num = 0 then some zero
  else
    let e := exponentFor num den
    let (n, d) := scale num den (-e)
    let m := roundEven n d
    let rounded : Binary64 := if m = 2 * leastFull then ⟨leastFull, e + 1⟩ else ⟨m, e⟩
    if maxExponent < rounded.exponent then none else some rounded

/-- A number as a fraction. -/
def toFraction (x : Binary64) : Nat × Nat := scale x.significand 1 x.exponent

/-- The number nearest to a whole number. -/
def ofNat? (n : Nat) : Option Binary64 := nearest? n 1

/-- The rounded product. -/
def mul? (x y : Binary64) : Option Binary64 :=
  let (a, b) := x.toFraction
  let (c, d) := y.toFraction
  nearest? (a * c) (b * d)

/-- The rounded quotient. -/
def div? (x y : Binary64) : Option Binary64 :=
  let (a, b) := x.toFraction
  let (c, d) := y.toFraction
  nearest? (a * d) (b * c)

/-! ## Shortest decimal digits -/

/-- Decimal digits and the power of ten of the first of them: `⟨[1, 2, 5], 1⟩` is 12.5. -/
structure Digits where
  digits : List Char
  exponent : Int
  deriving DecidableEq, Repr

/-- The numbers that round to `x`, with a common denominator: the lower end, `x`, the upper end, the
denominator. -/
def interval (x : Binary64) : Nat × Nat × Nat × Nat :=
  let m := x.significand
  let lower := if m = leastFull ∧ x.exponent ≠ minExponent then 4 * m - 1 else 4 * m - 2
  let (one, den) := scale 1 1 (x.exponent - 2)
  (lower * one, 4 * m * one, (4 * m + 2) * one, den)

/-- The power of ten of the first digit of a positive fraction. -/
def decimalExponent (num den : Nat) : Int :=
  if den ≤ num then ((toString (num / den)).length : Int) - 1
  else -((toString ((den - 1) / num)).length : Int)

/-- The multiple of `10 ^ power` nearest to `x` among its two neighbours that round to `x`. -/
def onGrid? (x : Binary64) (power : Int) : Option Nat :=
  let (low, value, high, den) := x.interval
  let (ten, tenth) : Nat × Nat := match power with
    | .ofNat n => (Nat.pow 10 n, 1)
    | .negSucc n => (1, Nat.pow 10 (n + 1))
  let unit := ten * den
  let value' := value * tenth
  let below := value' / unit
  let isEven := x.significand % 2 == 0
  let inside (k : Nat) : Bool :=
    let y := k * unit
    (low * tenth < y && y < high * tenth) || (isEven && (y == low * tenth || y == high * tenth))
  let twice := 2 * (value' - below * unit)
  let first := if twice < unit then below else if unit < twice then below + 1
    else below + below % 2
  [first, below, below + 1].find? inside

/-- Digits without the zeros at their end. -/
def Digits.strip (d : Digits) : Digits :=
  ⟨(d.digits.reverse.dropWhile (· == '0')).reverse, d.exponent⟩

/-- The fewest decimal digits that read back as a positive number, and of those the nearest. -/
def shortest (x : Binary64) : Digits :=
  let (_, value, _, den) := x.interval
  let k := decimalExponent value den
  let found := (List.range 17).findSome? fun (n : Nat) => (x.onGrid? (k - (n : Int))).map fun m =>
    let digits := (toString m).toList
    (Digits.mk digits (k - (n : Int) + (digits.length : Int) - 1)).strip
  found.getD ⟨['0'], 0⟩

/-- A whole number as it is written after rounding: the fewest digits that read back, and zeros up to
the point. -/
def wholeText (n : Int) : String :=
  match ofNat? n.natAbs with
  | none => toString n
  | some x =>
    if x.significand = 0 then "0"
    else
      let d := x.shortest
      (if n < 0 then "-" else "")
        ++ String.ofList (d.digits ++ List.replicate (d.exponent.toNat + 1 - d.digits.length) '0')

end Binary64
end ProxyPlane
