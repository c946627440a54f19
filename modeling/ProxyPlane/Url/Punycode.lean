/-!
# Internationalised labels

A label that begins with `xn--` stands for another one, written in the digits of RFC 3492.  Such a
label is well-formed when it can be decoded, and what it stands for is not ASCII alone and holds no
control characters.

## Main definitions

* `Punycode.decode?` — the characters behind the digits.
* `Punycode.isWellFormed` — whether a label may stand in a host name.
-/

set_option autoImplicit false
namespace ProxyPlane
namespace Punycode

/-- The value of a digit: letters first, then figures. -/
def digit? (c : Char) : Option Nat :=
  if 'a' ≤ c ∧ c ≤ 'z' then some (c.toNat - 'a'.toNat)
  else if '0' ≤ c ∧ c ≤ '9' then some (c.toNat - '0'.toNat + 26)
  else none

/-- The greatest final digit at place `k`. -/
def threshold (k bias : Nat) : Nat :=
  if k ≤ bias then 1 else min 26 (k - bias)

/-- Reads one number of variable length: its value and the digits after it. -/
def readNumber (bias : Nat) : List Char → Nat → Nat → Nat → Option (Nat × List Char)
  | [], _, _, _ => none
  | c :: rest, k, weight, acc =>
    match digit? c with
    | none => none
    | some d =>
      let t := threshold k bias
      if d < t then some (acc + d * weight, rest)
      else readNumber bias rest (k + 36) (weight * (36 - t)) (acc + d * weight)

theorem length_readNumber_lt {bias : Nat} {s : List Char} {k weight acc : Nat}
    {r : Nat × List Char} (h : readNumber bias s k weight acc = some r) : r.2.length < s.length := by
  induction s generalizing k weight acc with
  | nil => simp [readNumber] at h
  | cons c rest ih =>
    simp only [readNumber] at h
    split at h
    · simp at h
    · split at h
      · cases h; simp
      · exact Nat.lt_succ_of_lt (ih h)

/-- Divides until the value is small, and counts the steps. -/
def reduce (delta steps : Nat) : Nat × Nat :=
  if 455 < delta then reduce (delta / 35) (steps + 1) else (delta, steps)
termination_by delta
decreasing_by exact Nat.div_lt_self (by omega) (by omega)

/-- The bias for the next number. -/
def adapt (delta points : Nat) (first : Bool) : Nat :=
  let scaled := if first then delta / 700 else delta / 2
  let (small, steps) := reduce (scaled + scaled / points) 0
  36 * steps + 36 * small / (small + 38)

/-- Inserts one character after the other into `out`. -/
def insertAll (bias code index : Nat) (out s : List Char) : Option (List Char) :=
  match s with
  | [] => some out
  | c :: rest =>
    match _h : readNumber bias (c :: rest) 36 1 index with
    | none => none
    | some (i, left) =>
      let points := out.length + 1
      let code' := code + i / points
      if code'.isValidChar then
        insertAll (adapt (i - index) points (index == 0)) code' (i % points + 1)
          (out.insertIdx (i % points) (Char.ofNat code')) left
      else none
termination_by s.length
decreasing_by exact length_readNumber_lt ‹_›

/-- The characters behind a label, which comes without its first four characters. -/
def decode? (label : List Char) : Option (List Char) :=
  let tail := (label.reverse.takeWhile (· != '-')).reverse
  let head := label.take (label.length - tail.length - 1)
  insertAll 72 128 0 head tail

/-- Whether a lowercase label may stand in a host name. -/
def isWellFormed (label : List Char) : Bool :=
  match label with
  | 'x' :: 'n' :: '-' :: '-' :: rest =>
    match decode? rest with
    | some chars => chars.any (fun c => 128 ≤ c.toNat) && chars.all fun c => c.toNat < 128 || 0xA0 < c.toNat
    | none => false
  | _ => true

end Punycode
end ProxyPlane
