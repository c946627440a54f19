/-!
# UTF-8

Bytes of a text and texts of bytes.  The reader takes one scalar value at a time; where the bytes
are ill-formed it takes the longest run that could still have begun one, so that reading with
replacement puts exactly one replacement character for each such run.

## Main definitions

* `encode` — the bytes of a list of characters.
* `next` — one scalar value, or one ill-formed run, and the bytes after it.
* `decode?` — the characters of well-formed bytes.
* `decodeLossy` — the characters of any bytes, U+FFFD for each ill-formed run.
-/

set_option autoImplicit false
namespace ProxyPlane
namespace Utf8

/-- The bytes of a list of characters. -/
def encode (s : List Char) : List UInt8 :=
  s.flatMap String.utf8EncodeChar

/-- A range that a continuation byte has to fall into. -/
structure Span where
  low : UInt8
  high : UInt8

/-- The range of an ordinary continuation byte. -/
def tail : Span := ⟨0x80, 0xBF⟩

/-- What a first byte says: the bits it carries and the ranges of the bytes that follow. -/
def lead? (b : UInt8) : Option (Nat × List Span) :=
  if b < 0x80 then some (b.toNat, [])
  else if b < 0xC2 then none
  else if b < 0xE0 then some (b.toNat - 0xC0, [tail])
  else if b = 0xE0 then some (0, [⟨0xA0, 0xBF⟩, tail])
  else if b = 0xED then some (0xD, [⟨0x80, 0x9F⟩, tail])
  else if b < 0xF0 then some (b.toNat - 0xE0, [tail, tail])
  else if b = 0xF0 then some (0, [⟨0x90, 0xBF⟩, tail, tail])
  else if b < 0xF4 then some (b.toNat - 0xF0, [tail, tail, tail])
  else if b = 0xF4 then some (4, [⟨0x80, 0x8F⟩, tail, tail])
  else none

/-- Takes continuation bytes as long as they fall into their ranges. -/
def takeTails (acc : Nat) : List Span → List UInt8 → Option Nat × List UInt8
  | [], rest => (some acc, rest)
  | _ :: _, [] => (none, [])
  | span :: spans, b :: rest =>
    if span.low ≤ b ∧ b ≤ span.high then takeTails (acc * 64 + (b.toNat - 0x80)) spans rest
    else (none, b :: rest)

theorem length_takeTails_le (acc : Nat) (spans : List Span) (s : List UInt8) :
    (takeTails acc spans s).2.length ≤ s.length := by
  induction spans generalizing acc s with
  | nil => simp [takeTails]
  | cons span spans ih =>
    cases s with
    | nil => simp [takeTails]
    | cons b rest =>
      unfold takeTails
      split
      · exact Nat.le_succ_of_le (ih _ _)
      · exact Nat.le_refl _

/-- One scalar value, or `none` for one ill-formed run, and the bytes after it. -/
def next (b : UInt8) (rest : List UInt8) : Option Char × List UInt8 :=
  match lead? b with
  | none => (none, rest)
  | some (bits, spans) => ((takeTails bits spans rest).1.map Char.ofNat, (takeTails bits spans rest).2)

theorem length_next_le (b : UInt8) (rest : List UInt8) :
    (next b rest).2.length ≤ rest.length := by
  unfold next
  split
  · exact Nat.le_refl _
  · exact length_takeTails_le _ _ _

/-- All scalar values and ill-formed runs, in order. -/
def decodeRuns : List UInt8 → List (Option Char)
  | [] => []
  | b :: rest => (next b rest).1 :: decodeRuns (next b rest).2
termination_by s => s.length
decreasing_by exact Nat.lt_succ_of_le (length_next_le b rest)

/-- The characters of well-formed bytes. -/
def decode? (bytes : List UInt8) : Option (List Char) :=
  (decodeRuns bytes).mapM id

/-- The characters of any bytes: U+FFFD stands for each ill-formed run. -/
def decodeLossy (bytes : List UInt8) : List Char :=
  (decodeRuns bytes).map fun c => c.getD (Char.ofNat 0xFFFD)

end Utf8
end ProxyPlane
