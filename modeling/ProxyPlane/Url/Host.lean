import ProxyPlane.Text.Blank
import ProxyPlane.Text.Percent
import ProxyPlane.Url.Punycode

/-!
# Hosts

A host is a name or an address.  Which it is depends on the scheme: the special schemes read numbers
with dots as addresses of four bytes and take only names that may stand in the domain name system,
while other schemes take any name that cannot be mistaken for another part of the address.

## Main definitions

* `Host`, `Host.render` — the three kinds of host and their text.
* `Ipv4.parse?`, `Ipv6.parse?` — addresses.
* `Host.ofSpecial?`, `Host.ofOpaque?` — the host of a special scheme, and of any other.
-/

set_option autoImplicit false
namespace ProxyPlane

/-- A host. -/
inductive Host
  /-- A name; an empty one stands for no host at all. -/
  | name (text : List Char)
  | ipv4 (address : Nat)
  /-- Eight pieces of sixteen bits. -/
  | ipv6 (pieces : List Nat)
  deriving DecidableEq, Repr

namespace Ipv4

/-- The digits of a number in a base. -/
def digits? (base : Nat) (s : List Char) : Option Nat :=
  s.foldlM (fun acc c => (Text.hexValue? c).bind fun d =>
    if d < base then some (acc * base + d) else none) 0

/-- One part of an address: decimal, octal after `0`, hexadecimal after `0x`. -/
def part? : List Char → Option Nat
  | [] => none
  | '0' :: 'x' :: rest => digits? 16 rest
  | '0' :: 'X' :: rest => digits? 16 rest
  | '0' :: c :: rest => digits? 8 (c :: rest)
  | s => digits? 10 s

/-- The parts of a name, without an empty one at the end. -/
def parts (s : List Char) : List (List Char) :=
  let all := Text.splitOn (· == '.') s
  if all.getLast? = some [] then all.dropLast else all

/-- Whether the last part of a name is a number, so that the name has to be an address. -/
def endsInNumber (s : List Char) : Bool :=
  match (parts s).getLast? with
  | none => false
  | some last => (!last.isEmpty && last.all Char.isDigit) || (part? last).isSome

/-- The address that up to four numbers stand for: the last one fills the bytes that the others
leave. -/
def ofNumbers? (numbers : List Nat) : Option Nat :=
  match numbers.getLast? with
  | none => none
  | some last =>
    let front := numbers.dropLast
    if front.length ≤ 3 ∧ last < Nat.pow 256 (4 - front.length) ∧ front.all (· ≤ 255) then
      some ((front.zipIdx.map fun (n, i) => n * Nat.pow 256 (3 - i)).foldl (· + ·) last)
    else none

/-- The address that a text with dots stands for. -/
def parse? (s : List Char) : Option Nat :=
  ((parts s).mapM part?).bind ofNumbers?

/-- The four bytes in decimal. -/
def render (address : Nat) : String :=
  String.intercalate "." ([3, 2, 1, 0].map fun i => toString (address / Nat.pow 256 i % 256))

end Ipv4

namespace Ipv6

/-- The number of up to four hexadecimal digits at the beginning, how many they are, and what
follows. -/
def takeHex : Nat → Nat → Nat → List Char → Nat × Nat × List Char
  | 0, n, count, s => (n, count, s)
  | fuel + 1, n, count, s =>
    match s with
    | c :: rest =>
      match Text.hexValue? c with
      | some d => takeHex fuel (n * 16 + d) (count + 1) rest
      | none => (n, count, s)
    | [] => (n, count, [])

/-- Four decimal numbers with dots, none longer than it need be. -/
def embedded? (s : List Char) : Option (List Nat) := do
  let numbers ← (Text.splitOn (· == '.') s).mapM fun part =>
    if part.isEmpty || (part.length > 1 && part.head? == some '0') then none
    else (Ipv4.digits? 10 part).filter (· ≤ 255)
  match numbers with
  | [a, b, c, d] => some [a * 256 + b, c * 256 + d]
  | _ => none

/-- Reads pieces; `gap` is where `::` stood. -/
def readPieces : Nat → List Nat → Option Nat → List Char → Option (List Nat × Option Nat)
  | 0, _, _, _ => none
  | fuel + 1, pieces, gap, s =>
    match s with
    | [] => some (pieces, gap)
    | ':' :: rest =>
      if gap.isSome || pieces.length ≥ 8 then none else readPieces fuel pieces (some pieces.length) rest
    | s =>
      if pieces.length ≥ 8 then none
      else
        match takeHex 4 0 0 s with
        | (n, _, []) => some (pieces ++ [n], gap)
        | (n, _, ':' :: rest) => if rest.isEmpty then none else readPieces fuel (pieces ++ [n]) gap rest
        | (_, count, '.' :: _) =>
          if count = 0 || pieces.length > 6 then none
          else (embedded? s).map fun two => (pieces ++ two, gap)
        | _ => none

/-- The pieces of an address. -/
def parse? (s : List Char) : Option (List Nat) := do
  let (pieces, gap) ← match s with
    | ':' :: ':' :: rest => readPieces (s.length + 1) [] (some 0) rest
    | ':' :: _ => none
    | s => readPieces (s.length + 1) [] none s
  match gap with
  | some g =>
    if pieces.length ≤ 7 then
      some (pieces.take g ++ List.replicate (8 - pieces.length) 0 ++ pieces.drop g)
    else none
  | none => if pieces.length = 8 then some pieces else none

/-- The length of the run of zeros at the beginning. -/
def zeroRun (pieces : List Nat) : Nat := (pieces.takeWhile (· == 0)).length

/-- Where the longest run of at least two zeros begins, the first of several, and its length. -/
def longestZeros (pieces : List Nat) : Option (Nat × Nat) :=
  let runs := (List.range pieces.length).map fun i => (i, zeroRun (pieces.drop i))
  runs.foldl (fun best run =>
    match best with
    | none => if run.2 ≥ 2 then some run else none
    | some b => if run.2 > b.2 then some run else some b) none

/-- A piece in hexadecimal without leading zeros. -/
def renderPiece (n : Nat) : String := String.ofList (Nat.toDigits 16 n)

/-- Pieces with colons between them. -/
def renderPieces (pieces : List Nat) : String := String.intercalate ":" (pieces.map renderPiece)

/-- The text of an address, its longest run of zeros shortened. -/
def render (pieces : List Nat) : String :=
  match longestZeros pieces with
  | none => renderPieces pieces
  | some (at_, count) => renderPieces (pieces.take at_) ++ "::" ++ renderPieces (pieces.drop (at_ + count))

end Ipv6

namespace Host

/-- The text of a host inside an address. -/
def render : Host → String
  | .name text => String.ofList text
  | .ipv4 address => Ipv4.render address
  | .ipv6 pieces => "[" ++ Ipv6.render pieces ++ "]"

/-- The address in brackets, if the text is one. -/
def ofBrackets? (s : List Char) : Option Host :=
  if s.getLast? = some ']' then (Ipv6.parse? (s.drop 1).dropLast).map .ipv6 else none

/-- The characters that may not stand in a host of any kind. -/
def isForbidden (c : Char) : Bool :=
  c.toNat = 0 || "\t\n\r #/:<>?@[\\]^|".toList.contains c

/-- The characters that may not stand in a domain name. -/
def isForbiddenInDomain (c : Char) : Bool :=
  isForbidden c || c.toNat ≤ 0x1F || c == '%' || c.toNat = 0x7F

/-- The domain name that a text stands for: in lowercase, with labels that can be looked up.  Only
ASCII names are known. -/
def domain? (s : List Char) : Option (List Char) :=
  let lower := s.map Char.toLower
  if s.isEmpty || lower.any (fun c => isForbiddenInDomain c || 128 ≤ c.toNat) then none
  else if (Text.splitOn (· == '.') lower).all Punycode.isWellFormed then some lower
  else none

/-- The host of a special scheme. -/
def ofSpecial? (s : List Char) : Option Host :=
  if s.head? = some '[' then ofBrackets? s
  else do
    let decoded ← Percent.decode? s
    let name ← domain? decoded
    if Ipv4.endsInNumber name then (Ipv4.parse? name).map .ipv4 else return .name name

/-- Whether a character stands for itself in an opaque host. -/
def isPlain (c : Char) : Bool := 0x1F < c.toNat && c.toNat < 0x7F

/-- The host of any other scheme; it may be empty. -/
def ofOpaque? (s : List Char) : Option Host :=
  if s.head? = some '[' then ofBrackets? s
  else if s.any isForbidden then none
  else some (.name (s.flatMap (Percent.encodeChar isPlain)))

end Host
end ProxyPlane
