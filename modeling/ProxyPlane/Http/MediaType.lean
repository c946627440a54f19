/-!
# Media types

The types of content that count as JSON: `application/json`, and any application type whose suffix
says so.  Parameters may follow, but they have to be well formed.

## Main definitions

* `isToken` — the characters of the words of a media type.
* `areParameters` — whether a text is a list of parameters.
* `isJson` — whether a media type stands for JSON.
-/

set_option autoImplicit false
namespace ProxyPlane
namespace Http.MediaType

/-- A character of a word. -/
def isToken (c : Char) : Bool := c.isAlphanum || "!#$%&'*+-.^_\x60|~".toList.contains c

/-- A character between quotes. -/
def isQuotable (c : Char) : Bool := c.toNat = 9 || (32 ≤ c.toNat && c.toNat ≤ 126 && c != '"')

/-- What is left after a quoted value, which is not empty. -/
def afterQuoted (s : List Char) : Option (List Char) :=
  match s.dropWhile isQuotable with
  | '"' :: rest => if s.takeWhile isQuotable = [] then none else some rest
  | _ => none

/-- What is left after the value of a parameter. -/
def afterValue : List Char → Option (List Char)
  | '"' :: rest => afterQuoted rest
  | s =>
    match s.dropWhile isToken with
    | [] => some []
    | ';' :: rest => if s.takeWhile isToken = [] then none else some rest
    | _ => none

/-- What is left after a parameter and the blanks before it. -/
def afterParameter (s : List Char) : Option (List Char) :=
  match s.dropWhile (· == ' ') with
  | [] => some []
  | s =>
    match s.dropWhile isToken with
    | '=' :: rest => if s.takeWhile isToken = [] then none else afterValue rest
    | _ => none

/-- Whether a text is a list of parameters.  Every one takes at least one character. -/
def areParameters : Nat → List Char → Bool
  | _, [] => true
  | 0, _ => false
  | fuel + 1, s => (afterParameter s).any (areParameters fuel)

/-- A kind of JSON: the type up to its last plus sign, or what follows that. -/
def isJsonSubtype (s : List Char) : Bool :=
  let suffix := (s.reverse.takeWhile (· != '+')).reverse
  let base := s.take (s.length - suffix.length - 1)
  if base.isEmpty then s == "json".toList
  else base == "json".toList || suffix == "json".toList

/-- Whether a media type stands for JSON. -/
def isJson (text : String) : Bool :=
  let s := text.toList.map Char.toLower
  let type := s.takeWhile isToken
  match s.drop type.length with
  | '/' :: rest =>
    let subtype := rest.takeWhile isToken
    type == "application".toList && isJsonSubtype subtype &&
      match rest.drop subtype.length with
      | [] => true
      | ';' :: parameters => areParameters parameters.length parameters
      | _ => false
  | _ => false

end Http.MediaType
end ProxyPlane
