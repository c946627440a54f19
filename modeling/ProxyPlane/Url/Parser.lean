import ProxyPlane.Text.Decimal
import ProxyPlane.Url.Host

/-!
# Absolute URLs

Reading of absolute URLs by the rules of the WHATWG standard, and their normalised text.  Leading and
trailing blanks and controls are dropped, as are tabs and line ends anywhere; `http`, `https`, `ws`,
`wss`, `ftp` and `file` are special: they take `\` for `/` and always have a path.

## Main definitions

* `Url` — the parts of a URL, escaped as they are written.
* `Url.parse?` — the URL that a text stands for.
* `Url.render` — its normalised text.
-/

set_option autoImplicit false
namespace ProxyPlane

/-- The path of a URL: segments, each after a slash, or text without structure. -/
inductive UrlPath
  | segments (list : List (List Char))
  | opaquePath (text : List Char)
  deriving DecidableEq, Repr

/-- The parts of a URL, escaped as they are written. -/
structure Url where
  scheme : String
  user : List Char
  password : List Char
  host : Option Host
  port : Option Nat
  path : UrlPath
  query : Option (List Char)
  fragment : Option (List Char)
  deriving DecidableEq, Repr

namespace Url

/-! ## Schemes -/

/-- The special schemes and their ports. -/
def specialSchemes : List (String × Option Nat) :=
  [("http", some 80), ("https", some 443), ("ws", some 80), ("wss", some 443), ("ftp", some 21),
    ("file", none)]

/-- Whether a scheme is special. -/
def isSpecialScheme (scheme : String) : Bool := (specialSchemes.lookup scheme).isSome

/-- The port that need not be written. -/
def defaultPort (scheme : String) : Option Nat := (specialSchemes.lookup scheme).join

/-- Whether a character may stand in a scheme after its first letter. -/
def isSchemeChar (c : Char) : Bool := c.isAlphanum || c == '+' || c == '-' || c == '.'

/-- The scheme in lowercase, and what follows its colon. -/
def splitScheme? (s : List Char) : Option (String × List Char) :=
  let scheme := s.takeWhile isSchemeChar
  match scheme, s.dropWhile isSchemeChar with
  | c :: _, ':' :: rest =>
    if c.isAlpha then some (String.ofList (scheme.map Char.toLower), rest) else none
  | _, _ => none

/-! ## Escaping -/

/-- Whether a character stands for itself in a fragment. -/
def keptInFragment (c : Char) : Bool :=
  Host.isPlain c && !(" \"<>`".toList.contains c)

/-- Whether a character stands for itself in a path. -/
def keptInPath (c : Char) : Bool := keptInFragment c && !("#?\x7b\x7d^".toList.contains c)

/-- Whether a character stands for itself in a user name or a password. -/
def keptInUser (c : Char) : Bool := keptInPath c && !("/:;=@[\\]|".toList.contains c)

/-- Whether a character stands for itself in a query. -/
def keptInQuery (special : Bool) (c : Char) : Bool :=
  Host.isPlain c && !(" \"#<>".toList.contains c) && !(special && c == '\'')

/-- A text with the characters escaped that do not stand for themselves. -/
def escapeText (keep : Char → Bool) (s : List Char) : List Char := s.flatMap (Percent.encodeChar keep)

/-! ## Authority -/

/-- Whether a character ends the authority. -/
def endsAuthority (special : Bool) (c : Char) : Bool :=
  c == '/' || c == '?' || c == '#' || (special && c == '\\')

/-- The part before the last `@`, if there is one, and the part after it. -/
def splitUser (s : List Char) : Option (List Char) × List Char :=
  if s.contains '@' then
    let hostPort := (s.reverse.takeWhile (· != '@')).reverse
    (some (s.take (s.length - hostPort.length - 1)), hostPort)
  else (none, s)

/-- The host, up to a colon outside brackets, and what follows. -/
def splitHost (inside : Bool) : List Char → List Char × List Char
  | [] => ([], [])
  | c :: rest =>
    if c = ':' ∧ !inside then ([], c :: rest)
    else
      let more := splitHost (if c = '[' then true else if c = ']' then false else inside) rest
      (c :: more.1, more.2)

/-- A port, and what follows it in an authority; only a backslash may. -/
def readPort? (scheme : String) (s : List Char) : Option (Option Nat × List Char) :=
  let digits := s.takeWhile Char.isDigit
  let rest := s.dropWhile Char.isDigit
  if rest.isEmpty || rest.head? == some '\\' then
    if digits.isEmpty then some (none, rest)
    else match Text.readNat? 65535 digits with
      | none => none
      | some port => some (if defaultPort scheme = some port then none else some port, rest)
  else none

/-- User, password, host and port. -/
structure Authority where
  user : List Char
  password : List Char
  host : Option Host
  port : Option Nat

/-- The authority that a text stands for, and what is left of it.  `atEnd` says whether nothing
follows the text. -/
def readAuthority? (scheme : String) (atEnd : Bool) (s : List Char) :
    Option (Authority × List Char) := do
  let special := isSpecialScheme scheme
  let (userinfo, hostPort) := splitUser s
  if userinfo = some [] ∧ hostPort.isEmpty ∧ !atEnd then none
  else
    let info := userinfo.getD []
    let user := escapeText keptInUser (info.takeWhile (· != ':'))
    let password := escapeText keptInUser ((info.dropWhile (· != ':')).drop 1)
    let (hostText, rest) := splitHost false hostPort
    let host ← if special then Host.ofSpecial? hostText else Host.ofOpaque? hostText
    let named := host ≠ .name []
    if !named ∧ (special || !rest.isEmpty || !user.isEmpty || !password.isEmpty) then none
    else
      let (port, rest) ← match rest with
        | ':' :: rest => readPort? scheme rest
        | rest => some (none, rest)
      return (⟨user, password, if named then some host else none, port⟩, rest)

/-! ## Path, query and fragment -/

/-- Whether a segment stands for its directory. -/
def isSingleDot (s : List Char) : Bool :=
  let lower := String.ofList (s.map Char.toLower)
  lower == "." || lower == "%2e"

/-- Whether a segment stands for the directory above. -/
def isDoubleDot (s : List Char) : Bool :=
  let lower := String.ofList (s.map Char.toLower)
  lower == ".." || lower == ".%2e" || lower == "%2e." || lower == "%2e%2e"

/-- Segments with those for directories resolved; `done` holds the ones before, last first. -/
def resolveDots (done : List (List Char)) : List (List Char) → List (List Char)
  | [] => done.reverse
  | [s] =>
    if isDoubleDot s then ([] :: done.drop 1).reverse
    else if isSingleDot s then ([] :: done).reverse
    else (s :: done).reverse
  | s :: rest =>
    if isDoubleDot s then resolveDots (done.drop 1) rest
    else if isSingleDot s then resolveDots done rest
    else resolveDots (s :: done) rest

/-- The segments of a path from after its first slash. -/
def segmentsOf (special : Bool) (s : List Char) : List (List Char) :=
  resolveDots [] ((Text.splitOn (fun c => c == '/' || (special && c == '\\')) s).map (escapeText keptInPath))

/-- The path after an authority: always one for a special scheme. -/
def readPath (special : Bool) (s : List Char) : UrlPath :=
  match s with
  | [] => .segments (if special then [[]] else [])
  | c :: rest =>
    if c = '/' ∨ (special ∧ c = '\\') then .segments (segmentsOf special rest)
    else .segments (segmentsOf special (c :: rest))

/-- A text up to `?` or `#`, the query and the fragment. -/
def splitTail (s : List Char) : List Char × Option (List Char) × Option (List Char) :=
  let main := s.takeWhile (· != '#')
  let fragment := match s.dropWhile (· != '#') with
    | [] => none
    | _ :: f => some f
  let query := match main.dropWhile (· != '?') with
    | [] => none
    | _ :: q => some q
  (main.takeWhile (· != '?'), query, fragment)

/-! ## Whole URLs -/

/-- A text without the blanks and controls at its ends, and without tabs and line ends. -/
def clean (s : List Char) : List Char :=
  let isEdge (c : Char) : Bool := c.toNat ≤ 0x20
  (((s.dropWhile isEdge).reverse.dropWhile isEdge).reverse).filter
    fun c => c != '\t' && c != '\n' && c != '\r'

/-- The URL of a scheme, an authority and the text after it. -/
def assemble (scheme : String) (a : Authority) (path : UrlPath)
    (query fragment : Option (List Char)) : Url where
  scheme := scheme
  user := a.user
  password := a.password
  host := a.host
  port := a.port
  path := path
  query := query.map (escapeText (keptInQuery (isSpecialScheme scheme)))
  fragment := fragment.map (escapeText keptInFragment)

/-- The URL that begins with an authority. -/
def ofAuthority? (scheme : String) (s : List Char) : Option Url := do
  let special := isSpecialScheme scheme
  let (main, query, fragment) := splitTail s
  let text := main.takeWhile fun c => !endsAuthority special c
  let after := main.dropWhile fun c => !endsAuthority special c
  let (a, rest) ← readAuthority? scheme (after.isEmpty && query.isNone && fragment.isNone) text
  return assemble scheme a (readPath special (rest ++ after)) query fragment

/-- No authority. -/
def noAuthority : Authority := ⟨[], [], none, none⟩

/-- Whether a text is the letter of a drive. -/
def isDrive : List Char → Bool
  | [c, d] => c.isAlpha && (d == ':' || d == '|')
  | _ => false

/-- The URL of a file. -/
def ofFile? (s : List Char) : Option Url := do
  let (main, query, fragment) := splitTail s
  let isSlash (c : Char) : Bool := c == '/' || c == '\\'
  match main with
  | a :: b :: rest =>
    if isSlash a && isSlash b then
      let text := rest.takeWhile fun c => !isSlash c
      let after := rest.dropWhile fun c => !isSlash c
      if isDrive text then
        return assemble "file" noAuthority (readPath true ('/' :: rest)) query fragment
      else if text.isEmpty then
        return assemble "file" noAuthority (readPath true after) query fragment
      else
        let host ← Host.ofSpecial? text
        let host := if host = .name "localhost".toList then none else some host
        return assemble "file" ⟨[], [], host, none⟩ (readPath true after) query fragment
    else return assemble "file" noAuthority (readPath true main) query fragment
  | main => return assemble "file" noAuthority (readPath true main) query fragment

/-- The URL that a text stands for. -/
def parse? (s : String) : Option Url := do
  let (scheme, rest) ← splitScheme? (clean s.toList)
  if scheme = "file" then ofFile? rest
  else if isSpecialScheme scheme then
    ofAuthority? scheme (rest.dropWhile fun c => c == '/' || c == '\\')
  else
    match rest with
    | '/' :: '/' :: rest => ofAuthority? scheme rest
    | rest =>
      let (main, query, fragment) := splitTail rest
      let path := match main with
        | '/' :: more => .segments (segmentsOf false more)
        | main => .opaquePath (escapeText Host.isPlain main)
      return assemble scheme noAuthority path query fragment

/-- The text of a path. -/
def renderPath (hasHost : Bool) : UrlPath → List Char
  | .opaquePath text => text
  | .segments list =>
    let text := list.flatMap fun s => '/' :: s
    if !hasHost && list.head? == some [] && list.length > 1 then '/' :: '.' :: text else text

/-- The user and the password with the `@` after them. -/
def renderUser (u : Url) : List Char :=
  if u.user.isEmpty && u.password.isEmpty then []
  else u.user ++ (if u.password.isEmpty then [] else ':' :: u.password) ++ ['@']

/-- The normalised text of a URL. -/
def render (u : Url) : String :=
  let authority := match u.host with
    | none => if u.scheme == "file" then "//" else ""
    | some host => "//" ++ String.ofList u.renderUser ++ host.render
        ++ (u.port.map fun p => ":" ++ toString p).getD ""
  u.scheme ++ ":" ++ authority ++ String.ofList (renderPath (u.host.isSome || u.scheme == "file") u.path)
    ++ (u.query.map fun q => "?" ++ String.ofList q).getD ""
    ++ (u.fragment.map fun f => "#" ++ String.ofList f).getD ""

end Url
end ProxyPlane
