import ProxyPlane.Telemetry.Log
import ProxyPlane.Text.Blank
import ProxyPlane.Text.Decimal

/-!
# What is logged

A filter is a list of directives with commas between them.  A directive is a level, the beginning of
the name of a part of the program, or both with an equals sign between them.  The directive with the
longest name that fits decides, and of two with the same name the later one.

## Main definitions

* `LogDirective` — a directive; `LogDirective.parse?`.
* `LogFilter` — directives; `LogFilter.strict?`, `LogFilter.lenient`.
* `LogFilter.admits` — whether something is logged.
-/

set_option autoImplicit false
namespace ProxyPlane

/-- What is logged of the parts of the program whose names begin with `target`. -/
structure LogDirective where
  target : String
  /-- The last level that is logged, by its place; 0 for none at all. -/
  limit : Nat
  deriving DecidableEq, Repr

/-- The place of a level that is written as a word or as a number. -/
def readLimit? (s : List Char) : Option Nat :=
  let lower := s.map Char.toLower
  if lower = "off".toList then some 0
  else
    match LogLevel.all.find? fun l => l.label.toList.map Char.toLower == lower with
    | some level => some level.verbosity
    | none => Text.readNat? 5 s

namespace LogDirective

/-- Whether a character may stand in the name of a part of the program. -/
def isTargetChar (c : Char) : Bool := c.isAlphanum || c == '_' || c == ':' || c == '-'

/-- A directive.  A name without a level stands for everything there is. -/
def parse? (s : List Char) : Option LogDirective :=
  match readLimit? s with
  | some limit => some ⟨"", limit⟩
  | none =>
    let name := s.takeWhile isTargetChar
    let target := String.ofList name
    if name.isEmpty then none
    else
      match s.drop name.length with
      | [] | ['='] => some ⟨target, LogLevel.trace.verbosity⟩
      | '=' :: level => (readLimit? level).map fun limit => ⟨target, limit⟩
      | _ => none

end LogDirective

/-- What is logged.  No two directives have the same name. -/
abbrev LogFilter := List LogDirective

namespace LogFilter

/-- Adds a directive, in the place of one with the same name. -/
def put (f : LogFilter) (d : LogDirective) : LogFilter := d :: f.filter fun e => e.target != d.target

/-- A filter of directives; none at all means errors only. -/
def ofDirectives (directives : List LogDirective) : LogFilter :=
  if directives.isEmpty then [⟨"", LogLevel.error.verbosity⟩] else directives.foldl put []

/-- The directives in a text. -/
def parts (text : String) : List (List Char) :=
  (Text.splitOn (· == ',') text.toList).filter fun part => !part.isEmpty

/-- A filter all of whose directives can be read. -/
def strict? (text : String) : Option LogFilter := ((parts text).mapM LogDirective.parse?).map ofDirectives

/-- A filter of the directives that can be read. -/
def lenient (text : String) : LogFilter := ofDirectives ((parts text).filterMap LogDirective.parse?)

/-- The filter that the environment asks for, or else the one for a level. -/
def choose (asked : Option String) (level : String) : LogFilter :=
  (asked.bind strict?).getD (lenient level)

/-- The directive that decides about a part of the program. -/
def decisive? (f : LogFilter) (source : String) : Option LogDirective :=
  (f.filter fun d => source.startsWith d.target).foldl
    (fun best d =>
      match best with
      | some b => if b.target.length < d.target.length then some d else best
      | none => some d) none

/-- Whether something is logged. -/
def admits (f : LogFilter) (level : LogLevel) (source : String) : Bool :=
  (f.decisive? source).any fun d => level.verbosity ≤ d.limit

end LogFilter
end ProxyPlane
