import ProxyPlane.Json.Printer
import ProxyPlane.Telemetry.Log
import ProxyPlane.Telemetry.LogFormat

/-!
# Lines of the log

A record is written inside the span of the program, if that is logged itself.  The span tells the
mode of the program, which may be set again, and the build.

## Main definitions

* `LogSpan` — the span.
* `LogLine` — a record in its span; `LogLine.members`, `LogLine.render`.
* `LogLine.text` — a line in either format, with the time before it.
-/

set_option autoImplicit false
namespace ProxyPlane

/-- The span of the program. -/
structure LogSpan where
  /-- The modes, in the order in which they were set. -/
  modes : List String
  build : String
  deriving DecidableEq, Repr

/-- A record in its span. -/
structure LogLine where
  record : LogRecord
  span : Option LogSpan
  deriving DecidableEq, Repr

/-- A value as JSON. -/
def LogValue.wire : LogValue → Json
  | .text s => .string s
  | .number n => .int n
  | .flag b => .bool b

/-- A value as text. -/
def LogValue.render : LogValue → String
  | .text s => s
  | .number n => toString n
  | .flag b => if b then "true" else "false"

namespace LogSpan

/-- The span as JSON, with the mode that was set last. -/
def wire (s : LogSpan) : Json := .object
  [("mode", .string ((s.modes.getLast?).getD "")), ("build_sha", .string s.build), ("name", .string "app")]

/-- The span as text, with every mode that was set. -/
def render (s : LogSpan) : String :=
  let build := "build_sha=" ++ s.build
  let fields := match s.modes with
    | [] => [build]
    | mode :: later => ("mode=" ++ mode) :: build :: later.map fun m => "mode=" ++ m
  "app\x7b" ++ String.intercalate " " fields ++ "\x7d: "

end LogSpan

namespace LogLine

/-- The members of a line as JSON. -/
def members (l : LogLine) : List (String × Json) :=
  let fields := ("message", Json.string l.record.message) :: l.record.fields.map fun f => (f.1, f.2.wire)
  let span := match l.span with
    | some s => [("span", s.wire), ("spans", .array [s.wire])]
    | none => []
  [("level", .string l.record.level.label), ("fields", .object fields)] ++ span

/-- A line as text. -/
def render (l : LogLine) : String :=
  let level := l.record.level.label
  let padding := String.ofList (List.replicate (5 - level.length) ' ')
  let span := (l.span.map LogSpan.render).getD ""
  padding ++ level ++ " " ++ span ++ l.record.message
    ++ String.join (l.record.fields.map fun f => " " ++ f.1 ++ "=" ++ f.2.render)

/-- A line in a format, with the time if that is to be written. -/
def text (l : LogLine) (format : LogFormat) (time : Option String) : String :=
  match format with
  | .json =>
    let stamp := match time with
      | some t => [("timestamp", Json.string t)]
      | none => []
    (Json.object (stamp ++ l.members)).render
  | .pretty => ((time.map fun t => t ++ " ").getD "") ++ l.render

end LogLine
end ProxyPlane
