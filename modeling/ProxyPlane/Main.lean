import ProxyPlane.App.Program
import Std.Time.DateTime.Timestamp

/-!
# The command

Reads the command line and the environment, brings the program up, and answers the requests that
come in on the standard input, one on a line: a method, a path, and maybe a JSON document.  The end
of the input stops the program.
-/

set_option autoImplicit false
namespace ProxyPlane.App

/-- The time as it stands before a line of the log. -/
def clock : IO Instant := return (← Std.Time.Timestamp.now).toSecondsSinceUnixEpoch.val

/-- Writes lines of the log. -/
def writeLines (lines : List LogLine) (format : LogFormat) (timestamps : Bool) : IO Unit := do
  let time := Instant.render (← clock)
  for line in lines do
    IO.println (line.text format (if timestamps then some time else none))

/-- The request on a line. -/
def requestOf (line : String) : Http.Request :=
  let words := Text.splitOn (· == ' ') (Text.trim line.toList)
  let word (n : Nat) : String := String.ofList (words[n]?.getD [])
  let body := String.intercalate " " ((words.drop 2).map String.ofList)
  let headers := if body.isEmpty then [] else [("content-type", "application/json")]
  ⟨word 0, word 1, headers, Utf8.encode body.toList⟩

/-- A response as text. -/
def textOf (r : Http.Response) : String :=
  let content := match r.content with
    | .json value => " " ++ value.render
    | .text s => "\n" ++ s
    | .empty | .events _ => ""
  toString r.status ++ content

/-- Answers the requests on an input until it ends. -/
partial def serve (input : IO.FS.Stream) (p : Program) : IO Program := do
  let line ← input.getLine
  if line.isEmpty then return p
  let (response, next) := p.handle (requestOf line)
  let next := { next with plane := response.discard { next.plane with now := ← clock } }
  writeLines (next.journal.lines.drop p.journal.lines.length) p.settings.logFormat p.settings.timestamps
  IO.println (textOf response)
  serve input next

/-- Tells how the program has ended. -/
def report (o : Outcome) (written : Nat) : IO UInt32 := do
  writeLines (o.lines.drop written) o.format o.timestamps
  if let some failure := o.failure then IO.eprintln ("Error: " ++ failure.details)
  return o.code.toUInt32

/-- Whether a directory is there or can be made. -/
def directoryAt (path : String) : IO Directory := do
  try
    IO.FS.createDirAll path
    return .holding .empty
  catch _ => return .blocked

/-- Runs the program with what the command line says. -/
def start (a : Arguments) (env : Environment) : IO UInt32 := do
  let directory ← directoryAt a.configDir
  let surroundings : Surroundings :=
    { env, directory := fun _ => directory, logging := false, bind := fun a => some a.render
      remote := [], now := ← clock }
  match begin a surroundings with
  | .error outcome => report outcome 0
  | .ok program =>
    writeLines program.journal.lines program.settings.logFormat program.settings.timestamps
    let program ← serve (← IO.getStdin) program
    report program.finish program.journal.lines.length

end ProxyPlane.App

open ProxyPlane ProxyPlane.App in
/-- The program. -/
def main (args : List String) : IO UInt32 := do
  let names := "RUST_LOG" :: Setting.all.filterMap Setting.envName?
  let env ← names.filterMapM fun name => return (← IO.getEnv name).map (name, ·)
  match Arguments.read args env with
  | .error .displayVersion => do
    IO.println versionText
    return 0
  | .error .displayHelp => do
    for setting in Setting.all do
      IO.println ("  --" ++ setting.long)
    return 0
  | .error e => do
    IO.eprintln ("error: " ++ e.label)
    return 2
  | .ok a => start a env
