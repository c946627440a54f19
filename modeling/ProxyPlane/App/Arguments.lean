import ProxyPlane.Text.Blank

/-!
# The command line

Options have a long name and maybe a letter.  An option that takes a value has it after an equals
sign, directly after its letter, or in the next argument; switches take none, and their letters may
stand together.  An option that is not on the line may be set by a variable of the environment.

Every option is checked once its value is complete, which is when the next option begins or when the
line ends; a name that is unknown is refused at once.

## Main definitions

* `Setting`, `Setting.all` — the options.
* `ArgumentError` — why a line is refused.
* `Line` — the options read so far; `Line.give`, `Line.settle`.
* `readArguments` — a whole line.
* `Arguments` — what the line and the environment say; `Arguments.read`.
-/

set_option autoImplicit false
namespace ProxyPlane
namespace App

/-- An option of the command line. -/
inductive Setting
  | configDir
  | listen
  | apiOnly
  | disableTimestamp
  | logLevel
  | logFormat
  | help
  | version
  deriving DecidableEq, Repr

namespace Setting

/-- All options. -/
def all : List Setting :=
  [.configDir, .listen, .apiOnly, .disableTimestamp, .logLevel, .logFormat, .help, .version]

/-- The long name of an option. -/
def long : Setting → String
  | .configDir => "config-dir"
  | .listen => "listen"
  | .apiOnly => "api-only"
  | .disableTimestamp => "disable-timestamp"
  | .logLevel => "log-level"
  | .logFormat => "log-format"
  | .help => "help"
  | .version => "version"

/-- The letter of an option. -/
def letter? : Setting → Option Char
  | .configDir => some 'c'
  | .listen => some 'l'
  | .help => some 'h'
  | .version => some 'V'
  | _ => none

/-- Whether an option takes a value. -/
def takesValue : Setting → Bool
  | .configDir | .listen | .logLevel | .logFormat => true
  | _ => false

/-- The variable that sets an option that is not on the line. -/
def envName? : Setting → Option String
  | .configDir => some "VANE_CONFIG_DIR"
  | .listen => some "VANE_LISTEN"
  | .apiOnly => some "VANE_API_ONLY"
  | .disableTimestamp => some "VANE_DISABLE_TIMESTAMP"
  | .logLevel => some "VANE_LOG_LEVEL"
  | .logFormat => some "VANE_LOG_FORMAT"
  | .help | .version => none

/-- Whether a value will do.  A directory has a name, and a switch is on or off. -/
def accepts (s : Setting) (value : String) : Bool :=
  match s with
  | .configDir => !value.isEmpty
  | .apiOnly | .disableTimestamp => value == "true" || value == "false"
  | _ => true

/-- The option with a long name. -/
def ofLong? (name : List Char) : Option Setting := all.find? fun s => s.long.toList == name

/-- The option with a letter. -/
def ofLetter? (letter : Char) : Option Setting := all.find? fun s => s.letter? == some letter

end Setting

/-- Why a line is refused, or what it asks for instead. -/
inductive ArgumentError
  | unknownArgument
  | invalidValue
  | argumentConflict
  | tooManyValues
  | displayHelp
  | displayVersion
  deriving DecidableEq, Repr

namespace ArgumentError

/-- The name of an error. -/
def label : ArgumentError → String
  | .unknownArgument => "UnknownArgument"
  | .invalidValue => "InvalidValue"
  | .argumentConflict => "ArgumentConflict"
  | .tooManyValues => "TooManyValues"
  | .displayHelp => "DisplayHelp"
  | .displayVersion => "DisplayVersion"

/-- Whether the line asks for something that can be shown. -/
def shows (e : ArgumentError) : Bool := e matches .displayHelp | .displayVersion

end ArgumentError

/-- The options read so far. -/
structure Line where
  given : List (Setting × String)
  /-- The option that is not checked yet, with its value if that was read. -/
  pending : Option (Setting × Option String)
  deriving DecidableEq, Repr

namespace Line

/-- Nothing read. -/
def empty : Line := ⟨[], none⟩

/-- An option with a value, or a switch: it may be given once. -/
def put (l : Line) (s : Setting) (value : String) : Except ArgumentError Line :=
  if l.given.any (·.1 = s) then .error .argumentConflict
  else if s.accepts value then .ok ⟨l.given ++ [(s, value)], none⟩
  else .error .invalidValue

/-- Checks the option that was read last. -/
def settle (l : Line) : Except ArgumentError Line :=
  match l.pending with
  | none => .ok l
  | some (_, none) => .error .invalidValue
  | some (s, some value) => { l with pending := none }.put s value

/-- A switch. -/
def switch (l : Line) (s : Setting) : Except ArgumentError Line := do
  let l ← l.settle
  match s with
  | .help => throw .displayHelp
  | .version => throw .displayVersion
  | s => l.put s "true"

/-- An option with the value that is attached to it, if there is one. -/
def give (l : Line) (s : Setting) (attached : Option String) : Except ArgumentError Line := do
  let l ← l.settle
  match attached with
  | some value => l.put s value
  | none => return { l with pending := some (s, none) }

/-- The characters after two hyphens. -/
def long (l : Line) (s : List Char) : Except ArgumentError Line :=
  let name := s.takeWhile (· != '=')
  let attached := if name.length < s.length then some (String.ofList (s.drop (name.length + 1))) else none
  match Setting.ofLong? name with
  | none => .error .unknownArgument
  | some setting =>
    if setting.takesValue then l.give setting attached
    else if attached.isSome then .error .tooManyValues
    else l.switch setting

/-- The characters after one hyphen. -/
def letters (l : Line) : List Char → Except ArgumentError Line
  | [] => .ok l
  | c :: rest =>
    match Setting.ofLetter? c with
    | none => .error .unknownArgument
    | some setting =>
      if setting.takesValue then
        l.give setting <| match rest with
          | [] => none
          | '=' :: value => some (String.ofList value)
          | value => some (String.ofList value)
      else
        match l.switch setting with
        | .error e => .error e
        | .ok l => l.letters rest

/-- An argument that is no option: it is the value of the option before it, if that waits for one. -/
def word (l : Line) (text : String) : Except ArgumentError Line :=
  match l.pending with
  | some (s, none) => .ok { l with pending := some (s, some text) }
  | _ => .error .unknownArgument

/-- One argument. -/
def argument (l : Line) (text : String) : Except ArgumentError Line :=
  match text.toList with
  | '-' :: '-' :: rest => l.long rest
  | '-' :: c :: rest => l.letters (c :: rest)
  | _ => l.word text

end Line

/-- A whole line.  After two hyphens alone there are no options any more, and nothing else is
known. -/
def readArguments (l : Line) : List String → Except ArgumentError Line
  | [] => l.settle
  | text :: rest =>
    if text == "--" then
      if rest.isEmpty then l.settle else .error .unknownArgument
    else
      match l.argument text with
      | .error e => .error e
      | .ok l => readArguments l rest

/-- What the line and the environment say. -/
structure Arguments where
  configDir : String
  listen : String
  apiOnly : Bool
  disableTimestamp : Bool
  logLevel : String
  logFormat : Option String
  deriving DecidableEq, Repr

/-- The variables of the environment. -/
abbrev Environment := List (String × String)

/-- Sets the options that are not on the line from the environment. -/
def fromEnvironment (env : Environment) : List Setting → Line → Except ArgumentError Line
  | [], l => .ok l
  | s :: rest, l =>
    if l.given.any (·.1 = s) then fromEnvironment env rest l
    else
      match s.envName?.bind fun name => env.lookup name with
      | none => fromEnvironment env rest l
      | some value =>
        match l.put s value with
        | .error e => .error e
        | .ok l => fromEnvironment env rest l

/-- Reads a line, without the name of the program. -/
def Arguments.read (args : List String) (env : Environment) : Except ArgumentError Arguments := do
  let line ← readArguments .empty args
  let line ← fromEnvironment env Setting.all line
  let value (s : Setting) : Option String := line.given.lookup s
  return {
    configDir := (value .configDir).getD "/etc/vane"
    listen := (value .listen).getD "127.0.0.1:2023"
    apiOnly := value .apiOnly == some "true"
    disableTimestamp := value .disableTimestamp == some "true"
    logLevel := (value .logLevel).getD "info"
    logFormat := value .logFormat }

end App
end ProxyPlane
