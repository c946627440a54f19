/-!
# Records of the log

What happens is written down with a level, the part of the program that it happens in, a message
and values.
-/

set_option autoImplicit false
namespace ProxyPlane

/-- How much a record matters. -/
inductive LogLevel
  | error
  | warn
  | info
  | debug
  | trace
  deriving DecidableEq, Repr

namespace LogLevel

/-- The levels, those that matter most first. -/
def all : List LogLevel := [.error, .warn, .info, .debug, .trace]

/-- The name of a level. -/
def label : LogLevel → String
  | .error => "ERROR"
  | .warn => "WARN"
  | .info => "INFO"
  | .debug => "DEBUG"
  | .trace => "TRACE"

/-- The place of a level, those that matter most first, beginning with one. -/
def verbosity : LogLevel → Nat
  | .error => 1
  | .warn => 2
  | .info => 3
  | .debug => 4
  | .trace => 5

end LogLevel

/-- A value in a record. -/
inductive LogValue
  | text (s : String)
  | number (n : Int)
  | flag (b : Bool)
  deriving DecidableEq, Repr

/-- A record. -/
structure LogRecord where
  level : LogLevel
  /-- The part of the program. -/
  source : String
  message : String
  fields : List (String × LogValue)
  deriving DecidableEq, Repr

end ProxyPlane
