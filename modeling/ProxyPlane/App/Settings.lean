import ProxyPlane.App.Arguments
import ProxyPlane.Engine.Worker
import ProxyPlane.Net.Address
import ProxyPlane.Store.Error
import ProxyPlane.Telemetry.LogFormat

/-!
# Settings

What the command line says, checked: the address is one, the level of logging names something, and
the directory is there.

## Main definitions

* `Failure` — why the program ends early.
* `Settings` — what the program runs with; `Settings.check`.
-/

set_option autoImplicit false
namespace ProxyPlane
namespace App

/-- Why the program ends early. -/
inductive Failure
  | invalidConfig (field reason : String) (value : Option String)
  | io (operation : String)
  | telemetry (operation : String)
  | store (operation : String) (error : StoreError)
  | engine (operation : String) (error : ReloadError)
  /-- The engine could neither reload nor roll back. -/
  | engineFatal
  deriving DecidableEq, Repr

/-- A character in quotes. -/
def escapeChar (c : Char) : List Char :=
  if c = '"' || c = '\\' then ['\\', c]
  else if c = '\n' then ['\\', 'n']
  else if c = '\r' then ['\\', 'r']
  else if c = '\t' then ['\\', 't']
  else if c.toNat = 0 then ['\\', '0']
  else [c]

/-- A text in quotes. -/
def quoteText (s : String) : String := "\"" ++ String.ofList (s.toList.flatMap escapeChar) ++ "\""

namespace Failure

/-- The name of a failure. -/
def label : Failure → String
  | .invalidConfig _ _ _ => "InvalidConfig"
  | .io _ => "Io"
  | .telemetry _ => "Telemetry"
  | .store _ _ => "Store"
  | .engine _ _ => "Engine"
  | .engineFatal => "EngineFatal"

/-- What was being done. -/
def operation? : Failure → Option String
  | .io operation | .telemetry operation | .store operation _ | .engine operation _ => some operation
  | .invalidConfig _ _ _ | .engineFatal => none

/-- The wording of a failure. -/
def message : Failure → String
  | .invalidConfig _ _ _ => "invalid configuration"
  | .io _ => "io operation failed"
  | .telemetry _ => "telemetry operation failed"
  | .store _ _ => "store operation failed"
  | .engine _ _ => "engine operation failed"
  | .engineFatal => "engine failed and could not be restored"

/-- All that is known of a setting that was refused. -/
def details : Failure → String
  | .invalidConfig field reason value =>
    let shown := match value with
      | some v => "Some(" ++ quoteText v ++ ")"
      | none => "None"
    "InvalidConfig \x7b field: " ++ quoteText field ++ ", reason: " ++ quoteText reason ++ ", value: "
      ++ shown ++ " \x7d"
  | failure => failure.label

end Failure

/-- What the program runs with. -/
structure Settings where
  configDir : String
  listen : SocketAddress
  apiOnly : Bool
  timestamps : Bool
  logLevel : String
  logFormat : LogFormat
  deriving DecidableEq, Repr

/-- Checks what the command line says; `usable` tells whether the directory can be made. -/
def Settings.check (a : Arguments) (usable : Bool) : Except Failure Settings :=
  match SocketAddress.ofText? a.listen.toList with
  | none => .error (.invalidConfig "listen" "not_a_socket_address" (some a.listen))
  | some listen =>
    let level := Text.trimText a.logLevel
    if level.isEmpty then .error (.invalidConfig "log_level" "empty" none)
    else if usable then
      .ok ⟨a.configDir, listen, a.apiOnly, !a.disableTimestamp, level,
        (a.logFormat.map LogFormat.ofText).getD .json⟩
    else .error (.io "config_dir.create")

end App
end ProxyPlane
