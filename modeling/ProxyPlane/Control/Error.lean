import ProxyPlane.Config.Error
import ProxyPlane.Engine.Worker
import ProxyPlane.Store.Error
import ProxyPlane.Subscription.Fetch

/-!
# What the control plane refuses
-/

set_option autoImplicit false
namespace ProxyPlane

/-- An input that is refused before the store is asked, or an import without a result. -/
inductive Refusal
  | unknownPolicy (policy : String)
  | notASchedule
  | nothingImported
  | nothingRefreshed
  deriving DecidableEq, Repr

/-- The wording of a refusal. -/
def Refusal.message : Refusal → String
  | .unknownPolicy policy => "unknown policy '" ++ policy ++ "'"
  | .notASchedule => "invalid cron expression"
  | .nothingImported => "no any valid node can be imported"
  | .nothingRefreshed => "interrupt to update subscription: no any valid node can be imported"

/-- Why an operation fails. -/
inductive ControlError
  /-- Another operation on the engine is under way. -/
  | busy
  | notSelected (kind : SectionKind)
  | noSuchRow (entity : Entity) (id : Id)
  | compile (error : Config.CompileError)
  | reload (error : ReloadError)
  | store (error : StoreError)
  | fetch (error : FetchError)
  | refused (refusal : Refusal)
  deriving DecidableEq, Repr

namespace ControlError

/-- The wording of a failure. -/
def message : ControlError → String
  | .busy => "the last request hasn't completed"
  | .notSelected kind => "please select a " ++ kind.label
  | .noSuchRow entity _ => "no such " ++ entity.label
  | .compile error => error.message
  | .reload error => error.message
  | .store error => error.message
  | .fetch error => error.message
  | .refused refusal => refusal.message

/-- A failure of the store; a row that is not there is told apart. -/
def ofStore : StoreError → ControlError
  | .notFound entity id => .noSuchRow entity id
  | error => .store error

/-- A failure of a reload; a busy worker is a busy control plane. -/
def ofReload : ReloadError → ControlError
  | .busy => .busy
  | error => .reload error

/-- A fault in a section. -/
def ofGrammar (error : Config.GrammarError) : ControlError := .compile (.grammar error)

end ControlError
end ProxyPlane
