import ProxyPlane.Control.Error
import ProxyPlane.Http.Message

/-!
# Problems

What goes wrong is answered with a document that names a class of problems, and says in a sentence
what is the matter.
-/

set_option autoImplicit false
namespace ProxyPlane
namespace Http

/-- The classes of problems. -/
inductive Problem
  | internal
  | badRequest
  | conflict
  | busy
  | invalidConfig
  | rejectedReload
  | notFound
  | unfetched
  | unavailable
  deriving DecidableEq, Repr

namespace Problem

/-- The last word of the address of a class. -/
def slug : Problem → String
  | .internal => "internal"
  | .badRequest => "bad-request"
  | .conflict => "conflict"
  | .busy => "busy"
  | .invalidConfig => "config-invalid"
  | .rejectedReload => "reload-rejected"
  | .notFound => "not-found"
  | .unfetched => "upstream"
  | .unavailable => "service-unavailable"

/-- The title of a class. -/
def title : Problem → String
  | .internal => "internal server error"
  | .badRequest => "bad request"
  | .conflict => "conflict"
  | .busy => "request in flight"
  | .invalidConfig => "configuration invalid"
  | .rejectedReload => "engine rejected configuration"
  | .notFound => "resource not found"
  | .unfetched => "subscription fetch failed"
  | .unavailable => "service unavailable"

/-- The status of a class. -/
def status : Problem → Nat
  | .internal => 500
  | .badRequest => 400
  | .conflict => 409
  | .busy => 409
  | .invalidConfig => 422
  | .rejectedReload => 422
  | .notFound => 404
  | .unfetched => 502
  | .unavailable => 503

/-- The document of a problem. -/
def response (p : Problem) (detail : String) : Response :=
  .typed p.status "application/problem+json" (.json (.object
    [("type", .string ("https://vane.dev/problems/" ++ p.slug)), ("title", .string p.title),
      ("status", .nat p.status), ("detail", .string detail)]))

/-- The class of a failure of the worker. -/
def ofReload : ReloadError → Problem
  | .rejected _ => .rejectedReload
  | .busy => .busy
  | .closed => .unavailable
  | .fatal _ | .start _ => .internal

/-- The class of a failure of the store. -/
def ofStore : StoreError → Problem
  | .alreadyExists _ _ => .conflict
  | .invalid _ _ _ => .badRequest
  | .notFound _ _ => .notFound
  | .directory _ | .database _ | .setup => .internal

/-- The class of a failure. -/
def ofError : ControlError → Problem
  | .busy => .busy
  | .notSelected _ | .compile _ => .invalidConfig
  | .noSuchRow _ _ => .notFound
  | .refused _ => .badRequest
  | .fetch _ => .unfetched
  | .reload error => ofReload error
  | .store error => ofStore error

end Problem

/-- The document of a failure. -/
def Response.ofError (error : ControlError) : Response := (Problem.ofError error).response error.message

end Http
end ProxyPlane
