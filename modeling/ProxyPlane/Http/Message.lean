import ProxyPlane.Json.Basic

/-!
# Requests and responses

Names of headers are the same in whatever case they are written.
-/

set_option autoImplicit false
namespace ProxyPlane
namespace Http

/-- A request. -/
structure Request where
  method : String
  /-- The path, with what follows it after a question mark. -/
  target : String
  headers : List (String × String)
  body : List UInt8
  deriving DecidableEq, Repr

/-- The content of a response. -/
inductive Content
  | empty
  | json (value : Json)
  | text (s : String)
  /-- What an observer of the bus gets to see from now on. -/
  | events (observer : Nat)

/-- A response. -/
structure Response where
  status : Nat
  headers : List (String × String)
  content : Content

/-- Whether two names of headers are the same. -/
def sameName (a b : String) : Bool := a.toList.map Char.toLower == b.toList.map Char.toLower

namespace Request

/-- The first header with a name. -/
def header? (r : Request) (name : String) : Option String :=
  (r.headers.find? fun h => sameName h.1 name).map (·.2)

/-- The path alone. -/
def path (r : Request) : List Char := r.target.toList.takeWhile fun c => c != '?' && c != '#'

end Request

namespace Response

/-- A response without content. -/
def bare (status : Nat) (headers : List (String × String)) : Response := ⟨status, headers, .empty⟩

/-- A response with content of a type. -/
def typed (status : Nat) (type : String) (content : Content) : Response :=
  ⟨status, [("content-type", type)], content⟩

/-- A JSON document. -/
def json (value : Json) : Response := typed 200 "application/json" (.json value)

/-- A JSON document that shows what was made. -/
def created (value : Json) : Response := typed 201 "application/json" (.json value)

/-- A header beside those that are there. -/
def withHeader (r : Response) (name value : String) : Response :=
  { r with headers := r.headers ++ [(name, value)] }

/-- The headers alone. -/
def withoutContent (r : Response) : Response := { r with content := .empty }

end Response
end Http
end ProxyPlane
