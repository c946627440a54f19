import ProxyPlane.Http.Message
import ProxyPlane.Text.Blank

/-!
# Routes

A path is a row of words.  A route says which words it wants and where it takes any; where several
routes fit a path, the one that names more of its first words is meant, and the table is in that
order.  Each route tells for every method it knows what a request is after.

## Main definitions

* `Method`, `Endpoint` — what can be done, and to what.
* `Segment`, `Route`, `Route.label` — the shape of a path.
* `routes`, `findRoute` — the table.
* `Route.allowed` — the methods that a route knows.
-/

set_option autoImplicit false
namespace ProxyPlane
namespace Http

/-- What a request wants done. -/
inductive Method
  | get
  | post
  | put
  | patch
  | delete
  deriving DecidableEq, Repr

/-- The name of a method. -/
def Method.label : Method → String
  | .get => "GET"
  | .post => "POST"
  | .put => "PUT"
  | .patch => "PATCH"
  | .delete => "DELETE"

/-- What a request is after. -/
inductive Endpoint
  | health
  | metrics
  | run
  | status
  | events
  | groups
  | createGroup
  | group
  | renameGroup
  | removeGroup
  | setPolicy
  | attachNodes
  | detachNodes
  | attachSubscriptions
  | detachSubscriptions
  | nodes
  | importNodes
  | removeNodes
  | tagNode
  | subscriptions
  | importSubscription
  | removeSubscriptions
  | updateSubscription
  | tagSubscription
  | setSchedule
  | sections
  | createSection
  | loadSection
  | patchSection
  | removeSection
  | selectSection
  deriving DecidableEq, Repr

/-- A place in the path of a route. -/
inductive Segment
  | word (text : String)
  /-- Any word that is not empty. -/
  | hole (name : String)
  deriving DecidableEq, Repr

/-- A path with the methods that it takes. -/
structure Route where
  pattern : List Segment
  methods : List (Method × Endpoint)
  deriving DecidableEq, Repr

/-- How a place in a path is written. -/
def Segment.label : Segment → String
  | .word text => text
  | .hole name => "\x7b" ++ name ++ "\x7d"

namespace Route

/-- How the path of a route is written. -/
def label (r : Route) : String := String.join (r.pattern.map fun s => "/" ++ s.label)

/-- The words in the places that take any, if the path is of that shape. -/
def fit : List Segment → List (List Char) → Option (List (List Char))
  | [], [] => some []
  | .word text :: pattern, w :: path => if text.toList = w then fit pattern path else none
  | .hole _ :: pattern, w :: path => if w = [] then none else (fit pattern path).map (w :: ·)
  | _, _ => none

/-- What a method is after.  The headers of an answer are asked for like the answer itself. -/
def endpoint? (r : Route) (method : String) : Option Endpoint :=
  let named := if method = "HEAD" then "GET" else method
  (r.methods.find? fun m => m.1.label == named).map (·.2)

/-- The methods that a route knows, in their order. -/
def allowed (r : Route) : String :=
  String.intercalate "," (r.methods.map fun m => if m.1 = .get then "GET,HEAD" else m.1.label)

end Route

/-- All routes. -/
def routes : List Route :=
  let v1 := Segment.word "v1"
  let id := Segment.hole "id"
  let kind := Segment.hole "kind"
  [⟨[.word "health"], [(.get, .health)]⟩,
    ⟨[.word "metrics"], [(.get, .metrics)]⟩,
    ⟨[v1, .word "run"], [(.post, .run)]⟩,
    ⟨[v1, .word "status"], [(.get, .status)]⟩,
    ⟨[v1, .word "events"], [(.get, .events)]⟩,
    ⟨[v1, .word "groups"], [(.get, .groups), (.post, .createGroup)]⟩,
    ⟨[v1, .word "groups", id], [(.get, .group), (.patch, .renameGroup), (.delete, .removeGroup)]⟩,
    ⟨[v1, .word "groups", id, .word "policy"], [(.put, .setPolicy)]⟩,
    ⟨[v1, .word "groups", id, .word "nodes"], [(.post, .attachNodes), (.delete, .detachNodes)]⟩,
    ⟨[v1, .word "groups", id, .word "subscriptions"],
      [(.post, .attachSubscriptions), (.delete, .detachSubscriptions)]⟩,
    ⟨[v1, .word "nodes"], [(.get, .nodes), (.post, .importNodes), (.delete, .removeNodes)]⟩,
    ⟨[v1, .word "nodes", id, .word "tag"], [(.put, .tagNode)]⟩,
    ⟨[v1, .word "subscriptions"],
      [(.get, .subscriptions), (.post, .importSubscription), (.delete, .removeSubscriptions)]⟩,
    ⟨[v1, .word "subscriptions", id, .word "update"], [(.post, .updateSubscription)]⟩,
    ⟨[v1, .word "subscriptions", id, .word "tag"], [(.put, .tagSubscription)]⟩,
    ⟨[v1, .word "subscriptions", id, .word "schedule"], [(.put, .setSchedule)]⟩,
    ⟨[v1, kind], [(.get, .sections), (.post, .createSection)]⟩,
    ⟨[v1, kind, id],
      [(.get, .loadSection), (.patch, .patchSection), (.delete, .removeSection)]⟩,
    ⟨[v1, kind, id, .word "select"], [(.post, .selectSection)]⟩]

/-- The words of a path. -/
def pathWords : List Char → Option (List (List Char))
  | '/' :: rest => some (Text.splitOn (· == '/') rest)
  | _ => none

/-- The route of a path, and the words in the places that take any. -/
def findRoute (path : List Char) : Option (Route × List (List Char)) :=
  (pathWords path).bind fun words => routes.findSome? fun r => (Route.fit r.pattern words).map (r, ·)

end Http
end ProxyPlane
