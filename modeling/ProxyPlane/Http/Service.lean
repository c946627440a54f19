import ProxyPlane.Control.Groups
import ProxyPlane.Control.Sections
import ProxyPlane.Http.Call
import ProxyPlane.Http.Problem
import ProxyPlane.Wire.Control

/-!
# The service

A request is answered by its route, if it has one.  The answer may be read from any other site;
whoever asks beforehand whether a request would be allowed is told so whatever the path.  What goes
through a route is counted under the shape of its path, and a request that carries an identifier gets
it back.

## Main definitions

* `Call.answer` — the operation behind a call.
* `Route.respond` — what a route makes of a request.
* `respond` — the service.
-/

set_option autoImplicit false
namespace ProxyPlane
namespace Http

open Operation

/-- The name of the build. -/
def build : String := "dev"

/-- The answer of an operation that has something to show. -/
def shows {α : Type} (wire : α → Json) (op : Operation α) : Operation Response :=
  return .json (wire (← op))

/-- How many rows were affected. -/
def affected (count : Nat) : Response := .json (.object [("affected", .nat count)])

/-- Replaces the body of a section and its name, each in a transaction of its own. -/
def patchSection (kind : SectionKind) (id : Id) (name body : Option String) : Operation Response :=
  match body, name with
  | none, none => return Problem.badRequest.response "nothing to update"
  | some body, none => shows Section.wire (updateSection kind id body)
  | none, some name => shows Section.wire (renameSection kind id name)
  | some body, some name => do
    let _ ← updateSection kind id body
    shows Section.wire (renameSection kind id name)

/-- What is told of the health of the worker. -/
def healthOf (p : Plane) : Response :=
  if p.worker.state = .closed then Problem.unavailable.response "reload worker is not running"
  else .json (.object [("status", .string "ok"), ("build", .string build)])

/-- Watches the bus. -/
def watch (since : Option Nat) (p : Plane) : Response × Plane :=
  let (observer, bus) := p.worker.feed.bus.subscribe since
  (.typed 200 "text/event-stream" (.events observer), p.tell fun feed => { feed with bus })

namespace Call

/-- Does what a call says. -/
def answer : Call → Operation Response
  | .health => atomic fun p => (.ok (healthOf p), p)
  | .metrics => atomic fun p =>
    (.ok (.typed 200 "text/plain; version=0.0.4" (.text p.worker.feed.metrics.render)), p)
  | .run dry => do
    Operation.run dry
    return affected 1
  | .status => shows Status.wire Operation.status
  | .events since => atomic fun p =>
    let (response, p) := watch since p
    (.ok response, p)
  | .groups => shows (.list Group.wire) Operation.groups
  | .createGroup name policy params => return .created (← Operation.createGroup name policy params).wire
  | .group id => shows Group.wire (Operation.group id)
  | .renameGroup id name => shows Group.wire (Operation.renameGroup id name)
  | .removeGroup id => return affected (← removeGroups [id])
  | .setPolicy id policy params => shows Group.wire (Operation.setPolicy id policy params)
  | .attachNodes id ids => shows Group.wire (Operation.attachNodes id ids)
  | .detachNodes id ids => shows Group.wire (Operation.detachNodes id ids)
  | .attachSubscriptions id ids => shows Group.wire (Operation.attachSubscriptions id ids)
  | .detachSubscriptions id ids => shows Group.wire (Operation.detachSubscriptions id ids)
  | .nodes => shows (.list Node.wire) Operation.nodes
  | .importNodes items abort => shows (.list Imported.wire) (Operation.importNodes items abort)
  | .removeNodes ids => return affected (← Operation.removeNodes ids)
  | .tagNode id tag => shows Node.wire (Operation.tagNode id tag)
  | .subscriptions => shows (.list Subscription.wire) Operation.subscriptions
  | .importSubscription link tag => shows Report.wire (Operation.importSubscription link tag)
  | .removeSubscriptions ids => return affected (← Operation.removeSubscriptions ids)
  | .updateSubscription id => shows Report.wire (Operation.updateSubscription id)
  | .tagSubscription id tag => shows Subscription.wire (Operation.tagSubscription id tag)
  | .setSchedule _ none none =>
    return Problem.badRequest.response "cron_exp or cron_enable is required"
  | .setSchedule id expression scheduled =>
    shows Subscription.wire (Operation.setSchedule id expression scheduled)
  | .sections kind => shows (.list Section.wire) (Operation.sections kind)
  | .createSection kind name body => return .created (← Operation.createSection kind name body).wire
  | .loadSection kind id => shows Section.wire (Operation.loadSection kind id)
  | .patchSection kind id name body => Http.patchSection kind id name body
  | .removeSection kind id => return affected (← Operation.removeSection kind id)
  | .selectSection kind id => do
    Operation.selectSection kind id
    return affected 1

/-- The response to a call. -/
def respond (c : Call) : Routine Plane Response := do
  match ← ExceptT.run (answer c) with
  | .ok response => return response
  | .error error => return .ofError error

end Call

/-! ## Other sites -/

namespace Response

/-- A response that any site may read. -/
def shared (r : Response) : Response := r.withHeader "access-control-allow-origin" "*"

/-- What any site may ask for. -/
def preflight : Response := .bare 200
  [("access-control-allow-origin", "*"),
    ("access-control-allow-methods", "GET,POST,PUT,PATCH,DELETE,OPTIONS"),
    ("access-control-allow-headers", "content-type,x-request-id,last-event-id")]

end Response

/-! ## The whole -/

/-- What becomes of the content of a response that nobody reads: who was to watch the bus goes away. -/
def Response.discard (r : Response) (p : Plane) : Plane :=
  match r.content with
  | .events observer => p.tell fun feed => { feed with bus := feed.bus.leave observer }
  | _ => p

/-- The response to a request that is not understood. -/
def Rejection.response (r : Rejection) : Response :=
  .bare r.status [("content-type", "text/plain; charset=utf-8")]

namespace Route

/-- What a route makes of a request. -/
def answer (route : Route) (words : List (List Char)) (r : Request) : Routine Plane Response :=
  match route.endpoint? r.method with
  | none =>
    let response := if r.method = "OPTIONS" then Response.preflight else (Response.bare 405 []).shared
    return response.withHeader "allow" route.allowed
  | some endpoint => do
    let response ← match endpoint.call words r with
      | .ok call => call.respond
      | .error rejection => pure rejection.response
    if r.method = "HEAD" then
      Routine.atomic fun p => ((), response.discard p)
      return response.withoutContent.shared
    else return response.shared

/-- The same, counted, with the identifier of the request. -/
def respond (route : Route) (words : List (List Char)) (r : Request) : Routine Plane Response := do
  let response ← route.answer words r
  Routine.atomic fun (p : Plane) => ((), p.tell (·.measure (·.countRequest route.label response.status)))
  return match r.header? "x-request-id" with
    | some id => response.withHeader "x-request-id" id
    | none => response

end Route

/-- Answers a request. -/
def respond (r : Request) : Routine Plane Response :=
  match findRoute r.path with
  | some (route, words) => route.respond words r
  | none => return if r.method = "OPTIONS" then .preflight else (Response.bare 404 []).shared

end Http
end ProxyPlane
