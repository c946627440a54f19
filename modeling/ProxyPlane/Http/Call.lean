import ProxyPlane.Http.MediaType
import ProxyPlane.Http.Route
import ProxyPlane.Json.Shape
import ProxyPlane.Store.Node
import ProxyPlane.Text.Percent

/-!
# Calls

A request that is understood: its path names rows, and its content has the shape that its endpoint
asks for.  The path is understood first, then the type of the content, then the content.

## Main definitions

* `Call` — what is to be done, with everything that it takes.
* `Rejection` — why a request is not understood.
* `Request.json` — the content of a request as a value of a shape.
* `Endpoint.call` — what a request says.
-/

set_option autoImplicit false
namespace ProxyPlane
namespace Http

open Json (Shape Fields)

/-- What is to be done. -/
inductive Call
  | health
  | metrics
  | run (dry : Bool)
  | status
  /-- Watch the bus, from after an event on. -/
  | events (since : Option Nat)
  | groups
  | createGroup (name policy : String) (params : List PolicyParam)
  | group (id : Id)
  | renameGroup (id : Id) (name : String)
  | removeGroup (id : Id)
  | setPolicy (id : Id) (policy : String) (params : List PolicyParam)
  | attachNodes (id : Id) (nodes : List Id)
  | detachNodes (id : Id) (nodes : List Id)
  | attachSubscriptions (id : Id) (subscriptions : List Id)
  | detachSubscriptions (id : Id) (subscriptions : List Id)
  | nodes
  | importNodes (nodes : List NewNode) (abort : Bool)
  | removeNodes (ids : List Id)
  | tagNode (id : Id) (tag : String)
  | subscriptions
  | importSubscription (link : String) (tag : Option String)
  | removeSubscriptions (ids : List Id)
  | updateSubscription (id : Id)
  | tagSubscription (id : Id) (tag : String)
  | setSchedule (id : Id) (expression : Option String) (scheduled : Option Bool)
  | sections (kind : SectionKind)
  | createSection (kind : SectionKind) (name body : String)
  | loadSection (kind : SectionKind) (id : Id)
  | patchSection (kind : SectionKind) (id : Id) (name body : Option String)
  | removeSection (kind : SectionKind) (id : Id)
  | selectSection (kind : SectionKind) (id : Id)
  deriving DecidableEq, Repr

/-- Why a request is not understood. -/
inductive Rejection
  /-- The path names no row. -/
  | path
  /-- The content is not said to be JSON. -/
  | mediaType
  | tooLarge
  | malformed
  /-- The content is JSON of another shape. -/
  | mismatch
  deriving DecidableEq, Repr

/-- The status of a rejection. -/
def Rejection.status : Rejection → Nat
  | .path => 400
  | .mediaType => 415
  | .tooLarge => 413
  | .malformed => 400
  | .mismatch => 422

/-! ## The path -/

/-- A word of a path without its escapes. -/
def plainWord (word : List Char) : Except Rejection String :=
  match Percent.decode? word with
  | some text => .ok (String.ofList text)
  | none => .error .path

/-- An identifier in a path. -/
def readId (word : String) : Except Rejection Id :=
  match Text.readInt? word.toList with
  | some id => .ok id
  | none => .error .path

/-- A kind of section in a path. -/
def readKind (word : String) : Except Rejection SectionKind :=
  match SectionKind.ofLabel? word with
  | some kind => .ok kind
  | none => .error .path

/-! ## The content -/

/-- The size of the largest content that is read. -/
def contentLimit : Nat := 2 * 1024 * 1024

namespace Request

/-- The content as a value of a shape. -/
def json (r : Request) (shape : Shape) : Except Rejection shape.Value :=
  if (r.header? "content-type").any MediaType.isJson then
    if contentLimit < r.body.length then .error .tooLarge
    else
      (shape.parse r.body).mapError fun
        | .malformed => .malformed
        | .mismatch => .mismatch
  else .error .mediaType

/-- The number of the last event that an observer says it has seen. -/
def lastEvent? (r : Request) : Option Nat :=
  (r.header? "last-event-id").bind fun text => Text.readNat? Text.maxNat64 (Text.trim text.toList)

end Request

/-- Texts that have to be there. -/
def textsShape (names : List String) : Shape :=
  .record (names.foldr (fun name rest => .required name .text rest) .nil)

/-- A text that has to be there and one that may be. -/
def linkShape : Shape := .record (.required "link" .text (.defaulted "tag" (.optional .text) .nil))

/-- A list of identifiers. -/
def idsShape : Shape := .record (.required "ids" (.list .int) .nil)

/-- The parameters of a policy, which may be left out. -/
def paramsField : Fields :=
  .defaulted "policy_params"
    (.list (.record (.defaulted "key" (.optional .text) (.required "val" .text .nil)))) .nil

/-- The parameters of a policy that were read. -/
def policyParams (values : paramsField.Values) : List PolicyParam :=
  (values.1.getD []).map fun (key, value, ()) => ⟨key.join, value⟩

/-! ## Endpoints -/

namespace Endpoint

/-- What a request says to an endpoint whose path takes no words. -/
def plainCall (e : Endpoint) (r : Request) : Except Rejection Call :=
  match e with
  | .health => .ok .health
  | .metrics => .ok .metrics
  | .status => .ok .status
  | .events => .ok (.events r.lastEvent?)
  | .run => do
    let (dry, ()) ← r.json (.record (.defaulted "dry" .bool .nil))
    return .run (dry.getD false)
  | .groups => .ok .groups
  | .createGroup => do
    let (name, policy, params) ←
      r.json (.record (.required "name" .text (.required "policy" .text paramsField)))
    return .createGroup name policy (policyParams params)
  | .nodes => .ok .nodes
  | .importNodes => do
    let (items, abort, ()) ←
      r.json (.record (.required "nodes" (.list linkShape) (.defaulted "abort_on_error" .bool .nil)))
    return .importNodes (items.map fun (link, tag, ()) => ⟨link, tag.join⟩) (abort.getD false)
  | .removeNodes => return .removeNodes (← r.json idsShape).1
  | .subscriptions => .ok .subscriptions
  | .importSubscription => do
    let (link, tag, ()) ← r.json linkShape
    return .importSubscription link tag.join
  | .removeSubscriptions => return .removeSubscriptions (← r.json idsShape).1
  | _ => .error .path

/-- What a request says to an endpoint whose path names a row. -/
def rowCall (e : Endpoint) (id : Id) (r : Request) : Except Rejection Call :=
  match e with
  | .group => .ok (.group id)
  | .renameGroup => return .renameGroup id (← r.json (textsShape ["name"])).1
  | .removeGroup => .ok (.removeGroup id)
  | .setPolicy => do
    let (policy, params) ← r.json (.record (.required "policy" .text paramsField))
    return .setPolicy id policy (policyParams params)
  | .attachNodes => return .attachNodes id (← r.json idsShape).1
  | .detachNodes => return .detachNodes id (← r.json idsShape).1
  | .attachSubscriptions => return .attachSubscriptions id (← r.json idsShape).1
  | .detachSubscriptions => return .detachSubscriptions id (← r.json idsShape).1
  | .tagNode => return .tagNode id (← r.json (textsShape ["tag"])).1
  | .updateSubscription => .ok (.updateSubscription id)
  | .tagSubscription => return .tagSubscription id (← r.json (textsShape ["tag"])).1
  | .setSchedule => do
    let (expression, scheduled, ()) ← r.json (.record
      (.defaulted "cron_exp" (.optional .text) (.defaulted "cron_enable" (.optional .bool) .nil)))
    return .setSchedule id expression.join scheduled.join
  | _ => .error .path

/-- What a request says to an endpoint whose path names a kind of section. -/
def kindCall (e : Endpoint) (kind : SectionKind) (r : Request) : Except Rejection Call :=
  match e with
  | .sections => .ok (.sections kind)
  | .createSection => do
    let (name, body, ()) ← r.json (textsShape ["name", "body"])
    return .createSection kind name body
  | _ => .error .path

/-- What a request says to an endpoint whose path names a section. -/
def sectionCall (e : Endpoint) (kind : SectionKind) (id : Id) (r : Request) : Except Rejection Call :=
  match e with
  | .loadSection => .ok (.loadSection kind id)
  | .patchSection => do
    let (name, body, ()) ← r.json (.record
      (.defaulted "name" (.optional .text) (.defaulted "body" (.optional .text) .nil)))
    return .patchSection kind id name.join body.join
  | .removeSection => .ok (.removeSection kind id)
  | .selectSection => .ok (.selectSection kind id)
  | _ => .error .path

/-- Whether the word that a path takes is a kind of section. -/
def isOfKind (e : Endpoint) : Bool := e matches .sections | .createSection

/-- What a request says to an endpoint, with the words that its path takes. -/
def call (e : Endpoint) (words : List (List Char)) (r : Request) : Except Rejection Call := do
  match ← words.mapM plainWord with
  | [] => e.plainCall r
  | [word] => if e.isOfKind then e.kindCall (← readKind word) r else e.rowCall (← readId word) r
  | [kind, id] => e.sectionCall (← readKind kind) (← readId id) r
  | _ => .error .path

end Endpoint
end Http
end ProxyPlane
