import ProxyPlane.Net.Status
import ProxyPlane.Subscription.Body
import ProxyPlane.Url.Parser

/-!
# Fetching subscriptions

The links of a subscription come from the body of a response.  Responses are known by the exact link
that was asked for; there is no network, so where none is known the request fails before anything
answers.

## Main definitions

* `FetchError`, `FetchError.message` — why fetching fails.
* `Response`, `Remote` — the responses that are known.
* `Remote.links` — the links of a subscription.
-/

set_option autoImplicit false
namespace ProxyPlane

/-- Why a request fails before there is a response. -/
inductive RequestProblem
  /-- The link is no absolute address. -/
  | notAbsolute
  /-- The address cannot be asked: its scheme is another one, or it names no host. -/
  | notAskable (address : String)
  /-- Nothing answers. -/
  | unanswered (address : String)
  deriving DecidableEq, Repr

/-- The wording of such a failure. -/
def RequestProblem.message : RequestProblem → String
  | .notAbsolute => "builder error"
  | .notAskable address => "builder error for url (" ++ address ++ ")"
  | .unanswered address => "error sending request for url (" ++ address ++ ")"

/-- Why a subscription cannot be fetched. -/
inductive FetchError
  | request (link : String) (problem : RequestProblem)
  | status (link : String) (code : Nat)
  /-- The body holds no links. -/
  | empty (link : String)
  deriving DecidableEq, Repr

/-- The wording of a failure. -/
def FetchError.message : FetchError → String
  | .request _ problem => "failed to fetch link: " ++ problem.message
  | .status _ code => "failed to fetch link: " ++ statusText code
  | .empty _ => "fetched but no any node was found"

/-- A response. -/
structure Response where
  status : Nat
  body : List UInt8
  deriving DecidableEq, Repr

namespace Url

/-- An address as it is asked: without user and password, unless they are no text. -/
def withoutUser (u : Url) : Url :=
  match Percent.decode? u.user with
  | none => u
  | some user =>
    if user.isEmpty && (u.password.isEmpty || (Percent.decode? u.password).isNone) then u
    else { u with user := [], password := [] }

/-- Whether a host can stand in a request. -/
def hasPlainHost (u : Url) : Bool :=
  match u.host with
  | some (.name text) => !text.any fun c => "\"\x60\x7b\x7d".toList.contains c
  | some _ => true
  | none => false

end Url

/-- What comes of asking for a link where nothing answers. -/
def unansweredRequest (link : String) : RequestProblem :=
  match Url.parse? link with
  | none => .notAbsolute
  | some url =>
    if url.host.isNone then .notAskable url.render
    else
      let asked := url.withoutUser
      if (url.scheme == "http" || url.scheme == "https") && url.hasPlainHost then .unanswered asked.render
      else .notAskable asked.render

/-- The responses that are known, by link. -/
abbrev Remote := List (String × Response)

namespace Remote

/-- Replaces what is known about a link. -/
def put (r : Remote) (link : String) (response : Option Response) : Remote :=
  let others := r.filter fun entry => entry.1 != link
  match response with
  | some response => (link, response) :: others
  | none => others

/-- The links that a subscription lists; only a response with status 200 lists any. -/
def links (r : Remote) (link : String) : Except FetchError (List String) :=
  match r.lookup link with
  | none => .error (.request link (unansweredRequest link))
  | some response =>
    if response.status != 200 then .error (.status link response.status)
    else
      match linksOfBody response.body with
      | [] => .error (.empty link)
      | links => .ok links

end Remote
end ProxyPlane
