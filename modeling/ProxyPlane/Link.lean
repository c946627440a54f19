import ProxyPlane.Json.Printer
import ProxyPlane.Json.Shape
import ProxyPlane.Text.Base64
import ProxyPlane.Url.Parser

/-!
# Connection links

A link says how to reach a node: `scheme://`, then a server and what is needed to talk to it.  Most
links are URLs.  A `vmess` link may hold a JSON document in Base64 instead, and an `ss` link without
`@` holds its server in Base64.

## Main definitions

* `LinkProblem` — why a link is refused.
* `Endpoint`, `Endpoint.ofLink` — the name, address and protocol that a link gives.
-/

set_option autoImplicit false
namespace ProxyPlane

/-- Why a link is refused. -/
inductive LinkProblem
  | noScheme
  | mixedQuotes
  | notUrl
  | noHost
  | notBase64
  | noServer
  deriving DecidableEq, Repr

/-- The wording of a refusal. -/
def LinkProblem.message : LinkProblem → String
  | .noScheme => "bad link format"
  | .mixedQuotes => "mixes single and double quotes"
  | .notUrl => "unparsable link"
  | .noHost => "link has no host"
  | .notBase64 => "undecodable shadowsocks link"
  | .noServer => "shadowsocks link has no server"

/-- What a link says about its node. -/
structure Endpoint where
  name : String
  address : String
  protocol : String
  deriving DecidableEq, Repr

/-- The text before the first `://` and the text after it. -/
def splitLink? : List Char → Option (List Char × List Char)
  | [] => none
  | ':' :: '/' :: '/' :: rest => some ([], rest)
  | c :: rest => (splitLink? rest).map fun (scheme, body) => (c :: scheme, body)

/-- Whether a text holds `://`. -/
def hasScheme (s : List Char) : Bool := (splitLink? s).isSome

/-- The name of the protocol that a scheme stands for. -/
def protocolName (scheme : String) : String :=
  if scheme = "ss" then "shadowsocks"
  else if scheme = "ssr" then "shadowsocksr"
  else if scheme = "socks" then "socks5"
  else if scheme = "hy2" then "hysteria2"
  else scheme

/-- The text behind the escapes of a fragment, or the fragment itself when that is no text. -/
def fragmentName (fragment : List Char) : String :=
  String.ofList ((Percent.decode? fragment).getD fragment)

namespace Endpoint

/-- The text of a host as an address shows it: an address of version 6 has no brackets unless a port
follows. -/
def hostText : Host → String
  | .name text => String.ofList text
  | .ipv4 address => Ipv4.render address
  | .ipv6 pieces => Ipv6.render pieces

/-- A host with its port. -/
def addressText (host : Host) (port : Option Nat) : String :=
  match port with
  | none => hostText host
  | some p =>
    match host with
    | .ipv6 _ => "[" ++ hostText host ++ "]:" ++ toString p
    | host => hostText host ++ ":" ++ toString p

/-- The endpoint of a link that is a URL. -/
def ofUrl (link scheme : String) : Except LinkProblem Endpoint :=
  match Url.parse? link with
  | none => .error .notUrl
  | some url =>
    match url.host with
    | none => .error .noHost
    | some host =>
      .ok ⟨(url.fragment.map fragmentName).getD "", addressText host url.port, protocolName scheme⟩

/-- The document inside a `vmess` link: a name, a host and a port, each of which may be missing. -/
def vmessShape : Json.Shape :=
  .record (.defaulted "ps" .text (.defaulted "add" .text (.defaulted "port" .value .nil)))

/-- The text of a port, which may be written as a number or as a text. -/
def portText : Json → String
  | .number n => n.render
  | .string s => s
  | _ => ""

/-- The endpoint in the document of a `vmess` link, if there is one. -/
def ofVmess? (body : List Char) : Option Endpoint := do
  let bytes ← Base64.decodeAny? body
  let (name, host, port, ()) ← (vmessShape.parse bytes).toOption
  let host := host.getD ""
  let port := portText (port.getD .null)
  return ⟨name.getD "", if port.isEmpty then host else host ++ ":" ++ port, "vmess"⟩

/-- The text after the last `@`. -/
def afterAt? (s : List Char) : Option (List Char) :=
  if s.contains '@' then some (s.reverse.takeWhile (· != '@')).reverse else none

/-- The endpoint of an `ss` link whose server is in Base64. -/
def ofEncodedServer (body : List Char) : Except LinkProblem Endpoint :=
  let encoded := body.takeWhile (· != '#')
  let fragment := (body.dropWhile (· != '#')).drop 1
  match (Base64.decodeAny? encoded).bind Utf8.decode? with
  | none => .error .notBase64
  | some decoded =>
    match afterAt? decoded with
    | none => .error .noServer
    | some address => .ok ⟨fragmentName fragment, String.ofList address, protocolName "ss"⟩

/-- The endpoint that a link gives. -/
def ofLink (link : String) : Except LinkProblem Endpoint :=
  match splitLink? link.toList with
  | none => .error .noScheme
  | some (scheme, body) =>
    if link.toList.contains '\'' && link.toList.contains '"' then .error .mixedQuotes
    else
      let scheme := String.ofList (scheme.map Char.toLower)
      if scheme = "vmess" then
        match ofVmess? body with
        | some endpoint => .ok endpoint
        | none => ofUrl link scheme
      else if scheme = "ss" then
        if (body.takeWhile (· != '#')).contains '@' then ofUrl link scheme else ofEncodedServer body
      else ofUrl link scheme

end Endpoint
end ProxyPlane
