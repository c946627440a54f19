import ProxyPlane.Link

/-!
# Subscription bodies

A subscription answers with a list of links.  It is a JSON document of Shadowsocks servers, or lines
of text, which may be in Base64 as a whole.

## Main definitions

* `Server`, `Server.link` — a server of such a document, and the link it is imported as.
* `linksOfBody` — the links in a body.
-/

set_option autoImplicit false
namespace ProxyPlane

/-- A server of a document. -/
structure Server where
  host : String
  port : Nat
  password : String
  method : String
  remarks : String
  plugin : String
  pluginOptions : String
  deriving DecidableEq, Repr

namespace Server

open Json (Shape)

/-- The document: servers, each with its fields. -/
def documentShape : Shape :=
  .record (.required "servers" (.list (.record
    (.required "server" .text (.required "server_port" .nat16 (.required "password" .text
      (.required "method" .text (.defaulted "remarks" .text (.defaulted "plugin" .text
        (.defaulted "plugin_opts" .text .nil))))))))) .nil)

/-- The servers of a body that is such a document. -/
def ofDocument? (body : List UInt8) : Option (List Server) :=
  match documentShape.parse body with
  | .error _ => none
  | .ok (servers, ()) => some (servers.map fun (host, port, password, method, remarks, plugin, options, ()) =>
      ⟨host, port, password, method, remarks.getD "", plugin.getD "", options.getD ""⟩)

/-- The credentials of a server in URL-safe Base64. -/
def credentials (s : Server) : List Char :=
  Base64.encode ⟨true, true⟩ (Utf8.encode (s.method.toList ++ ':' :: s.password.toList))

/-- The host of a server inside a link. -/
def hostText (s : Server) : List Char :=
  if s.host.toList.contains ':' then '[' :: s.host.toList ++ [']'] else s.host.toList

/-- The query that names a plugin. -/
def pluginQuery (s : Server) : List Char :=
  if s.plugin.isEmpty then []
  else
    let options := if s.pluginOptions.isEmpty then [] else ';' :: s.pluginOptions.toList
    "/?plugin=".toList ++ Percent.encodeText (s.plugin.toList ++ options)

/-- The fragment that names the server. -/
def nameFragment (s : Server) : List Char :=
  if s.remarks.isEmpty then [] else '#' :: Percent.encodeText s.remarks.toList

/-- The link of a server. -/
def link (s : Server) : String :=
  String.ofList ("ss://".toList ++ s.credentials ++ '@' :: s.hostText ++ ':' :: (toString s.port).toList
    ++ s.pluginQuery ++ s.nameFragment)

end Server

/-- The lines of a text, without their ends. -/
def splitLines (s : List Char) : List (List Char) := Text.splitOn (· == '\n') s

/-- The lines that hold a link, trimmed. -/
def linksOfLines (s : List Char) : List String :=
  (((splitLines s).map Text.trim).filter hasScheme).map String.ofList

/-- The links in a body. -/
def linksOfBody (body : List UInt8) : List String :=
  match Server.ofDocument? body with
  | some servers => servers.map Server.link
  | none =>
    let text := Utf8.decodeLossy body
    linksOfLines (((Base64.decodeAny? text).bind Utf8.decode?).getD text)

end ProxyPlane
