import ProxyPlane.Link
import ProxyPlane.Store.Row

/-!
# What the store refuses

## Main definitions

* `Entity`, `Field`, `Reason`, `StoreError` — the causes, and `StoreError.message`.
* `checkIdentifier`, `checkRemarks`, `checkLink` — the rules that values have to obey.
-/

set_option autoImplicit false
namespace ProxyPlane

/-- What a row is a row of. -/
inductive Entity
  | sectionOf (kind : SectionKind)
  | node
  | subscription
  | group
  | tag
  deriving DecidableEq, Repr

/-- The name of an entity. -/
def Entity.label : Entity → String
  | .sectionOf kind => kind.label
  | .node => "node"
  | .subscription => "subscription"
  | .group => "group"
  | .tag => "tag"

/-- A value that has to obey a rule. -/
inductive Field
  | name
  | tag
  | remarks
  | link
  deriving DecidableEq, Repr

/-- The name of such a value. -/
def Field.label : Field → String
  | .name => "name"
  | .tag => "tag"
  | .remarks => "remarks"
  | .link => "link"

/-- Why a value is refused. -/
inductive Reason
  | notIdentifier
  | structural
  | link (problem : LinkProblem)
  deriving DecidableEq, Repr

/-- The wording of such a refusal. -/
def Reason.message : Reason → String
  | .notIdentifier => "not a valid identifier"
  | .structural => "contains ':' or '''"
  | .link problem => problem.message

/-- What the store refuses, or why it fails. -/
inductive StoreError
  | notFound (entity : Entity) (id : Id)
  | alreadyExists (entity : Entity) (value : String)
  | invalid (field : Field) (reason : Reason) (value : String)
  /-- The directory cannot be used. -/
  | directory (operation : String)
  /-- A statement fails: the store is closed, its file is none, or a reference leads nowhere. -/
  | database (operation : String)
  /-- The tables cannot be set up. -/
  | setup
  deriving DecidableEq, Repr

/-- The wording of an error. -/
def StoreError.message : StoreError → String
  | .notFound entity _ => "no such " ++ entity.label
  | .alreadyExists entity _ => entity.label ++ " already exists"
  | .invalid field reason _ => "invalid " ++ field.label ++ ": " ++ reason.message
  | .directory _ => "store io failed"
  | .database _ => "store query failed"
  | .setup => "store migration failed"

/-- Whether an identifier may begin with a character. -/
def beginsIdentifier (c : Char) : Bool := c.isAlpha || c == '_'

/-- Whether a character may stand in an identifier. -/
def inIdentifier (c : Char) : Bool :=
  c.isAlphanum || "-_/\\^*+.=@$!#%".toList.contains c

/-- Whether a text is an identifier. -/
def isIdentifier : List Char → Bool
  | [] => false
  | c :: rest => beginsIdentifier c && rest.all inIdentifier

/-- A value that has to be an identifier of the configuration language. -/
def checkIdentifier (field : Field) (value : String) : Except StoreError Unit :=
  if isIdentifier value.toList then .ok () else .error (.invalid field .notIdentifier value)

/-- A free text that is not empty and holds neither colons nor single quotes. -/
def checkRemarks (field : Field) (value : String) : Except StoreError Unit :=
  if !value.isEmpty && value.toList.all (fun c => c != ':' && c != '\'') then .ok ()
  else .error (.invalid field .structural value)

/-- A link has to name a scheme. -/
def checkLink (link : String) : Except StoreError Unit :=
  if hasScheme link.toList then .ok () else .error (.invalid .link (.link .noScheme) link)

/-- The endpoint of a link. -/
def readLink (link : String) : Except StoreError Endpoint :=
  match Endpoint.ofLink link with
  | .ok endpoint => .ok endpoint
  | .error problem => .error (.invalid .link (.link problem) link)

end ProxyPlane
