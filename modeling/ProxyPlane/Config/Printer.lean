import ProxyPlane.Config.Statement
import ProxyPlane.Config.Token

/-!
# Writing statements

Every phrase as text.  A literal is written bare when it was bare and a bare reading gives it back;
otherwise it stands in single quotes, or in double quotes when it holds a single one.  Statements
take a line each and a nested block is indented by four more columns.
-/

set_option autoImplicit false
namespace ProxyPlane
namespace Config

open Text (isBlank)

/-- Whether the characters `a` and `b` stand next to each other in a text. -/
def hasPair (a b : Char) : List Char → Bool
  | x :: y :: rest => (x == a && y == b) || hasPair a b (y :: rest)
  | _ => false

/-- Whether a literal cannot be written bare. -/
def needsQuotes (text : List Char) : Bool :=
  text.isEmpty || text.head? == some '!' || text.head? == some '#' || hasPair '-' '>' text
    || hasPair '&' '&' text || text.any fun c => isBlank c || isDelimiter c

/-- The quote for a text: double when the text holds a single one. -/
def quoteFor (text : String) : String :=
  if text.toList.contains '\'' then "\"" else "'"

/-- A literal as text. -/
def Scalar.render (s : Scalar) : String :=
  if !s.quoted && !needsQuotes s.text.toList then s.text
  else quoteFor s.text ++ s.text ++ quoteFor s.text

/-- An argument as text. -/
def Argument.render (a : Argument) : String :=
  match a.key with
  | some key => (Scalar.bare key).render ++ ": " ++ a.value.render
  | none => a.value.render

/-- A call as text, always with parentheses. -/
def Call.render (c : Call) : String :=
  (if c.negated then "!" else "") ++ c.name ++ "("
    ++ String.intercalate ", " (c.arguments.map Argument.render) ++ ")"

/-- A chain of calls as text. -/
def renderChain (chain : List Call) : String :=
  String.intercalate " && " (chain.map Call.render)

/-- An outbound or a policy as text: without arguments the name alone. -/
def Call.renderTarget (c : Call) : String :=
  if c.arguments.isEmpty && !c.negated then c.name else c.render

/-- A value as text. -/
def Value.render : Value → String
  | .scalar s => s.render
  | .calls chain => renderChain chain

/-- A rule as text. -/
def Rule.render (r : Rule) : String :=
  renderChain r.conditions ++ " -> " ++ r.outbound.renderTarget

/-- The blanks before a line inside `depth` blocks. -/
def indent (depth : Nat) : String :=
  String.ofList (List.replicate (4 * depth) ' ')

mutual
/-- The lines of a statement inside `depth` blocks. -/
def Statement.render (depth : Nat) : Statement → String
  | .assignment key value => indent depth ++ key ++ ": " ++ value.render ++ "\n"
  | .rule rule => indent depth ++ rule.render ++ "\n"
  | .block name body =>
    indent depth ++ name ++ " \x7b\n" ++ renderStatements (depth + 1) body ++ indent depth ++ "\x7d\n"

/-- The lines of statements inside `depth` blocks. -/
def renderStatements (depth : Nat) : List Statement → String
  | [] => ""
  | s :: rest => s.render depth ++ renderStatements depth rest
end

end Config
end ProxyPlane
