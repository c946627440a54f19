import ProxyPlane.Config.Kind
import ProxyPlane.Config.Token

/-!
# What can be wrong with a configuration

Causes as data, and their wording in one function each.

## Main definitions

* `Expected`, `Problem`, `GrammarError` — faults in the text of one section.
* `CompileError` — the same, or a reference that the groups at hand do not satisfy.
-/

set_option autoImplicit false
namespace ProxyPlane
namespace Config

/-- What the reader was looking for. -/
inductive Expected
  | closeBrace
  | statement
  | value
  | callName
  | openParen
  | commaOrCloseParen
  | arrow
  deriving DecidableEq, Repr

/-- The wording of what was looked for. -/
def Expected.describe : Expected → String
  | .closeBrace => "'\x7d'"
  | .statement => "a statement"
  | .value => "a value"
  | .callName => "a function name"
  | .openParen => "'('"
  | .commaOrCloseParen => "',' or ')'"
  | .arrow => "'->'"

/-- The wording of a token that was found. -/
def Lexeme.describe : Lexeme → String
  | .word text => "'" ++ text ++ "'"
  | .quoted text => "string '" ++ text ++ "'"
  | .openBrace => "'\x7b'"
  | .closeBrace => "'\x7d'"
  | .openParen => "'('"
  | .closeParen => "')'"
  | .colon => "':'"
  | .comma => "','"
  | .semicolon => "';'"
  | .conjunction => "'&&'"
  | .negation => "'!'"
  | .arrow => "'->'"

/-- A fault in the text of a section. -/
inductive Problem
  /-- The text has no tokens. -/
  | lexical (problem : LexicalProblem)
  /-- The tokens do not go on as they have to; `none` stands for the end of the text. -/
  | unexpected (expected : Expected) (found : Option Lexeme)
  | negatedOutbound
  | badPort (text : String)
  | badPreference (text : String)
  | badFallback
  | noFallback
  deriving DecidableEq, Repr

/-- The wording of a fault. -/
def Problem.message : Problem → String
  | .lexical .loneAmpersand => "expected '&&'"
  | .lexical .unterminated => "unterminated string"
  | .unexpected expected found =>
    "expected " ++ expected.describe ++ ", found "
      ++ (found.map Lexeme.describe).getD "end of input"
  | .negatedOutbound => "outbound cannot be negated"
  | .badPort text => "tproxy_port must be a port number, got '" ++ text ++ "'"
  | .badPreference text => "ip_version_prefer must be 0, 4 or 6, got '" ++ text ++ "'"
  | .badFallback => "fallback must be a single outbound"
  | .noFallback => "fallback is required"

/-- A fault in a section and its place; faults of meaning have none, which line and column zero
stand for. -/
structure GrammarError where
  kind : SectionKind
  position : Position
  problem : Problem
  deriving DecidableEq, Repr

/-- A fault that concerns the meaning of a section as a whole. -/
def GrammarError.ofMeaning (kind : SectionKind) (problem : Problem) : GrammarError :=
  ⟨kind, ⟨0, 0⟩, problem⟩

/-- Why a configuration does not compile. -/
inductive CompileError
  | grammar (error : GrammarError)
  /-- The routing refers to names that are neither groups nor built in. -/
  | missingGroups (names : List String)
  /-- The routing refers to a group without nodes. -/
  | emptyGroup (group routing : String)
  deriving DecidableEq, Repr

/-- The wording of a compile error. -/
def CompileError.message : CompileError → String
  | .grammar e =>
    "bad configuration: " ++ e.kind.blockName ++ " " ++ toString e.position.line ++ ":"
      ++ toString e.position.column ++ ": " ++ e.problem.message
  | .missingGroups names =>
    "groups not defined but referenced by routing: " ++ String.intercalate ", " names
  | .emptyGroup group routing =>
    "group \"" ++ group ++ "\" has no node; it is referenced by routing \"" ++ routing ++ "\""

end Config
end ProxyPlane
