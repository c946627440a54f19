import ProxyPlane.Config.Error
import ProxyPlane.Config.Statement

/-!
# Reading statements

A reader for each kind of phrase takes tokens from the front of a list and says what is left; the
type of its answer records that this is less than it was given.  A refusal carries the tokens from
the offending one on, so that its place is that of the first of them, or the end of the source.

## Main definitions

* `readScalar`, `readArguments`, `readCall`, `readChain`, `readRule`, `readValue` — the phrases.
* `readStatements` — statements up to the end of the tokens, or up to a closing brace.
* `parseSection` — the statements of a section, written with or without the block around them.
-/

set_option autoImplicit false
namespace ProxyPlane
namespace Config

/-- A refusal: the tokens from the offending one on, and what is wrong with it. -/
structure Refusal where
  rest : List Token
  cause : Option Expected

/-- A refusal because something else was looked for. -/
def expected {α : Type} (what : Expected) (rest : List Token) : Except Refusal α :=
  .error ⟨rest, some what⟩

/-- Tokens that are left of `tokens` after at least one of them was taken. -/
abbrev Less (tokens : List Token) := { rest : List Token // rest.length < tokens.length }

/-- What a reader makes of `tokens`: a phrase and the tokens after it, or a refusal. -/
abbrev Reading (α : Type) (tokens : List Token) := Except Refusal (α × Less tokens)

/-- A word or a quoted text. -/
def readScalar : (tokens : List Token) → Reading Scalar tokens
  | ⟨.word text, _⟩ :: rest => .ok (.bare text, ⟨rest, Nat.lt_succ_self _⟩)
  | ⟨.quoted text, _⟩ :: rest => .ok (.inQuotes text, ⟨rest, Nat.lt_succ_self _⟩)
  | tokens => expected .value tokens

/-- `value`, or `key: value`. -/
def readArgument (tokens : List Token) : Reading Argument tokens := do
  let (first, ⟨rest, h⟩) ← readScalar tokens
  match rest, h with
  | ⟨.colon, _⟩ :: more, h =>
    let (value, ⟨rest, h'⟩) ← readScalar more
    return (⟨some first.text, value⟩, ⟨rest, by simp only [List.length_cons] at h; omega⟩)
  | rest, h => return (⟨none, first⟩, ⟨rest, h⟩)

/-- Arguments separated by commas, and the parenthesis that closes them. -/
def readArguments (tokens : List Token) : Reading (List Argument) tokens := do
  let (first, ⟨rest, h⟩) ← readArgument tokens
  match rest, h with
  | ⟨.comma, _⟩ :: more, h =>
    have : more.length < tokens.length := by simp only [List.length_cons] at h; omega
    let (others, ⟨rest, h'⟩) ← readArguments more
    return (first :: others, ⟨rest, by omega⟩)
  | ⟨.closeParen, _⟩ :: more, h =>
    return ([first], ⟨more, by simp only [List.length_cons] at h; omega⟩)
  | rest, _ => expected .commaOrCloseParen rest
termination_by tokens.length

/-- A name and its arguments.  The parentheses may be left out unless they are `required`. -/
def readNamed (negated required : Bool) : (tokens : List Token) → Reading Call tokens
  | ⟨.word name, _⟩ :: ⟨.openParen, _⟩ :: ⟨.closeParen, _⟩ :: rest =>
    .ok (⟨name, negated, []⟩, ⟨rest, by simp only [List.length_cons]; omega⟩)
  | ⟨.word name, _⟩ :: ⟨.openParen, _⟩ :: more => do
    let (arguments, ⟨rest, h⟩) ← readArguments more
    return (⟨name, negated, arguments⟩, ⟨rest, by simp only [List.length_cons]; omega⟩)
  | ⟨.word name, _⟩ :: rest =>
    if required then expected .openParen rest
    else .ok (⟨name, negated, []⟩, ⟨rest, Nat.lt_succ_self _⟩)
  | tokens => expected .callName tokens

/-- A call, perhaps negated. -/
def readCall (required : Bool) : (tokens : List Token) → Reading Call tokens
  | ⟨.negation, _⟩ :: more => do
    let (call, ⟨rest, h⟩) ← readNamed true required more
    return (call, ⟨rest, Nat.lt_succ_of_lt h⟩)
  | tokens => readNamed false required tokens

/-- Calls joined by `&&`. -/
def readChain (tokens : List Token) : Reading (List Call) tokens := do
  let (first, ⟨rest, h⟩) ← readCall true tokens
  match rest, h with
  | ⟨.conjunction, _⟩ :: more, h =>
    have : more.length < tokens.length := by simp only [List.length_cons] at h; omega
    let (others, ⟨rest, h'⟩) ← readChain more
    return (first :: others, ⟨rest, by omega⟩)
  | rest, h => return ([first], ⟨rest, h⟩)
termination_by tokens.length

/-- `conditions -> outbound`. -/
def readRule (tokens : List Token) : Reading Rule tokens := do
  let (conditions, ⟨rest, h⟩) ← readChain tokens
  match rest, h with
  | ⟨.arrow, _⟩ :: more, h =>
    let (outbound, ⟨rest, h'⟩) ← readCall false more
    if outbound.negated then .error ⟨rest, none⟩
    else return (⟨conditions, outbound⟩, ⟨rest, by simp only [List.length_cons] at h; omega⟩)
  | rest, _ => expected .arrow rest

/-- Whether a value that begins here is a chain of calls. -/
def beginsCall : List Token → Bool
  | ⟨.negation, _⟩ :: _ => true
  | ⟨.word _, _⟩ :: ⟨.openParen, _⟩ :: _ => true
  | _ => false

/-- A literal or a chain of calls. -/
def readValue (tokens : List Token) : Reading Value tokens :=
  if beginsCall tokens then do
    let (chain, rest) ← readChain tokens
    return (.calls chain, rest)
  else do
    let (scalar, rest) ← readScalar tokens
    return (.scalar scalar, rest)

/-- Statements up to the end of the tokens or, when `nested`, up to and with a closing brace. -/
def readStatements (nested : Bool) (tokens : List Token) :
    Except Refusal (List Statement × { rest : List Token // rest.length ≤ tokens.length }) :=
  match tokens with
  | [] => if nested then expected .closeBrace [] else .ok ([], ⟨[], Nat.le_refl _⟩)
  | ⟨.closeBrace, p⟩ :: rest =>
    if nested then .ok ([], ⟨rest, Nat.le_succ _⟩)
    else expected .statement (⟨.closeBrace, p⟩ :: rest)
  | ⟨.semicolon, _⟩ :: more => do
    let (statements, ⟨rest, h⟩) ← readStatements nested more
    return (statements, ⟨rest, Nat.le_succ_of_le h⟩)
  | ⟨.word key, _⟩ :: ⟨.colon, _⟩ :: more => do
    let (value, ⟨more', h⟩) ← readValue more
    let (statements, ⟨rest, h'⟩) ← readStatements nested more'
    return (.assignment key value :: statements,
      ⟨rest, by simp only [List.length_cons]; omega⟩)
  | ⟨.word name, _⟩ :: ⟨.openBrace, _⟩ :: more => do
    let (body, ⟨more', h⟩) ← readStatements true more
    let (statements, ⟨rest, h'⟩) ← readStatements nested more'
    return (.block name body :: statements, ⟨rest, by simp only [List.length_cons]; omega⟩)
  | ⟨.word name, p⟩ :: more => do
    let (rule, ⟨more', h⟩) ← readRule (⟨.word name, p⟩ :: more)
    let (statements, ⟨rest, h'⟩) ← readStatements nested more'
    return (.rule rule :: statements, ⟨rest, by omega⟩)
  | ⟨.negation, p⟩ :: more => do
    let (rule, ⟨more', h⟩) ← readRule (⟨.negation, p⟩ :: more)
    let (statements, ⟨rest, h'⟩) ← readStatements nested more'
    return (.rule rule :: statements, ⟨rest, by omega⟩)
  | tokens => expected .statement tokens
termination_by tokens.length
decreasing_by all_goals (simp only [List.length_cons] at *; omega)

/-- The problem a refusal stands for. -/
def Refusal.problem (refusal : Refusal) : Problem :=
  match refusal.cause with
  | some what => .unexpected what (refusal.rest.head?.map Token.lexeme)
  | none => .negatedOutbound

/-- The place of a refusal: that of the offending token, or the end of the source. -/
def Refusal.position (refusal : Refusal) (finish : Position) : Position :=
  (refusal.rest.head?.map Token.position).getD finish

/-- The statements of a text. -/
def parse (kind : SectionKind) (source : String) : Except GrammarError (List Statement) :=
  match tokenize source with
  | .error (position, problem) => .error ⟨kind, position, .lexical problem⟩
  | .ok stream =>
    match readStatements false stream.tokens with
    | .error refusal => .error ⟨kind, refusal.position stream.finish, refusal.problem⟩
    | .ok (statements, _) => .ok statements

/-- The statements of a section.  A text that is one block with the section's name stands for the
statements inside it. -/
def unwrap (kind : SectionKind) : List Statement → List Statement
  | [.block name body] => if name = kind.blockName then body else [.block name body]
  | statements => statements

/-- The statements of a section, written with or without the block around them. -/
def parseSection (kind : SectionKind) (source : String) : Except GrammarError (List Statement) :=
  (parse kind source).map (unwrap kind)

end Config
end ProxyPlane
