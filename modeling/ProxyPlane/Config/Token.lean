import ProxyPlane.Text.Blank

/-!
# Tokens of the configuration language

Blanks separate tokens and carry no other meaning, and `#` at the start of a token begins a comment
that ends with its line.  A word runs up to the next blank, delimiter, `->` or `&&`; quoted text
runs up to the next quote of the same kind and knows no escapes.

## Main definitions

* `Position`, `Position.after` — line and column, both counted from one.
* `Lexeme`, `Token` — the tokens and where each begins.
* `tokenize` — the tokens of a source, and where it ends.
* `splitWord`, `splitQuoted` — the two kinds of token of any length.
-/

set_option autoImplicit false
namespace ProxyPlane
namespace Config

open Text (isBlank)

/-- A place in a source: line and column, counted from one. -/
structure Position where
  line : Nat
  column : Nat
  deriving DecidableEq, Repr

namespace Position

/-- Where a source begins. -/
def start : Position := ⟨1, 1⟩

/-- The place after one more character. -/
def next (p : Position) (c : Char) : Position :=
  if c = '\n' then ⟨p.line + 1, 1⟩ else ⟨p.line, p.column + 1⟩

/-- The place after some characters. -/
def after (p : Position) (s : List Char) : Position :=
  s.foldl next p

end Position

/-- The tokens. -/
inductive Lexeme
  | word (text : String)
  | quoted (text : String)
  | openBrace
  | closeBrace
  | openParen
  | closeParen
  | colon
  | comma
  | semicolon
  | conjunction
  | negation
  | arrow
  deriving DecidableEq, Repr

/-- A token and the place of its first character. -/
structure Token where
  lexeme : Lexeme
  position : Position
  deriving DecidableEq, Repr

/-- The characters that end a word wherever they stand. -/
def isDelimiter (c : Char) : Bool :=
  c == '\x7b' || c == '\x7d' || c == '(' || c == ')' || c == ':' || c == ',' || c == ';' || c == '\''
    || c == '"'

/-- Whether a word ends before these characters. -/
def endsWord : List Char → Bool
  | [] => true
  | '-' :: '>' :: _ => true
  | '&' :: '&' :: _ => true
  | c :: _ => isBlank c || isDelimiter c

/-- The longest word at the beginning, and the characters after it. -/
def splitWord : List Char → List Char × List Char
  | [] => ([], [])
  | c :: rest =>
    if endsWord (c :: rest) then ([], c :: rest)
    else (c :: (splitWord rest).1, (splitWord rest).2)

theorem splitWord_append (s : List Char) : (splitWord s).1 ++ (splitWord s).2 = s := by
  induction s with
  | nil => rfl
  | cons c rest ih =>
    unfold splitWord
    split
    · rfl
    · simpa using ih

/-- The text up to the next `quote`, and the characters after that quote. -/
def splitQuoted (quote : Char) : List Char → Option (List Char × List Char)
  | [] => none
  | c :: rest =>
    if c = quote then some ([], rest)
    else (splitQuoted quote rest).map fun (text, rest) => (c :: text, rest)

theorem length_splitQuoted_lt {quote : Char} {s text rest : List Char}
    (h : splitQuoted quote s = some (text, rest)) : rest.length < s.length := by
  induction s generalizing text with
  | nil => simp [splitQuoted] at h
  | cons c s ih =>
    unfold splitQuoted at h
    split at h
    · cases h; simp
    · obtain ⟨⟨t, r⟩, hr, he⟩ := Option.map_eq_some_iff.1 h
      cases he
      exact Nat.lt_succ_of_lt (ih hr)

/-- The token that a single character makes. -/
def punctuation? : Char → Option Lexeme
  | '\x7b' => some .openBrace
  | '\x7d' => some .closeBrace
  | '(' => some .openParen
  | ')' => some .closeParen
  | ':' => some .colon
  | ',' => some .comma
  | ';' => some .semicolon
  | '!' => some .negation
  | _ => none

/-- What can be wrong with the tokens of a source. -/
inductive LexicalProblem
  /-- A token begins with `&` and no second `&` follows. -/
  | loneAmpersand
  /-- The quote that opens a text has no partner. -/
  | unterminated
  deriving DecidableEq, Repr

/-- The tokens of a source and the place where it ends. -/
structure TokenStream where
  tokens : List Token
  finish : Position
  deriving DecidableEq, Repr

/-- A stream with one more token in front. -/
def TokenStream.cons (token : Token) (stream : TokenStream) : TokenStream :=
  ⟨token :: stream.tokens, stream.finish⟩

/-- The tokens of characters that begin at `p`; a problem is reported at the token it spoils. -/
def tokenizeFrom (p : Position) (s : List Char) : Except (Position × LexicalProblem) TokenStream :=
  match s with
  | [] => .ok ⟨[], p⟩
  | '-' :: '>' :: rest => do
    return (← tokenizeFrom (p.after ['-', '>']) rest).cons ⟨.arrow, p⟩
  | '&' :: '&' :: rest => do
    return (← tokenizeFrom (p.after ['&', '&']) rest).cons ⟨.conjunction, p⟩
  | '&' :: _ => .error (p, .loneAmpersand)
  | c :: rest =>
    if isBlank c then tokenizeFrom (p.next c) rest
    else if c = '#' then
      tokenizeFrom (p.after (s.takeWhile (· != '\n'))) (rest.dropWhile (· != '\n'))
    else if c = '\'' ∨ c = '"' then
      match _h : splitQuoted c rest with
      | none => .error (p, .unterminated)
      | some (text, more) => do
        return (← tokenizeFrom (p.after (c :: text ++ [c])) more).cons
          ⟨.quoted (String.ofList text), p⟩
    else
      match punctuation? c with
      | some lexeme => do return (← tokenizeFrom (p.next c) rest).cons ⟨lexeme, p⟩
      | none => do
        let word := c :: (splitWord rest).1
        return (← tokenizeFrom (p.after word) (splitWord rest).2).cons
          ⟨.word (String.ofList word), p⟩
termination_by s.length
decreasing_by
  all_goals simp only [List.length_cons]
  · omega
  · omega
  · omega
  · exact Nat.lt_succ_of_le (List.dropWhile_suffix _).sublist.length_le
  · exact Nat.lt_succ_of_lt (length_splitQuoted_lt ‹_›)
  · omega
  · have := congrArg List.length (splitWord_append rest)
    simp only [List.length_append] at this
    omega

/-- The tokens of a source. -/
def tokenize (source : String) : Except (Position × LexicalProblem) TokenStream :=
  tokenizeFrom .start source.toList

end Config
end ProxyPlane
