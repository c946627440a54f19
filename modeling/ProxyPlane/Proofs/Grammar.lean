import ProxyPlane.Config.Parser

/-!
# The grammar of the configuration language

The phrases as derivation trees, without regard to any reader.  The productions are

    items ::= (';' | WORD ':' value | WORD '{' items '}' | rule)*
    rule  ::= chain '->' WORD [args]
    chain ::= fn ('&&' fn)*
    fn    ::= ['!'] WORD args
    args  ::= '(' ')' | '(' param (',' param)* ')'
    param ::= scalar [':' scalar]
    value ::= chain | scalar
    scalar ::= WORD | QUOTED

A tree has a yield, the tokens it derives, and a meaning, the statements it stands for.  The meaning
forgets semicolons and empty parentheses after an outbound, so that several trees may mean the same;
the yield forgets nothing, which is what `Items.yield_injective` says.

## Main definitions

* `Separated`, `Param`, `Args`, `Fn`, `Chain`, `Rule`, `Value`, `Items` — the trees.
* `Items.yield`, `Items.statements` — what a tree derives and what it means.
* `Items.Resolved` — the two choices that need a look ahead: what a value is, and which phrase a
  parenthesis behind an outbound belongs to.
* `Items.Derives` — a tree derives some tokens.
* `Clear`, `Unambiguous` — which tokens may not follow a phrase, and that a phrase is then known
  from any text that begins with it.
-/

set_option autoImplicit false
namespace ProxyPlane
namespace Config
namespace Grammar

/-! ## Trees -/

/-- The token of a literal. -/
def lexemeOf (s : Scalar) : Lexeme :=
  if s.quoted then .quoted s.text else .word s.text

/-- `item (separator item)*`. -/
inductive Separated (α : Type)
  | one (item : α)
  | more (item : α) (others : Separated α)
  deriving DecidableEq, Repr

/-- `scalar [':' scalar]`. -/
structure Param where
  first : Scalar
  second : Option Scalar
  deriving DecidableEq, Repr

/-- `'(' ')'` or `'(' param (',' param)* ')'`. -/
inductive Args
  | empty
  | list (params : Separated Param)
  deriving DecidableEq, Repr

/-- `['!'] WORD args`. -/
structure Fn where
  negated : Bool
  name : String
  args : Args
  deriving DecidableEq, Repr

/-- `fn ('&&' fn)*`. -/
abbrev Chain := Separated Fn

/-- `chain '->' WORD [args]`. -/
structure Rule where
  conditions : Chain
  outbound : String
  args : Option Args
  deriving DecidableEq, Repr

/-- A chain or a literal. -/
inductive Value
  | chain (calls : Chain)
  | scalar (literal : Scalar)
  deriving DecidableEq, Repr

/-- Statements, and the semicolons between them. -/
inductive Items
  | nil
  | semicolon (others : Items)
  | assignment (key : String) (value : Value) (others : Items)
  | block (name : String) (body others : Items)
  | rule (rule : Rule) (others : Items)
  deriving DecidableEq, Repr

/-! ## Yields -/

variable {α : Type}

def Separated.yield (separator : Lexeme) (item : α → List Lexeme) : Separated α → List Lexeme
  | .one a => item a
  | .more a others => item a ++ separator :: others.yield separator item

def Param.yield : Param → List Lexeme
  | ⟨first, none⟩ => [lexemeOf first]
  | ⟨first, some value⟩ => [lexemeOf first, .colon, lexemeOf value]

def Args.yield : Args → List Lexeme
  | .empty => [.openParen, .closeParen]
  | .list params => .openParen :: params.yield .comma Param.yield ++ [.closeParen]

/-- The token in front of a negated function. -/
def sign (negated : Bool) : List Lexeme :=
  if negated then [.negation] else []

/-- A name and its arguments, which an outbound need not have. -/
def target (name : String) : Option Args → List Lexeme
  | none => [.word name]
  | some args => .word name :: args.yield

def Fn.yield (fn : Fn) : List Lexeme :=
  sign fn.negated ++ target fn.name (some fn.args)

def Chain.yield (chain : Chain) : List Lexeme :=
  Separated.yield .conjunction Fn.yield chain

def Rule.yield (rule : Rule) : List Lexeme :=
  Chain.yield rule.conditions ++ .arrow :: target rule.outbound rule.args

def Value.yield : Value → List Lexeme
  | .chain calls => Chain.yield calls
  | .scalar literal => [lexemeOf literal]

def Items.yield : Items → List Lexeme
  | .nil => []
  | .semicolon others => .semicolon :: others.yield
  | .assignment key value others => .word key :: .colon :: (value.yield ++ others.yield)
  | .block name body others =>
    .word name :: .openBrace :: (body.yield ++ .closeBrace :: others.yield)
  | .rule r others => r.yield ++ others.yield

/-! ## Meanings -/

def Separated.toList : Separated α → List α
  | .one a => [a]
  | .more a others => a :: others.toList

def Param.argument : Param → Argument
  | ⟨first, none⟩ => ⟨none, first⟩
  | ⟨first, some value⟩ => ⟨some first.text, value⟩

def Args.arguments : Args → List Argument
  | .empty => []
  | .list params => params.toList.map Param.argument

def Fn.call (fn : Fn) : Call := ⟨fn.name, fn.negated, fn.args.arguments⟩

def Chain.calls (chain : Chain) : List Call := chain.toList.map Fn.call

def Rule.rule (rule : Rule) : Config.Rule :=
  ⟨Chain.calls rule.conditions, ⟨rule.outbound, false, rule.args.elim [] Args.arguments⟩⟩

def Value.value : Value → Config.Value
  | .chain calls => .calls (Chain.calls calls)
  | .scalar literal => .scalar literal

def Items.statements : Items → List Statement
  | .nil => []
  | .semicolon others => others.statements
  | .assignment key value others => .assignment key value.value :: others.statements
  | .block name body others => .block name body.statements :: others.statements
  | .rule r others => .rule r.rule :: others.statements

theorem Separated.mem_yield {separator l : Lexeme} {item : α → List Lexeme}
    (phrases : Separated α) {a : α} (ha : a ∈ phrases.toList) (hl : l ∈ item a) :
    l ∈ phrases.yield separator item := by
  induction phrases with
  | one b =>
    obtain rfl : a = b := List.mem_singleton.1 ha
    exact hl
  | more b others ih =>
    rcases List.mem_cons.1 ha with rfl | ha
    · exact List.mem_append_left _ hl
    · exact List.mem_append_right _ (List.mem_cons_of_mem _ (ih ha))

/-! ## Choices that need a look ahead -/

/-- Tokens that begin with `!`, or with a word and an opening parenthesis. -/
def OpensCall : List Lexeme → Prop
  | .negation :: _ => True
  | .word _ :: .openParen :: _ => True
  | _ => False

/-- A value with these tokens behind it is a chain just when it begins as one. -/
def Value.Resolved (value : Value) (behind : List Lexeme) : Prop :=
  OpensCall (value.yield ++ behind) ↔ ∃ calls, value = .chain calls

/-- A parenthesis behind the name of an outbound belongs to the outbound. -/
def Rule.Resolved (rule : Rule) (behind : List Lexeme) : Prop :=
  rule.args = none → ∀ more, behind ≠ .openParen :: more

/-- Every value and every outbound of statements with these tokens behind them is resolved. -/
def Items.Resolved : Items → List Lexeme → Prop
  | .nil, _ => True
  | .semicolon others, behind => others.Resolved behind
  | .assignment _ value others, behind =>
    value.Resolved (others.yield ++ behind) ∧ others.Resolved behind
  | .block _ body others, behind =>
    body.Resolved (.closeBrace :: (others.yield ++ behind)) ∧ others.Resolved behind
  | .rule r others, behind => r.Resolved (others.yield ++ behind) ∧ others.Resolved behind

/-- The statements derive exactly these tokens. -/
structure Items.Derives (items : Items) (lexemes : List Lexeme) : Prop where
  yield_eq : items.yield = lexemes
  resolved : items.Resolved []

/-! ## What may follow a phrase -/

/-- The first of these tokens, if there is one, is none of the `stops`. -/
def Clear (stops lexemes : List Lexeme) : Prop :=
  ∀ l ∈ lexemes.head?, l ∉ stops

@[simp]
theorem clear_nil (stops : List Lexeme) : Clear stops [] := by
  simp [Clear]

@[simp]
theorem clear_cons (stops : List Lexeme) (l : Lexeme) (more : List Lexeme) :
    Clear stops (l :: more) ↔ l ∉ stops := by
  simp [Clear]

@[simp]
theorem clear_empty (lexemes : List Lexeme) : Clear [] lexemes := by
  simp [Clear]

theorem Clear.mono {stops stops' lexemes : List Lexeme} (h : Clear stops lexemes)
    (hs : ∀ l ∈ stops', l ∈ stops) : Clear stops' lexemes :=
  fun l hl hm => h l hl (hs l hm)

/-- A phrase, followed by none of the `stops`, is known from any text that begins with it. -/
def Unambiguous (yield : α → List Lexeme) (stops : List Lexeme) : Prop :=
  ∀ ⦃a b : α⦄ ⦃f g : List Lexeme⦄, Clear stops f → Clear stops g →
    yield a ++ f = yield b ++ g → a = b ∧ f = g

theorem lexemeOf_injective {s t : Scalar} (h : lexemeOf s = lexemeOf t) : s = t := by
  obtain ⟨text, quoted⟩ := s
  obtain ⟨text', quoted'⟩ := t
  cases quoted <;> cases quoted' <;> simp [lexemeOf] at h <;> rw [h]

/-- A literal is a word or a text and no other token. -/
theorem lexemeOf_ne {s : Scalar} {l : Lexeme} (hw : ∀ t, l ≠ .word t) (hq : ∀ t, l ≠ .quoted t) :
    lexemeOf s ≠ l := by
  unfold lexemeOf
  split
  · exact fun h => hq _ h.symm
  · exact fun h => hw _ h.symm

/-- One phrase after another with separators between them: the separator must not follow, and may
follow a single one. -/
theorem Separated.unambiguous {separator : Lexeme} {item : α → List Lexeme} {stops : List Lexeme}
    (h : Unambiguous item stops) (hs : separator ∉ stops) :
    Unambiguous (Separated.yield separator item) (separator :: stops) := by
  intro a
  induction a with
  | one a =>
    intro b f g hf hg he
    cases b with
    | one b =>
      obtain ⟨rfl, rfl⟩ := h (hf.mono (by simp +contextual)) (hg.mono (by simp +contextual)) he
      exact ⟨rfl, rfl⟩
    | more b bs =>
      rw [Separated.yield, Separated.yield, List.append_assoc, List.cons_append] at he
      obtain ⟨-, rfl⟩ := h (hf.mono (by simp +contextual)) (by simpa using hs) he
      simp at hf
  | more a as ih =>
    intro b f g hf hg he
    cases b with
    | one b =>
      rw [Separated.yield, Separated.yield, List.append_assoc, List.cons_append] at he
      obtain ⟨-, rfl⟩ := h (by simpa using hs) (hg.mono (by simp +contextual)) he
      simp at hg
    | more b bs =>
      rw [Separated.yield, Separated.yield, List.append_assoc, List.append_assoc,
        List.cons_append, List.cons_append] at he
      obtain ⟨rfl, he'⟩ := h (by simpa using hs) (by simpa using hs) he
      obtain ⟨rfl, rfl⟩ := ih hf hg (List.cons.inj he').2
      exact ⟨rfl, rfl⟩

/-! ## Every phrase is unambiguous -/

theorem Param.unambiguous : Unambiguous Param.yield [.colon] := by
  rintro ⟨s, v⟩ ⟨t, w⟩ f g hf hg he
  cases v <;> cases w <;> simp only [Param.yield, List.cons_append, List.nil_append,
    List.cons.injEq] at he
  case none.none =>
    obtain ⟨hs, rfl⟩ := he
    rw [lexemeOf_injective hs]
    exact ⟨rfl, rfl⟩
  case none.some => simp [he.2] at hf
  case some.none => simp [← he.2] at hg
  case some.some =>
    obtain ⟨hs, -, hv, rfl⟩ := he
    rw [lexemeOf_injective hs, lexemeOf_injective hv]
    exact ⟨rfl, rfl⟩

/-- A parameter begins with a literal. -/
theorem Separated.yield_params (params : Separated Param) :
    ∃ s more, params.yield .comma Param.yield = lexemeOf s :: more := by
  have param (p : Param) : ∃ s more, p.yield = lexemeOf s :: more := by
    obtain ⟨s, _ | v⟩ := p
    · exact ⟨s, [], rfl⟩
    · exact ⟨s, [.colon, lexemeOf v], rfl⟩
  cases params with
  | one p => exact param p
  | more p others =>
    obtain ⟨s, more, h⟩ := param p
    exact ⟨s, more ++ .comma :: others.yield .comma Param.yield, by simp [Separated.yield, h]⟩

theorem Args.unambiguous : Unambiguous Args.yield [] := by
  rintro (_ | ps) (_ | qs) f g - - he <;> simp only [Args.yield, List.cons_append,
    List.append_assoc, List.nil_append, List.cons.injEq, true_and] at he
  case empty.empty => exact ⟨rfl, he⟩
  case empty.list =>
    obtain ⟨s, more, h⟩ := qs.yield_params
    rw [h] at he
    exact absurd (List.cons.inj he).1.symm (lexemeOf_ne nofun nofun)
  case list.empty =>
    obtain ⟨s, more, h⟩ := ps.yield_params
    rw [h] at he
    exact absurd (List.cons.inj he).1 (lexemeOf_ne nofun nofun)
  case list.list =>
    obtain ⟨rfl, he'⟩ := Separated.unambiguous Param.unambiguous (by simp) (by simp) (by simp) he
    exact ⟨rfl, (List.cons.inj he').2⟩

theorem Fn.unambiguous : Unambiguous Fn.yield [] := by
  rintro ⟨n, t, a⟩ ⟨m, u, b⟩ f g - - he
  cases n <;> cases m <;> simp only [Fn.yield, sign, target, Bool.false_eq_true, if_true, if_false,
    List.cons_append, List.nil_append, List.cons.injEq, reduceCtorEq, false_and, true_and] at he
  all_goals
    obtain ⟨ht, he⟩ := he
    obtain ⟨rfl, rfl⟩ := Args.unambiguous (clear_empty f) (clear_empty g) he
    cases ht
    exact ⟨rfl, rfl⟩

theorem Chain.unambiguous : Unambiguous Chain.yield [.conjunction] :=
  Separated.unambiguous Fn.unambiguous (by simp)

/-- With a parenthesis not following, the name of an outbound and its arguments are known. -/
theorem target_unambiguous {o u : String} {a b : Option Args} {f g : List Lexeme}
    (hf : Clear [.openParen] f) (hg : Clear [.openParen] g)
    (he : target o a ++ f = target u b ++ g) : o = u ∧ a = b ∧ f = g := by
  have clash {args : Args} {f g : List Lexeme} (hf : Clear [.openParen] f) :
      f ≠ args.yield ++ g := by
    rintro rfl
    cases args <;> simp [Args.yield] at hf
  cases a <;> cases b <;> simp only [target, List.cons_append, List.nil_append, List.cons.injEq,
    Lexeme.word.injEq] at he <;> obtain ⟨rfl, he⟩ := he
  case none.none => exact ⟨rfl, rfl, he⟩
  case none.some b => exact absurd he (clash hf)
  case some.none a => exact absurd he.symm (clash hg)
  case some.some a b =>
    obtain ⟨rfl, rfl⟩ := Args.unambiguous (clear_empty f) (clear_empty g) he
    exact ⟨rfl, rfl, rfl⟩

theorem Rule.unambiguous : Unambiguous Rule.yield [.openParen] := by
  rintro ⟨c, o, a⟩ ⟨d, u, b⟩ f g hf hg he
  simp only [Rule.yield, List.append_assoc, List.cons_append] at he
  obtain ⟨rfl, ht⟩ := Chain.unambiguous (by simp) (by simp) he
  obtain ⟨rfl, rfl, rfl⟩ := target_unambiguous hf hg (List.cons.inj ht).2
  exact ⟨rfl, rfl⟩

/-! ## Values and the beginning of a chain -/

/-- A chain begins as one. -/
theorem Chain.opensCall (chain : Chain) (behind : List Lexeme) :
    OpensCall (Chain.yield chain ++ behind) := by
  have fn (fn : Fn) (behind : List Lexeme) : OpensCall (fn.yield ++ behind) := by
    obtain ⟨_ | _, name, _ | params⟩ := fn <;> trivial
  cases chain with
  | one f => exact fn f behind
  | more f others =>
    rw [Chain.yield, Separated.yield, List.append_assoc]
    exact fn f _

theorem Rule.opensCall (r : Rule) (behind : List Lexeme) : OpensCall (r.yield ++ behind) := by
  rw [Rule.yield, List.append_assoc]
  exact Chain.opensCall _ _

/-- A literal does not begin as a chain, unless a parenthesis follows. -/
theorem not_opensCall_lexemeOf {s : Scalar} {behind : List Lexeme}
    (h : Clear [.openParen] behind) : ¬ OpensCall (lexemeOf s :: behind) := by
  unfold lexemeOf
  split
  · exact id
  · intro hc
    match behind, h, hc with
    | .openParen :: _, h, _ => simp at h

theorem Value.resolved (value : Value) {behind : List Lexeme} (h : Clear [.openParen] behind) :
    value.Resolved behind := by
  cases value with
  | chain calls => exact ⟨fun _ => ⟨calls, rfl⟩, fun _ => Chain.opensCall calls behind⟩
  | scalar s => exact ⟨fun hc => absurd hc (not_opensCall_lexemeOf h), nofun⟩

theorem Value.unambiguous : Unambiguous Value.yield [.openParen, .conjunction] := by
  intro v w f g hf hg he
  have hf' : Clear [.openParen] f := hf.mono (by simp)
  have hg' : Clear [.openParen] g := hg.mono (by simp)
  cases v <;> cases w
  case chain.chain c d =>
    obtain ⟨rfl, rfl⟩ := Chain.unambiguous (hf.mono (by simp)) (hg.mono (by simp)) he
    exact ⟨rfl, rfl⟩
  case chain.scalar c s =>
    exact absurd (he ▸ Chain.opensCall c f) (not_opensCall_lexemeOf hg')
  case scalar.chain s c =>
    exact absurd (he ▸ Chain.opensCall c g) (not_opensCall_lexemeOf hf')
  case scalar.scalar s t =>
    obtain ⟨h, rfl⟩ := List.cons.inj he
    rw [lexemeOf_injective h]
    exact ⟨rfl, rfl⟩

/-! ## Statements -/

/-- No statement begins with a parenthesis, a colon or a conjunction. -/
theorem Items.clear (items : Items) {behind : List Lexeme}
    (h : Clear [.openParen, .conjunction] behind) :
    Clear [.openParen, .conjunction] (items.yield ++ behind) := by
  cases items with
  | nil => exact h
  | semicolon others => simp [Items.yield]
  | assignment key value others => simp [Items.yield]
  | block name body others => simp [Items.yield]
  | rule r others =>
    rw [Items.yield, List.append_assoc]
    have hc := r.opensCall (others.yield ++ behind)
    match r.yield ++ (others.yield ++ behind), hc with
    | .negation :: _, _ => simp
    | .word _ :: .openParen :: _, _ => simp

/-- The tokens behind statements: none, or a closing brace. -/
def Ends : List Lexeme → Prop
  | [] => True
  | l :: _ => l = .closeBrace

theorem ends_closeBrace (more : List Lexeme) : Ends (.closeBrace :: more) := rfl

theorem Ends.clear {lexemes : List Lexeme} (h : Ends lexemes) :
    Clear [.openParen, .conjunction] lexemes := by
  cases lexemes with
  | nil => simp
  | cons l more =>
    cases h
    simp

/-- The tokens behind one of several statements that end where they should. -/
theorem Items.clear_of_ends (items : Items) {behind : List Lexeme} (h : Ends behind) :
    Clear [.openParen, .conjunction] (items.yield ++ behind) :=
  items.clear h.clear

/-- **The look ahead decides nothing that the tokens leave open.** -/
theorem Items.resolved_of_ends (items : Items) {behind : List Lexeme} (h : Ends behind) :
    items.Resolved behind := by
  induction items generalizing behind with
  | nil => trivial
  | semicolon others ih => exact ih h
  | assignment key value others ih =>
    exact ⟨value.resolved ((others.clear_of_ends h).mono (by simp)), ih h⟩
  | block name body others ihb iho => exact ⟨ihb (ends_closeBrace _), iho h⟩
  | rule r others ih =>
    refine ⟨fun _ more hm => ?_, ih h⟩
    have := others.clear_of_ends h
    rw [hm] at this
    simp at this

/-- The productions of the statements. -/
inductive Production
  | nil
  | semicolon
  | assignment
  | block
  | rule

/-- The production that statements begin with. -/
def Items.production : Items → Production
  | .nil => .nil
  | .semicolon .. => .semicolon
  | .assignment .. => .assignment
  | .block .. => .block
  | .rule .. => .rule

/-- The production as the first two tokens tell it. -/
def productionOf : List Lexeme → Production
  | [] => .nil
  | .closeBrace :: _ => .nil
  | .semicolon :: _ => .semicolon
  | .word _ :: .colon :: _ => .assignment
  | .word _ :: .openBrace :: _ => .block
  | _ => .rule

/-- **Two tokens tell the production.** -/
theorem productionOf_yield (items : Items) {behind : List Lexeme} (h : Ends behind) :
    productionOf (items.yield ++ behind) = items.production := by
  cases items with
  | nil =>
    match behind, h with
    | [], _ => rfl
    | .closeBrace :: _, _ => rfl
  | rule r others =>
    rw [Items.yield, List.append_assoc]
    generalize hl : r.yield ++ _ = lexemes
    have hc : OpensCall lexemes := hl ▸ r.opensCall _
    match lexemes, hc with
    | .negation :: _, _ => rfl
    | .word _ :: .openParen :: _, _ => rfl
  | _ => rfl

/-- Statements that begin the same text begin with the same production. -/
theorem Items.production_eq {a b : Items} {f g : List Lexeme} (hf : Ends f) (hg : Ends g)
    (he : a.yield ++ f = b.yield ++ g) : a.production = b.production := by
  rw [← productionOf_yield a hf, he, productionOf_yield b hg]

/-- **Statements are known from any text that begins with them and ends as it should.** -/
theorem Items.yield_unambiguous (a : Items) : ∀ {b : Items} {f g : List Lexeme}, Ends f → Ends g →
    a.yield ++ f = b.yield ++ g → a = b ∧ f = g := by
  induction a with
  | nil =>
    intro b f g hf hg he
    have hp := Items.production_eq hf hg he
    cases b <;> cases hp
    exact ⟨rfl, he⟩
  | semicolon others ih =>
    intro b f g hf hg he
    have hp := Items.production_eq hf hg he
    cases b <;> cases hp
    obtain ⟨rfl, rfl⟩ := ih hf hg (List.cons.inj he).2
    exact ⟨rfl, rfl⟩
  | assignment key value others ih =>
    intro b f g hf hg he
    have hp := Items.production_eq hf hg he
    cases b <;> cases hp
    case assignment key' value' others' =>
      simp only [Items.yield, List.cons_append, List.append_assoc, List.cons.injEq,
        Lexeme.word.injEq, true_and] at he
      obtain ⟨rfl, hv⟩ := he
      obtain ⟨rfl, ho⟩ := Value.unambiguous (others.clear_of_ends hf) (others'.clear_of_ends hg) hv
      obtain ⟨rfl, rfl⟩ := ih hf hg ho
      exact ⟨rfl, rfl⟩
  | block name body others ihb iho =>
    intro b f g hf hg he
    have hp := Items.production_eq hf hg he
    cases b <;> cases hp
    case block name' body' others' =>
      simp only [Items.yield, List.cons_append, List.append_assoc, List.cons.injEq,
        Lexeme.word.injEq, true_and] at he
      obtain ⟨rfl, hb⟩ := he
      obtain ⟨rfl, ho⟩ := ihb (ends_closeBrace _) (ends_closeBrace _) hb
      obtain ⟨rfl, rfl⟩ := iho hf hg (List.cons.inj ho).2
      exact ⟨rfl, rfl⟩
  | rule r others ih =>
    intro b f g hf hg he
    have hp := Items.production_eq hf hg he
    cases b <;> cases hp
    case rule r' others' =>
      simp only [Items.yield, List.append_assoc] at he
      obtain ⟨rfl, ho⟩ := Rule.unambiguous ((others.clear_of_ends hf).mono (by simp))
        ((others'.clear_of_ends hg).mono (by simp)) he
      obtain ⟨rfl, rfl⟩ := ih hf hg ho
      exact ⟨rfl, rfl⟩

/-- **No two trees derive the same tokens.** -/
theorem Items.yield_injective : Function.Injective Items.yield := by
  intro a b h
  have hends : Ends [] := trivial
  exact (a.yield_unambiguous hends hends (by rw [h])).1

end Grammar
end Config
end ProxyPlane
