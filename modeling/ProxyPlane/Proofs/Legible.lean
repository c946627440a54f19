import ProxyPlane.Proofs.RoundTrip

/-!
# Statements that are read back

The text that is written for some statements is read as these statements again just when they are
legible: names and keys are words, literals are in the quotes they need and do not mix the two kinds
of quotes, a chain has a call, and an outbound is not negated.

One half is that legible statements have a derivation which the text spells.  For the other half,
what the text is read as has a derivation too, but the statements do not tell which: they forget
whether a key stood in quotes.  A key such as `&` can only be read in quotes and is written without
them, and no reading can make up for that, because no reading finds more quotes than the text has.

## What is here

* `Scalar.written` — a literal with the quotes that it is written with.
* `Legible`, with one definition for each phrase — the condition.
* `Neat` — what it comes to for a derivation; `legible_iff_exists` — that it does.
* `quotes_lexemes_le` — tokens have no more quotes than their text.
* `Lacks` — by how many quotes a text falls short of some tokens; `statements_lack`.
* `parse_renderStatements_iff` — what is read back.
-/

set_option autoImplicit false
namespace ProxyPlane
namespace Config

open Grammar

/-! ## Legible phrases -/

/-- A literal with the quotes that it is written with. -/
def Scalar.written (x : Scalar) : Scalar := ⟨x.text, x.quoted || needsQuotes x.text.toList⟩

/-- A literal is a word, or a text in quotes that leaves one kind of quotes to stand around it. -/
def Scalar.Legible (x : Scalar) : Prop := (lexemeOf x).Written

instance : DecidablePred Scalar.Legible := fun x =>
  inferInstanceAs (Decidable (lexemeOf x).Written)

def Argument.Legible (a : Argument) : Prop :=
  (∀ key ∈ a.key, (Scalar.bare key).written.Legible) ∧ a.value.Legible

instance : DecidablePred Argument.Legible := fun _ => inferInstanceAs (Decidable (_ ∧ _))

def Call.Legible (c : Call) : Prop :=
  (Lexeme.word c.name).Written ∧ ∀ a ∈ c.arguments, a.Legible

instance : DecidablePred Call.Legible := fun _ => inferInstanceAs (Decidable (_ ∧ _))

/-- Calls joined by `&&`, of which there is one at least. -/
def LegibleChain (chain : List Call) : Prop := chain ≠ [] ∧ ∀ c ∈ chain, c.Legible

instance : DecidablePred LegibleChain := fun _ => inferInstanceAs (Decidable (_ ∧ _))

def Value.Legible : Value → Prop
  | .scalar x => x.Legible
  | .calls chain => LegibleChain chain

instance : DecidablePred Value.Legible
  | .scalar x => inferInstanceAs (Decidable x.Legible)
  | .calls chain => inferInstanceAs (Decidable (LegibleChain chain))

def Rule.Legible (r : Rule) : Prop :=
  LegibleChain r.conditions ∧ r.outbound.negated = false ∧ r.outbound.Legible

instance : DecidablePred Rule.Legible := fun _ => inferInstanceAs (Decidable (_ ∧ _ ∧ _))

mutual
def Statement.Legible : Statement → Prop
  | .assignment key value => (Lexeme.word key).Written ∧ value.Legible
  | .block name body => (Lexeme.word name).Written ∧ Legible body
  | .rule r => r.Legible

/-- All of the statements are legible. -/
def Legible : List Statement → Prop
  | [] => True
  | st :: rest => st.Legible ∧ Legible rest
end

mutual
/-- Whether a statement is legible, decided by its parts. -/
def Statement.decLegible : (st : Statement) → Decidable st.Legible
  | .assignment key value =>
    inferInstanceAs (Decidable ((Lexeme.word key).Written ∧ value.Legible))
  | .block name body =>
    have := decLegible body
    inferInstanceAs (Decidable ((Lexeme.word name).Written ∧ Legible body))
  | .rule r => inferInstanceAs (Decidable r.Legible)

/-- Whether all statements are legible. -/
def decLegible : (statements : List Statement) → Decidable (Legible statements)
  | [] => .isTrue trivial
  | st :: rest =>
    have := st.decLegible
    have := decLegible rest
    inferInstanceAs (Decidable (st.Legible ∧ Legible rest))
end

instance : DecidablePred Statement.Legible := Statement.decLegible

instance : DecidablePred Legible := decLegible

theorem legible_iff {statements : List Statement} :
    Legible statements ↔ ∀ st ∈ statements, st.Legible := by
  induction statements with
  | nil => simp [Legible]
  | cons st rest ih => rw [Legible, ih, List.forall_mem_cons]

/-! ## Their derivations -/

/-- The tokens are those of some source, and the keys are in quotes only where they need them. -/
def Neat (ls : List Lexeme) (ps : List Param) : Prop :=
  (∀ l ∈ ls, l.Written) ∧ ∀ p ∈ ps, p.TightKey

theorem written_bare {x : Scalar} (hw : x.Legible)
    (ht : x.quoted = true → needsQuotes x.text.toList = true) :
    (Scalar.bare x.text).written = x := by
  obtain ⟨text, _ | _⟩ := x
  · simp [Scalar.written, Scalar.bare, IsWord.needsQuotes hw]
  · simp [Scalar.written, Scalar.bare, ht rfl]

theorem argument_legible_iff (a : Argument) :
    a.Legible ↔ ∃ p : Param, p.argument = a ∧ Neat p.yield [p] := by
  constructor
  · obtain ⟨_ | key, value⟩ := a
    · rintro ⟨-, hvalue⟩
      refine ⟨⟨value, none⟩, rfl, List.forall_mem_singleton.2 hvalue, ?_⟩
      simp [Param.TightKey]
    · rintro ⟨hkey, hvalue⟩
      refine ⟨⟨(Scalar.bare key).written, some value⟩, rfl, ?_, ?_⟩
      · exact List.forall_mem_cons.2 ⟨hkey key rfl, List.forall_mem_cons.2 ⟨trivial,
          List.forall_mem_singleton.2 hvalue⟩⟩
      · simp [Param.TightKey, Scalar.written, Scalar.bare]
  · rintro ⟨⟨first, _ | value⟩, rfl, hw, hk⟩
    · have hkey : ∀ key ∈ (none : Option String), (Scalar.bare key).written.Legible := by simp
      exact ⟨hkey, hw _ (List.mem_singleton_self _)⟩
    · have hfirst : first.Legible := hw _ List.mem_cons_self
      have hvalue : value.Legible := hw _ (by simp [Param.yield])
      refine ⟨fun key hkey => ?_, hvalue⟩
      cases hkey
      rw [written_bare hfirst (by simpa [Param.TightKey] using hk)]
      exact hfirst

/-- What holds of the members of a list holds of those of a phrase that stands for it. -/
theorem separated_iff {α β : Type} {P : β → Prop} {Q : α → Prop} {f : α → β}
    (h : ∀ b, P b ↔ ∃ a, f a = b ∧ Q a) {bs : List β} :
    (bs ≠ [] ∧ ∀ b ∈ bs, P b) ↔ ∃ s : Separated α, s.toList.map f = bs ∧ ∀ a ∈ s.toList, Q a := by
  constructor
  · induction bs with
    | nil => exact fun hb => absurd rfl hb.1
    | cons b bs ih =>
      rintro ⟨-, hb⟩
      obtain ⟨hfirst, hrest⟩ := List.forall_mem_cons.1 hb
      obtain ⟨a, rfl, ha⟩ := (h b).1 hfirst
      cases bs with
      | nil => exact ⟨.one a, rfl, by simpa [Separated.toList] using ha⟩
      | cons b' bs =>
        obtain ⟨s, hs, hq⟩ := ih ⟨List.cons_ne_nil _ _, hrest⟩
        refine ⟨.more a s, ?_, ?_⟩
        · rw [Separated.toList, List.map_cons, hs]
        · exact List.forall_mem_cons.2 ⟨ha, hq⟩
  · rintro ⟨s, rfl, hq⟩
    refine ⟨by cases s <;> simp [Separated.toList], fun b hb => ?_⟩
    obtain ⟨a, ha, rfl⟩ := List.mem_map.1 hb
    exact (h _).2 ⟨a, rfl, hq a ha⟩

theorem neat_separated {α : Type} {separator : Lexeme} (hs : separator.Written)
    {item : α → List Lexeme} {params : α → List Param} (s : Separated α) :
    Neat (s.yield separator item) (s.toList.flatMap params) ↔
      ∀ a ∈ s.toList, Neat (item a) (params a) := by
  induction s with
  | one a => simp [Separated.yield, Separated.toList]
  | more a others ih =>
    rw [Separated.toList, List.forall_mem_cons, ← ih]
    simp only [Neat, Separated.yield, List.flatMap_cons, List.forall_mem_append,
      List.forall_mem_cons, hs, true_and]
    exact and_and_and_comm

theorem neat_params (ps : Separated Param) :
    Neat (Args.list ps).yield (Args.list ps).params ↔ ∀ p ∈ ps.toList, Neat p.yield [p] := by
  have hopen : Lexeme.openParen.Written := trivial
  have hclose : Lexeme.closeParen.Written := trivial
  have hcomma : Lexeme.comma.Written := trivial
  rw [← neat_separated hcomma, List.flatMap_singleton']
  simp [Neat, Args.yield, Args.params, hopen, hclose, or_imp, forall_and]

theorem arguments_legible_iff {arguments : List Argument} :
    (∀ a ∈ arguments, a.Legible) ↔
      ∃ args : Args, args.arguments = arguments ∧ Neat args.yield args.params := by
  constructor
  · intro h
    cases arguments with
    | nil => exact ⟨.empty, rfl, by simp [Neat, Args.yield, Args.params, Lexeme.Written]⟩
    | cons a rest =>
      obtain ⟨ps, hps, hneat⟩ := (separated_iff argument_legible_iff).1 ⟨List.cons_ne_nil a rest, h⟩
      exact ⟨.list ps, hps, (neat_params ps).2 hneat⟩
  · rintro ⟨_ | ps, rfl, hneat⟩
    · exact List.forall_mem_nil _
    · exact ((separated_iff argument_legible_iff).2 ⟨ps, rfl, (neat_params ps).1 hneat⟩).2

theorem neat_sign (negated : Bool) (ls : List Lexeme) (ps : List Param) :
    Neat (sign negated ++ ls) ps ↔ Neat ls ps := by
  cases negated <;> simp [Neat, sign, Lexeme.Written]

theorem neat_word (name : String) (ls : List Lexeme) (ps : List Param) :
    Neat (.word name :: ls) ps ↔ (Lexeme.word name).Written ∧ Neat ls ps := by
  rw [Neat, List.forall_mem_cons, and_assoc, ← Neat]

theorem call_legible_iff (c : Call) :
    c.Legible ↔ ∃ fn : Fn, fn.call = c ∧ Neat fn.yield fn.args.params := by
  constructor
  · rintro ⟨hname, harguments⟩
    obtain ⟨args, hargs, hneat⟩ := arguments_legible_iff.1 harguments
    refine ⟨⟨c.negated, c.name, args⟩, by rw [Fn.call, hargs], ?_⟩
    exact (neat_sign _ _ _).2 ((neat_word _ _ _).2 ⟨hname, hneat⟩)
  · rintro ⟨⟨negated, name, args⟩, rfl, hneat⟩
    obtain ⟨hname, hargs⟩ := (neat_word _ _ _).1 ((neat_sign _ _ _).1 hneat)
    exact ⟨hname, arguments_legible_iff.2 ⟨args, rfl, hargs⟩⟩

theorem chain_legible_iff {chain : List Call} :
    LegibleChain chain ↔
      ∃ c : Chain, Chain.calls c = chain ∧ Neat (Chain.yield c) (Chain.params c) := by
  have hconjunction : Lexeme.conjunction.Written := trivial
  rw [LegibleChain, separated_iff call_legible_iff]
  exact exists_congr fun c => and_congr_right fun _ => (neat_separated hconjunction c).symm

/-- The parentheses behind an outbound may be there or not when there is nothing in them. -/
theorem outbound_legible_iff {c : Call} :
    c.Legible ↔ ∃ args : Option Args, c.arguments = args.elim [] Args.arguments ∧
      Neat (target c.name args) (args.elim [] Args.params) := by
  constructor
  · rintro ⟨hname, harguments⟩
    obtain ⟨args, hargs, hneat⟩ := arguments_legible_iff.1 harguments
    exact ⟨some args, hargs.symm, (neat_word _ _ _).2 ⟨hname, hneat⟩⟩
  · rintro ⟨_ | args, hargs, hneat⟩
    · exact ⟨((neat_word _ _ _).1 hneat).1, by simp [hargs]⟩
    · obtain ⟨hname, hneat⟩ := (neat_word _ _ _).1 hneat
      exact ⟨hname, arguments_legible_iff.2 ⟨args, hargs.symm, hneat⟩⟩

theorem rule_legible_iff {r : Rule} :
    r.Legible ↔ ∃ g : Grammar.Rule, g.rule = r ∧ Neat g.yield g.params := by
  have hneat (g : Grammar.Rule) : Neat g.yield g.params ↔
      Neat (Chain.yield g.conditions) (Chain.params g.conditions) ∧
        Neat (target g.outbound g.args) (g.args.elim [] Args.params) := by
    simp only [Neat, Rule.yield, Rule.params, List.forall_mem_append, List.forall_mem_cons]
    rw [and_and_and_comm]
    simp [Lexeme.Written]
  constructor
  · rintro ⟨hconditions, hnegated, houtbound⟩
    obtain ⟨chain, hchain, hc⟩ := chain_legible_iff.1 hconditions
    obtain ⟨args, hargs, ht⟩ := outbound_legible_iff.1 houtbound
    refine ⟨⟨chain, r.outbound.name, args⟩, ?_, (hneat _).2 ⟨hc, ht⟩⟩
    rw [Rule.rule, hchain, ← hargs, ← hnegated]
  · rintro ⟨g, rfl, hg⟩
    obtain ⟨hc, ht⟩ := (hneat g).1 hg
    refine ⟨chain_legible_iff.2 ⟨_, rfl, hc⟩, rfl, ?_⟩
    exact outbound_legible_iff.2 ⟨g.args, rfl, ht⟩

theorem value_legible_iff {value : Value} :
    value.Legible ↔ ∃ v : Grammar.Value, v.value = value ∧ Neat v.yield v.params := by
  constructor
  · cases value with
    | scalar x =>
      exact fun h => ⟨.scalar x, rfl, List.forall_mem_singleton.2 h, List.forall_mem_nil _⟩
    | calls chain =>
      intro h
      obtain ⟨c, hc, hneat⟩ := chain_legible_iff.1 h
      exact ⟨.chain c, by rw [Value.value, hc], hneat⟩
  · rintro ⟨c | x, rfl, hneat⟩
    · exact chain_legible_iff.2 ⟨c, rfl, hneat⟩
    · exact hneat.1 _ (List.mem_singleton_self _)

theorem Grammar.Items.legible_of_neat {items : Items} (h : Neat items.yield items.params) :
    Legible items.statements := by
  induction items with
  | nil => trivial
  | semicolon others ih => exact ih ⟨fun l hl => h.1 l (List.mem_cons_of_mem _ hl), h.2⟩
  | assignment key value others ih =>
    obtain ⟨hw, hk⟩ := h
    simp only [yield, params, List.forall_mem_cons, List.forall_mem_append] at hw hk
    refine ⟨⟨hw.1, value_legible_iff.2 ⟨value, rfl, hw.2.2.1, hk.1⟩⟩, ih ⟨hw.2.2.2, hk.2⟩⟩
  | block name body others ihb iho =>
    obtain ⟨hw, hk⟩ := h
    simp only [yield, params, List.forall_mem_cons, List.forall_mem_append] at hw hk
    exact ⟨⟨hw.1, ihb ⟨hw.2.2.1, hk.1⟩⟩, iho ⟨hw.2.2.2.2, hk.2⟩⟩
  | rule r others ih =>
    obtain ⟨hw, hk⟩ := h
    simp only [yield, params, List.forall_mem_append] at hw hk
    exact ⟨rule_legible_iff.2 ⟨r, rfl, hw.1, hk.1⟩, ih ⟨hw.2, hk.2⟩⟩

theorem exists_neat : (statements : List Statement) → Legible statements →
    ∃ items : Items, items.statements = statements ∧ Neat items.yield items.params
  | [], _ => ⟨.nil, rfl, List.forall_mem_nil _, List.forall_mem_nil _⟩
  | .assignment key value :: rest, h => by
    obtain ⟨⟨hkey, hvalue⟩, hrest⟩ := h
    obtain ⟨v, rfl, hv⟩ := value_legible_iff.1 hvalue
    obtain ⟨others, rfl, ho⟩ := exists_neat rest hrest
    refine ⟨.assignment key v others, rfl, ?_⟩
    simp only [Neat, Items.yield, Items.params, List.forall_mem_cons, List.forall_mem_append]
    exact ⟨⟨hkey, trivial, hv.1, ho.1⟩, hv.2, ho.2⟩
  | .block name body :: rest, h => by
    obtain ⟨⟨hname, hbody⟩, hrest⟩ := h
    obtain ⟨b, rfl, hb⟩ := exists_neat body hbody
    obtain ⟨others, rfl, ho⟩ := exists_neat rest hrest
    refine ⟨.block name b others, rfl, ?_⟩
    simp only [Neat, Items.yield, Items.params, List.forall_mem_cons, List.forall_mem_append]
    exact ⟨⟨hname, trivial, hb.1, trivial, ho.1⟩, hb.2, ho.2⟩
  | .rule r :: rest, h => by
    obtain ⟨hrule, hrest⟩ := h
    obtain ⟨g, rfl, hg⟩ := rule_legible_iff.1 hrule
    obtain ⟨others, rfl, ho⟩ := exists_neat rest hrest
    refine ⟨.rule g others, rfl, ?_⟩
    simp only [Neat, Items.yield, Items.params, List.forall_mem_append]
    exact ⟨⟨hg.1, ho.1⟩, hg.2, ho.2⟩

/-- **Legible statements are those with a neat derivation.** -/
theorem legible_iff_exists {statements : List Statement} :
    Legible statements ↔
      ∃ items : Items, items.statements = statements ∧ Neat items.yield items.params :=
  ⟨exists_neat statements, fun ⟨_, hs, hneat⟩ => hs ▸ Items.legible_of_neat hneat⟩

/-! ## Quotes -/

/-- The number of quotes in a text. -/
def quotes (s : List Char) : Nat := s.countP fun c => c == '\'' || c == '"'

/-- The quotes of a token: those in a text and the two around it. -/
def Lexeme.quotes : Lexeme → Nat
  | .quoted text => Config.quotes text.toList + 2
  | _ => 0

/-- The quotes of tokens. -/
def quotesOf : List Lexeme → Nat
  | [] => 0
  | l :: ls => l.quotes + quotesOf ls

@[simp]
theorem Lexeme.quotes_word (text : String) : (Lexeme.word text).quotes = 0 := rfl

@[simp]
theorem Lexeme.quotes_quoted (text : String) :
    (Lexeme.quoted text).quotes = Config.quotes text.toList + 2 := rfl

theorem quotes_append (s t : List Char) : quotes (s ++ t) = quotes s + quotes t :=
  List.countP_append

theorem quotesOf_cons (l : Lexeme) (ls : List Lexeme) :
    quotesOf (l :: ls) = l.quotes + quotesOf ls := rfl

theorem quotesOf_append (x y : List Lexeme) : quotesOf (x ++ y) = quotesOf x + quotesOf y := by
  induction x with
  | nil => exact (Nat.zero_add _).symm
  | cons l x ih => rw [List.cons_append, quotesOf_cons, quotesOf_cons, ih, Nat.add_assoc]

theorem quotesOf_le {x y : List Lexeme} (h : x.Sublist y) : quotesOf x ≤ quotesOf y := by
  induction h with
  | slnil => exact Nat.le_refl _
  | cons l _ ih =>
    rw [quotesOf_cons]
    exact Nat.le_add_left_of_le ih
  | cons_cons l _ ih =>
    rw [quotesOf_cons, quotesOf_cons]
    exact Nat.add_le_add_left ih _

theorem quotes_le_cons (c : Char) (s : List Char) : quotes s ≤ quotes (c :: s) :=
  (List.sublist_cons_self c s).countP_le

/-- **Tokens have no more quotes than their text.**  Only a comment has quotes for nothing. -/
theorem quotes_lexemes_le {p : Position} {s : List Char} {stream : TokenStream}
    (h : tokenizeFrom p s = .ok stream) : quotesOf (lexemes stream.tokens) ≤ quotes s := by
  have cons {r : Except (Position × LexicalProblem) TokenStream} {t : Token} {stream : TokenStream}
      {n : Nat} (h : (do return (← r).cons t) = .ok stream)
      (ih : ∀ {rest : TokenStream}, r = .ok rest → quotesOf (lexemes rest.tokens) ≤ n) :
      quotesOf (lexemes stream.tokens) ≤ t.lexeme.quotes + n := by
    obtain ⟨rest, hr, hs⟩ := tokens_of_cons h
    rw [hs, lexemes_cons, quotesOf_cons]
    exact Nat.add_le_add_left (ih hr) _
  fun_induction tokenizeFrom p s generalizing stream with
  | case1 =>
    cases h
    exact Nat.le_refl _
  | case2 p rest ih => simpa [quotes, Lexeme.quotes] using cons h ih
  | case3 p rest ih => simpa [quotes, Lexeme.quotes] using cons h ih
  | case4 => cases h
  | case5 p c rest ha hand hamp hb ih => exact Nat.le_trans (ih h) (quotes_le_cons c rest)
  | case6 p rest ha hand hamp hb ih =>
    have hcomment := (List.dropWhile_suffix (l := rest) (· != '\n')).sublist.countP_le
      (p := fun c => c == '\'' || c == '"')
    exact Nat.le_trans (Nat.le_trans (ih h) hcomment) (quotes_le_cons _ rest)
  | case7 => cases h
  | case8 p c rest ha hand hamp hb hc hq text more hs ih =>
    have hquote : quotes [c] = 1 := by
      obtain rfl | rfl := hq <;> rfl
    have hle := cons h ih
    rw [append_of_splitQuoted hs, ← List.singleton_append, quotes_append, quotes_append,
      ← List.singleton_append (l := more), quotes_append, hquote]
    simp only [Lexeme.quotes_quoted, String.toList_ofList] at hle
    omega
  | case9 p c rest ha hand hamp hb hc hq l hl ih =>
    have hnone : l.quotes = 0 := by
      unfold punctuation? at hl
      split at hl <;> cases hl <;> rfl
    have hle := cons h ih
    rw [hnone, Nat.zero_add] at hle
    exact Nat.le_trans hle (quotes_le_cons c rest)
  | case10 p c rest ha hand hamp hb hc hq hn =>
    rename_i ih
    have hle := cons h ih
    rw [Lexeme.quotes_word, Nat.zero_add] at hle
    have hsplit := quotes_append (splitWord rest).1 (splitWord rest).2
    rw [splitWord_append] at hsplit
    have hrest : quotes (splitWord rest).2 ≤ quotes rest := hsplit ▸ Nat.le_add_left _ _
    exact Nat.le_trans (Nat.le_trans hle hrest) (quotes_le_cons c rest)

/-! ## Quotes of what is written -/

/-- A text has `n` quotes fewer than some tokens. -/
def Lacks (n : Nat) (text : String) (ls : List Lexeme) : Prop :=
  quotes text.toList + n = quotesOf ls

theorem Lacks.append {m n : Nat} {a b : String} {x y : List Lexeme} (ha : Lacks m a x)
    (hb : Lacks n b y) : Lacks (m + n) (a ++ b) (x ++ y) := by
  simp only [Lacks, String.toList_append, quotes_append, quotesOf_append] at *
  omega

/-- What may be written bare has no quotes. -/
theorem quotes_of_bare {s : List Char} (h : needsQuotes s = false) : quotes s = 0 := by
  simp only [needsQuotes, Bool.or_eq_false_iff, List.any_eq_false] at h
  refine List.countP_eq_zero.2 fun c hc hq => h.2 c hc ?_
  simp only [Bool.or_eq_true, beq_iff_eq] at hq
  obtain rfl | rfl := hq <;> rfl

theorem word_lacks {w : String} (h : (Lexeme.word w).Written) : Lacks 0 w [.word w] :=
  quotes_of_bare (IsWord.needsQuotes h)

theorem scalar_lacks {x : Scalar} (h : x.Legible) : Lacks 0 x.render [lexemeOf x] := by
  obtain ⟨text, _ | _⟩ := x
  · rw [Scalar.render, if_pos (by simp [IsWord.needsQuotes h])]
    exact word_lacks h
  · have hquote : quotes (quoteFor text).toList = 1 := by
      rw [quoteFor]
      split <;> rfl
    have htext : lexemeOf ⟨text, true⟩ = .quoted text := rfl
    rw [Scalar.render, if_neg (by simp), Lacks, htext, quotesOf_cons, Lexeme.quotes_quoted]
    simp only [String.toList_append, quotes_append, hquote]
    change 1 + quotes text.toList + 1 + 0 = quotes text.toList + 2 + 0
    omega

/-- The quotes around a key that it does not need. -/
def Grammar.Param.spare (p : Param) : Nat := if p.TightKey then 0 else 2

theorem param_lacks {p : Param} (h : ∀ l ∈ p.yield, l.Written) :
    Lacks p.spare p.argument.render p.yield := by
  obtain ⟨first, _ | value⟩ := p
  · exact scalar_lacks (h _ (List.mem_singleton_self _))
  · have hfirst : first.Legible := h _ List.mem_cons_self
    have hvalue : value.Legible := h _ (by simp [Param.yield])
    have hkey : Lacks (Param.spare ⟨first, some value⟩) (Scalar.bare first.text).render
        [lexemeOf first] := by
      rw [Param.spare]
      split
      · next ht =>
        rw [render_bare (ht rfl)]
        exact scalar_lacks hfirst
      · next ht =>
        simp only [Param.TightKey, Option.isSome_some, forall_const, Classical.not_imp] at ht
        obtain ⟨hquoted, hneeds⟩ := ht
        rw [Bool.not_eq_true] at hneeds
        simp [Lacks, Scalar.render, Scalar.bare, hneeds, quotes_of_bare hneeds, lexemeOf, hquoted,
          quotesOf, Lexeme.quotes]
    have hcolon : Lacks 0 ": " [.colon] := rfl
    exact (hkey.append hcolon).append (scalar_lacks hvalue)

/-- The parameters of a phrase have quotes around keys that these do not need. -/
def spareOf : List Param → Nat
  | [] => 0
  | p :: ps => p.spare + spareOf ps

theorem spareOf_append (x y : List Param) : spareOf (x ++ y) = spareOf x + spareOf y := by
  induction x with
  | nil => exact (Nat.zero_add _).symm
  | cons p x ih => rw [List.cons_append, spareOf, spareOf, ih, Nat.add_assoc]

theorem tight_of_spareOf {ps : List Param} (h : spareOf ps = 0) : ∀ p ∈ ps, p.TightKey := by
  induction ps with
  | nil => exact List.forall_mem_nil _
  | cons p ps ih =>
    rw [spareOf, Nat.add_eq_zero_iff] at h
    refine List.forall_mem_cons.2 ⟨?_, ih h.2⟩
    have hp := h.1
    rw [Param.spare] at hp
    split at hp
    · assumption
    · cases hp

theorem separated_lacks {α : Type} {separator : Lexeme} {glue : String} {item : α → List Lexeme}
    {render : α → String} {params : α → List Param} (hg : Lacks 0 glue [separator])
    {phrases : Separated α}
    (h : ∀ a ∈ phrases.toList, Lacks (spareOf (params a)) (render a) (item a)) :
    Lacks (spareOf (phrases.toList.flatMap params))
      (String.intercalate glue (phrases.toList.map render)) (phrases.yield separator item) := by
  induction phrases with
  | one a => simpa [Separated.toList, Separated.yield] using h a (by simp [Separated.toList])
  | more a others ih =>
    have ha := h a (by simp [Separated.toList])
    have ho := ih fun b hb => h b (by simp [Separated.toList, hb])
    have hs := (ha.append hg).append ho
    rw [intercalate_more, Separated.yield, Separated.toList, List.flatMap_cons, spareOf_append]
    simpa using hs

theorem args_lack {args : Args} (h : ∀ l ∈ args.yield, l.Written) :
    Lacks (spareOf args.params)
      ("(" ++ String.intercalate ", " (args.arguments.map Argument.render) ++ ")") args.yield := by
  have hopen : Lacks 0 "(" [.openParen] := rfl
  have hclose : Lacks 0 ")" [.closeParen] := rfl
  cases args with
  | empty => exact hopen.append hclose
  | list ps =>
    have hcomma : Lacks 0 ", " [.comma] := rfl
    have hparam : ∀ p ∈ ps.toList, Lacks (spareOf [p]) p.argument.render p.yield := fun p hp =>
      param_lacks fun l hl => h l (by simp [Args.yield, ps.mem_yield hp hl])
    have hp := separated_lacks hcomma hparam
    have hs := (hopen.append hp).append hclose
    simpa [Args.arguments, Args.params, Args.yield, Function.comp_def] using hs

theorem call_lacks (negated : Bool) {name : String} {args : Args}
    (hn : (Lexeme.word name).Written) (h : ∀ l ∈ args.yield, l.Written) :
    Lacks (spareOf args.params) (callOf negated name (some args)).render
      (sign negated ++ target name (some args)) := by
  have hsign : Lacks 0 (if negated then "!" else "") (sign negated) := by
    cases negated <;> rfl
  have hc := (hsign.append (word_lacks hn)).append (args_lack h)
  rw [render_callOf]
  simpa [target] using hc

theorem chain_lacks (chain : Chain) (h : ∀ l ∈ Chain.yield chain, l.Written) :
    Lacks (spareOf (Chain.params chain)) (renderChain (Chain.calls chain)) (Chain.yield chain) := by
  have hand : Lacks 0 " && " [.conjunction] := rfl
  have hf : ∀ fn ∈ chain.toList, Lacks (spareOf fn.args.params) fn.call.render fn.yield := by
    intro fn hfn
    have hw : ∀ l ∈ fn.yield, l.Written := fun l hl => h l (chain.mem_yield hfn hl)
    rw [Fn.yield] at hw ⊢
    refine call_lacks _ (hw _ ?_) fun l hl => hw l ?_
    · simp [target]
    · simp [target, hl]
  rw [renderChain, Chain.calls, List.map_map]
  exact separated_lacks hand hf

theorem target_lacks (name : String) (args : Option Args)
    (h : ∀ l ∈ target name args, l.Written) :
    Lacks (spareOf (args.elim [] Args.params)) (callOf false name args).renderTarget
      (target name args) := by
  have hn : (Lexeme.word name).Written := h _ (by cases args <;> simp [target])
  rcases args with _ | _ | ps
  · exact word_lacks hn
  · exact word_lacks hn
  · have hw : ∀ l ∈ (Args.list ps).yield, l.Written := fun l hl => h l (by simp [target, hl])
    rw [Call.renderTarget, if_neg (by cases ps <;> simp [callOf, Args.arguments, Separated.toList])]
    exact call_lacks false hn hw

theorem rule_lacks (r : Grammar.Rule) (h : ∀ l ∈ r.yield, l.Written) :
    Lacks (spareOf r.params) r.rule.render r.yield := by
  have harrow : Lacks 0 " -> " [.arrow] := rfl
  have hc := chain_lacks r.conditions fun l hl => h l (List.mem_append_left _ hl)
  have ht := target_lacks r.outbound r.args
    fun l hl => h l (List.mem_append_right _ (List.mem_cons_of_mem _ hl))
  have hr := (hc.append harrow).append ht
  rw [Nat.add_zero, List.append_assoc, ← spareOf_append] at hr
  exact hr

theorem value_lacks (value : Grammar.Value) (h : ∀ l ∈ value.yield, l.Written) :
    Lacks (spareOf value.params) value.value.render value.yield := by
  cases value with
  | chain calls => exact chain_lacks calls h
  | scalar literal => exact scalar_lacks (h _ (List.mem_singleton_self _))

theorem indent_lacks (depth : Nat) : Lacks 0 (indent depth) [] := by
  rw [Lacks, indent, String.toList_ofList, quotes, List.countP_replicate]
  rfl

/-- **Statements are written without the quotes that keys do not need**, and with all others. -/
theorem statements_lack {items : Items} (h : ∀ l ∈ items.yield, l.Written) (depth : Nat) :
    Lacks (spareOf items.params) (renderStatements depth items.statements) items.yield := by
  have hopen : Lacks 0 " \x7b\n" [.openBrace] := rfl
  have hclose : Lacks 0 "\x7d\n" [.closeBrace] := rfl
  have hcolon : Lacks 0 ": " [.colon] := rfl
  have hnewline : Lacks 0 "\n" [] := rfl
  induction items generalizing depth with
  | nil => rfl
  | semicolon others ih =>
    have ho := ih (fun l hl => h l (List.mem_cons_of_mem _ hl)) depth
    rw [Lacks] at ho ⊢
    rw [Items.yield, quotesOf_cons, ← ho]
    exact (Nat.zero_add _).symm
  | assignment key value others ih =>
    have hv := value_lacks value fun l hl => h l (by simp [Items.yield, hl])
    have ho := ih (fun l hl => h l (by simp [Items.yield, hl])) depth
    have hkey := word_lacks (h (.word key) (by simp [Items.yield]))
    have hstart := ((indent_lacks depth).append hkey).append hcolon
    have hs := ((hstart.append hv).append hnewline).append ho
    simpa [Items.statements, Items.params, Items.yield, spareOf_append, renderStatements,
      Statement.render] using hs
  | block name body others ihb iho =>
    have hb := ihb (fun l hl => h l (by simp [Items.yield, hl])) (depth + 1)
    have ho := iho (fun l hl => h l (by simp [Items.yield, hl])) depth
    have hname := word_lacks (h (.word name) (by simp [Items.yield]))
    have hstart := ((indent_lacks depth).append hname).append hopen
    have hs := ((hstart.append hb).append ((indent_lacks depth).append hclose)).append ho
    simpa [Items.statements, Items.params, Items.yield, spareOf_append, renderStatements,
      Statement.render, String.append_assoc] using hs
  | rule r others ih =>
    have hr := rule_lacks r fun l hl => h l (List.mem_append_left _ hl)
    have ho := ih (fun l hl => h l (List.mem_append_right _ hl)) depth
    have hs := (((indent_lacks depth).append hr).append hnewline).append ho
    simpa [Items.statements, Items.params, Items.yield, spareOf_append, renderStatements,
      Statement.render] using hs

/-! ## Reading back -/

section ReadBack
variable {kind : SectionKind} {depth : Nat} {statements : List Statement}

/-- A text has the quotes with which a part of what it is read as is written, and those of the keys
that do not need them. -/
theorem quotes_le_of_spans {items part : Items} {source : String} (h : items.Spans source)
    (hpart : part.yield.Sublist items.yield) (depth : Nat) :
    quotes (renderStatements depth part.statements).toList + spareOf part.params ≤
      quotes source.toList := by
  obtain ⟨stream, ht, hd⟩ := h
  have hw : ∀ l ∈ part.yield, l.Written := fun l hl =>
    tokenizeFrom_written ht l (hd.yield_eq ▸ hpart.subset hl)
  have hlacks : quotes _ + spareOf part.params = quotesOf part.yield := statements_lack hw depth
  have hle := quotes_lexemes_le ht
  rw [← hd.yield_eq] at hle
  exact hlacks ▸ Nat.le_trans (quotesOf_le hpart) hle

/-- A part of what a text is read as is legible if the text has no more quotes than it is written
with. -/
theorem legible_of_quotes_le {items part : Items} {source : String} (h : items.Spans source)
    (hpart : part.yield.Sublist items.yield) (depth : Nat)
    (hle : quotes source.toList ≤ quotes (renderStatements depth part.statements).toList) :
    Legible part.statements := by
  have hcount := quotes_le_of_spans h hpart depth
  obtain ⟨stream, ht, hd⟩ := h
  refine legible_iff_exists.2 ⟨part, rfl, fun l hl => ?_, tight_of_spareOf (by omega)⟩
  exact tokenizeFrom_written ht l (hd.yield_eq ▸ hpart.subset hl)

/-- **What is read back is legible, and what is legible is read back.** -/
theorem parse_renderStatements_iff :
    parse kind (renderStatements depth statements) = .ok statements ↔ Legible statements := by
  constructor
  · intro h
    obtain ⟨items, hs, rfl⟩ := parse_ok_iff.1 h
    exact legible_of_quotes_le hs (.refl _) depth (Nat.le_refl _)
  · intro h
    obtain ⟨items, rfl, hw, hk⟩ := legible_iff_exists.1 h
    obtain ⟨stream, ht, hl⟩ := (statements_spelled hw hk depth).spells .start
    refine parse_ok_iff.2 ⟨items.tidy, ⟨stream, ht, Items.derives_iff.2 hl.symm⟩, ?_⟩
    exact items.statements_tidy

/-- A key that can be read in quotes only is written without. -/
example : ¬Legible [.assignment "a" (.calls [⟨"f", false, [⟨some "&", .bare "b"⟩]⟩])] := by
  decide +kernel

/-- As a section, statements are read back if moreover they are no block that could be around it. -/
theorem parseSection_renderStatements_iff :
    parseSection kind (renderStatements depth statements) = .ok statements ↔
      Legible statements ∧ unwrap kind statements = statements := by
  constructor
  · intro h
    obtain ⟨items, hs, hu⟩ := parseSection_ok_iff.1 h
    obtain ⟨part, hp, hsub, -⟩ := exists_unwrapped kind items
    obtain rfl : part.statements = statements := hp.trans hu
    have hlegible := legible_of_quotes_le hs hsub depth (Nat.le_refl _)
    refine ⟨hlegible, ?_⟩
    rw [parseSection, parse_renderStatements_iff.2 hlegible] at h
    exact Except.ok.inj h
  · rintro ⟨h, hu⟩
    rw [parseSection, parse_renderStatements_iff.2 h, Except.map, hu]

/-- A section is legible when its source has no key in quotes. -/
theorem legible_of_parseSection {source : String} (hk : BareKeys source)
    (h : parseSection kind source = .ok statements) : Legible statements := by
  obtain ⟨part, he, hw, hbare⟩ := exists_bare hk h
  exact legible_iff_exists.2 ⟨part, he, hw, fun p hp => (hbare p hp).tight⟩

end ReadBack

/-! ## Words of what was read -/

theorem Grammar.Items.exists_block {items : Items} {name : String} {body : List Statement}
    (h : .block name body ∈ items.statements) :
    ∃ b : Items, b.statements = body ∧ ∀ l ∈ b.yield, l ∈ items.yield := by
  induction items with
  | nil => cases h
  | semicolon others ih =>
    obtain ⟨b, hb, hsub⟩ := ih h
    exact ⟨b, hb, fun l hl => List.mem_cons_of_mem _ (hsub l hl)⟩
  | assignment key value others ih =>
    obtain ⟨b, hb, hsub⟩ := ih (by simpa [statements] using h)
    exact ⟨b, hb, fun l hl => by simp [yield, hsub l hl]⟩
  | block n b others _ ih =>
    obtain h | h := List.mem_cons.1 h
    · cases h
      exact ⟨b, rfl, fun l hl => by simp [yield, hl]⟩
    · obtain ⟨b', hb, hsub⟩ := ih h
      exact ⟨b', hb, fun l hl => by simp [yield, hsub l hl]⟩
  | rule r others ih =>
    obtain ⟨b, hb, hsub⟩ := ih (by simpa [statements] using h)
    exact ⟨b, hb, fun l hl => List.mem_append_right _ (hsub l hl)⟩

theorem Grammar.Items.word_mem {items : Items} {key : String} {value : Config.Value}
    (h : .assignment key value ∈ items.statements) : .word key ∈ items.yield := by
  induction items with
  | nil => cases h
  | semicolon others ih => exact List.mem_cons_of_mem _ (ih h)
  | assignment k v others ih =>
    obtain h | h := List.mem_cons.1 h
    · cases h
      exact List.mem_cons_self
    · simp [yield, ih h]
  | block name body others _ ih => simp [yield, ih (by simpa [statements] using h)]
  | rule r others ih => exact List.mem_append_right _ (ih (by simpa [statements] using h))

end Config
end ProxyPlane
