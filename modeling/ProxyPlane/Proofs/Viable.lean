import Mathlib.Order.Bounds.Defs
import ProxyPlane.Proofs.Layout
import ProxyPlane.Proofs.LookAhead

/-!
# Where a text stops being one

The readers take what begins some statements and refuse a text at a token that they do not look for.
This is the first token with which no statements go on, and the place that is reported is the place
of its first character.

There is one exception.  A target cannot be negated, so a rule is lost at a `!` behind its arrow;
but the target is read like any other call first, and is refused behind that.

## Main definitions

* `Grammar.Viable` — some statements begin with these tokens, up to and with one of them.
* `Grammar.NegatesTarget` — a token is a `!` behind an arrow.
* `remains` — the tokens that a reader leaves or refuses, which are the last ones that it was given.
* `Points` — where a refusal is reported.
* `readStatements_stuck` — where statements are refused.
* `parseSection_position` — where a refused section is lost, and where that is reported.
-/

set_option autoImplicit false
namespace ProxyPlane
namespace Config

open Grammar

namespace Grammar

/-- Some statements begin with these tokens, up to and with the one at `n`.  The end of the tokens
counts as one more token. -/
def Viable (ls : List Lexeme) (n : Nat) : Prop :=
  ∃ items : Items, ∀ m ≤ n, items.yield[m]? = ls[m]?

/-- The token at `n` is a `!` in the place of the target of a rule. -/
def NegatesTarget (ls : List Lexeme) (n : Nat) : Prop :=
  0 < n ∧ ls[n - 1]? = some .arrow ∧ ls[n]? = some .negation

end Grammar

/-! ## Where a refusal is reported -/

section
variable {α β : Type} {P Q : List Token → Prop}

/-- The tokens that a reader leaves, or those that it refuses. -/
def remains : Except Refusal (α × { rest : List Token // P rest }) → List Token
  | .ok (_, rest) => rest.1
  | .error e => e.rest

theorem remains_bind {x : Except Refusal (α × { rest : List Token // P rest })}
    {tokens : List Token}
    {f : α × { rest : List Token // P rest } → Except Refusal (β × { rest : List Token // Q rest })}
    (hx : remains x <:+ tokens) (hf : ∀ a rest h, remains (f (a, ⟨rest, h⟩)) <:+ rest) :
    remains (x >>= f) <:+ tokens := by
  match x, hx with
  | .error e, hx => exact hx
  | .ok (a, ⟨rest, h⟩), hx => exact (hf a rest h).trans hx

end

theorem remains_readScalar (tokens : List Token) : remains (readScalar tokens) <:+ tokens := by
  unfold readScalar
  split
  · exact List.suffix_cons _ _
  · exact List.suffix_cons _ _
  · exact List.suffix_rfl

theorem remains_readArgument (tokens : List Token) : remains (readArgument tokens) <:+ tokens := by
  refine remains_bind (remains_readScalar tokens) fun first rest h => ?_
  dsimp only
  split
  · next p more h =>
    exact (remains_bind (remains_readScalar more) fun _ _ _ => List.suffix_rfl).trans
      (List.suffix_cons _ _)
  · exact List.suffix_rfl

theorem remains_readArguments (tokens : List Token) :
    remains (readArguments tokens) <:+ tokens := by
  unfold readArguments
  refine remains_bind (remains_readArgument tokens) fun first rest h => ?_
  dsimp only
  split
  · next p more h =>
    have hless : more.length < tokens.length := Nat.lt_of_succ_lt h
    exact (remains_bind (remains_readArguments more) fun _ _ _ => List.suffix_rfl).trans
      (List.suffix_cons _ _)
  · exact List.suffix_cons _ _
  · exact List.suffix_rfl
termination_by tokens.length

theorem remains_readNamed (negated required : Bool) (tokens : List Token) :
    remains (readNamed negated required tokens) <:+ tokens := by
  unfold readNamed
  split
  · next name p q r rest => exact ⟨[⟨.word name, p⟩, ⟨.openParen, q⟩, ⟨.closeParen, r⟩], rfl⟩
  · next name p q more _ =>
    refine (remains_bind (remains_readArguments more) fun _ _ _ => List.suffix_rfl).trans ?_
    exact ⟨[⟨.word name, p⟩, ⟨.openParen, q⟩], rfl⟩
  · split
    · exact List.suffix_cons _ _
    · exact List.suffix_cons _ _
  · exact List.suffix_rfl

theorem remains_readCall (required : Bool) (tokens : List Token) :
    remains (readCall required tokens) <:+ tokens := by
  unfold readCall
  split
  · next p more =>
    exact (remains_bind (remains_readNamed true required more) fun _ _ _ => List.suffix_rfl).trans
      (List.suffix_cons _ _)
  · exact remains_readNamed false required tokens

theorem remains_readChain (tokens : List Token) : remains (readChain tokens) <:+ tokens := by
  unfold readChain
  refine remains_bind (remains_readCall true tokens) fun first rest h => ?_
  dsimp only
  split
  · next p more h =>
    have hless : more.length < tokens.length := Nat.lt_of_succ_lt h
    exact (remains_bind (remains_readChain more) fun _ _ _ => List.suffix_rfl).trans
      (List.suffix_cons _ _)
  · exact List.suffix_rfl
termination_by tokens.length

theorem remains_readRule (tokens : List Token) : remains (readRule tokens) <:+ tokens := by
  refine remains_bind (remains_readChain tokens) fun conditions rest h => ?_
  dsimp only
  split
  · next p more h =>
    refine (remains_bind (remains_readCall false more) fun outbound rest h => ?_).trans
      (List.suffix_cons _ _)
    dsimp only
    split <;> exact List.suffix_rfl
  · exact List.suffix_rfl

theorem remains_readValue (tokens : List Token) : remains (readValue tokens) <:+ tokens := by
  unfold readValue
  split
  · exact remains_bind (remains_readChain tokens) fun _ _ _ => List.suffix_rfl
  · exact remains_bind (remains_readScalar tokens) fun _ _ _ => List.suffix_rfl

theorem remains_readStatements (nested : Bool) (tokens : List Token) :
    remains (readStatements nested tokens) <:+ tokens := by
  induction nested, tokens using readStatements.induct with
  | case1 =>
    rw [readStatements]
    exact List.suffix_rfl
  | case2 nested hn =>
    rw [readStatements, if_neg hn]
    exact List.suffix_rfl
  | case3 p rest =>
    rw [readStatements]
    exact List.suffix_cons _ _
  | case4 nested p rest hn =>
    rw [readStatements, if_neg hn]
    exact List.suffix_rfl
  | case5 nested p more ih =>
    rw [readStatements]
    exact (remains_bind ih fun _ _ _ => List.suffix_rfl).trans (List.suffix_cons _ _)
  | case6 nested key p q more ih =>
    rw [readStatements]
    refine (remains_bind (remains_readValue more) fun value more' h => ?_).trans
      ⟨[⟨.word key, p⟩, ⟨.colon, q⟩], rfl⟩
    exact remains_bind (ih more' h) fun _ _ _ => List.suffix_rfl
  | case7 nested name p q more ihb ih =>
    rw [readStatements]
    refine (remains_bind ihb fun body more' h => ?_).trans ⟨[⟨.word name, p⟩, ⟨.openBrace, q⟩], rfl⟩
    exact remains_bind (ih more' h) fun _ _ _ => List.suffix_rfl
  | case8 nested name p more hc hb ih =>
    rw [readStatements]
    rotate_left
    · exact hc
    · exact hb
    refine remains_bind (remains_readRule _) fun rule more' h => ?_
    exact remains_bind (ih more' h) fun _ _ _ => List.suffix_rfl
  | case9 nested p more ih =>
    rw [readStatements]
    refine remains_bind (remains_readRule _) fun rule more' h => ?_
    exact remains_bind (ih more' h) fun _ _ _ => List.suffix_rfl
  | case10 =>
    rw [readStatements]
    · exact List.suffix_rfl
    all_goals assumption

/-! ## Arrows -/

theorem Grammar.Separated.not_mem_yield {α : Type} {separator l : Lexeme} {item : α → List Lexeme}
    (hseparator : l ≠ separator) (hitem : ∀ a, l ∉ item a) (phrases : Separated α) :
    l ∉ phrases.yield separator item := by
  induction phrases with
  | one a => exact hitem a
  | more a others ih =>
    rw [Separated.yield, List.mem_append, List.mem_cons]
    rintro (h | h | h)
    · exact hitem a h
    · exact hseparator h
    · exact ih h

theorem arrow_ne_lexemeOf (s : Scalar) : .arrow ≠ lexemeOf s :=
  (lexemeOf_ne (l := .arrow) (by simp) (by simp)).symm

theorem arrow_not_mem_target (name : String) (args : Option Args) : .arrow ∉ target name args := by
  have hparam (p : Param) : .arrow ∉ p.yield := by
    obtain ⟨s, _ | v⟩ := p <;> simp [Param.yield, arrow_ne_lexemeOf]
  rcases args with _ | _ | params
  · simp [target]
  · simp [target, Args.yield]
  · have hparams : .arrow ∉ params.yield .comma Param.yield :=
      Separated.not_mem_yield (by simp) hparam params
    simp [target, Args.yield, hparams]

theorem arrow_not_mem_chain (chain : Chain) : .arrow ∉ Chain.yield chain := by
  rw [Chain.yield]
  refine Separated.not_mem_yield (by simp) (fun fn => ?_) chain
  rw [Fn.yield, List.mem_append, not_or]
  refine ⟨?_, arrow_not_mem_target _ _⟩
  rw [sign]
  split <;> simp

theorem arrow_not_mem_value (value : Grammar.Value) : .arrow ∉ value.yield := by
  cases value with
  | chain chain => exact arrow_not_mem_chain chain
  | scalar s => simp [Grammar.Value.yield, arrow_ne_lexemeOf]

/-! ## Rules, values and statements -/

/-- Where a refusal is reported: at the refused token, unless this is a `!` behind an arrow; then it
is reported further behind. -/
def Points (done left : List Lexeme) (rest : List Token) : Prop :=
  if done.getLast? = some .arrow ∧ left.head? = some .negation then rest.length < left.length
  else lexemes rest = left

theorem points_of_not_mem {done : List Lexeme} (h : .arrow ∉ done) (rest : List Token) :
    Points done (lexemes rest) rest := by
  refine (if_neg ?_).mpr rfl
  rintro ⟨harrow, -⟩
  exact h (List.mem_of_getLast? harrow)

/-- What is in front of a phrase does not matter, if it does not end with an arrow. -/
theorem Points.append {front done left : List Lexeme} {rest : List Token}
    (h : Points done left rest) (hfront : front.getLast? ≠ some .arrow) :
    Points (front ++ done) left rest := by
  cases done with
  | nil =>
    rw [Points, List.append_nil, if_neg fun hc => hfront hc.1]
    exact (if_neg (by simp)).mp h
  | cons l done =>
    have hlast : (front ++ l :: done).getLast? = (l :: done).getLast? := by
      rw [List.getLast?_append, List.getLast?_cons, Option.some_or]
    rw [Points, hlast]
    exact h

theorem readCall_eq {required : Bool} {tokens : List Token}
    (h : (lexemes tokens).head? ≠ some .negation) :
    readCall required tokens = readNamed false required tokens := by
  unfold readCall
  split
  · exact absurd rfl h
  · rfl

/-- The parts of a rule that is read. -/
theorem readRule_parts {tokens : List Token} {rule : Rule} {left : List Lexeme}
    (h : Reads (readRule tokens) rule left) :
    ∃ chain rest h, readChain tokens = .ok (chain, ⟨rest, h⟩) ∧
      (lexemes rest).head? = some .arrow ∧ ∀ p more, rest = ⟨.arrow, p⟩ :: more →
        (lexemes more).head? ≠ some .negation ∧
          ∃ call left, Reads (readNamed false false more) call left := by
  obtain ⟨chain, rest, hl, hx, hk⟩ := reads_bind.1 h
  refine ⟨chain, rest, hl, hx, ?_⟩
  dsimp only at hk
  split at hk
  · next q more hl' =>
    refine ⟨rfl, ?_⟩
    rintro p _ heq
    cases heq
    obtain ⟨call, rest', hl', hc, hk'⟩ := reads_bind.1 hk
    have hhead : (lexemes more).head? ≠ some .negation := by
      obtain ⟨negated, name, args, rfl, he, -⟩ := readCall_sound ⟨rest', hl', hc, rfl⟩
      cases negated with
      | true => exact absurd hk' not_reads_error
      | false =>
        rw [he]
        cases args <;> simp [sign, target]
    rw [readCall_eq hhead] at hc
    exact ⟨hhead, call, _, rest', hl', hc, rfl⟩
  · exact absurd hk not_reads_error

/-- A negated call is read or refused behind its `!`. -/
theorem length_remains_readCall {required : Bool} {tokens : List Token}
    (h : (lexemes tokens).head? = some .negation) :
    (remains (readCall required tokens)).length < tokens.length := by
  obtain ⟨p, more, rfl⟩ := exists_of_head? h
  have hremains : remains (readCall required (⟨.negation, p⟩ :: more)) <:+ more :=
    remains_bind (remains_readNamed true required more) fun _ _ _ => List.suffix_rfl
  exact Nat.lt_succ_of_le hremains.length_le

theorem readRule_stuck {tokens : List Token} {e : Refusal} (h : readRule tokens = .error e) :
    ∃ done left, Stuck readRule Grammar.Rule.yield tokens done left ∧ Points done left e.rest := by
  obtain hs | ⟨⟨first, rest, hl⟩, hs, hk⟩ := error_of_bind h
  · obtain ⟨done, hstuck⟩ := readChain_stuck hs
    refine ⟨done, _, hstuck.first (fun hr => ?_) fun chain => ⟨⟨chain, "", none⟩, _, rfl⟩,
      points_of_not_mem (fun harrow => ?_) _⟩
    · obtain ⟨chain, rest, h, hx, -⟩ := readRule_parts hr
      exact ⟨chain, _, rest, h, hx, rfl⟩
    · obtain ⟨chain, more, hmore⟩ := hstuck.opens
      exact arrow_not_mem_chain chain (hmore ▸ List.mem_append_left more harrow)
  · have hr : Reads (readChain tokens) first (lexemes rest) := ⟨_, hl, hs, rfl⟩
    obtain ⟨chain, rfl, he, -⟩ := readChain_sound hr
    dsimp only at hk
    split at hk
    · next q more hl' =>
      by_cases hnegation : (lexemes more).head? = some .negation
      · refine ⟨Chain.yield chain ++ [.arrow], lexemes more,
          ⟨?_, ⟨⟨chain, "", none⟩, [.word ""], ?_⟩, fun {tokens' left' b l} hs' hleft hr' => ?_⟩,
          ?_⟩
        · rw [he, List.append_assoc]
          rfl
        · rw [List.append_assoc]
          rfl
        · obtain ⟨chain', rest', h', hx, -, hparts⟩ := readRule_parts hr'
          have hrest := readChain_settles.rest_eq [.arrow] hr he hs' hleft hx
          obtain ⟨p, more', rfl, rfl⟩ := exists_of_lexemes hrest
          exact (hparts p more' rfl).1 (hleft.trans hnegation)
        · have hrest : remains (readCall false more) = e.rest := by
            obtain hc | ⟨⟨call, rest', h'⟩, hc, hk⟩ := error_of_bind hk
            · rw [hc]
              rfl
            · dsimp only at hk
              split at hk <;> cases hk
              rw [hc]
              rfl
          refine (if_pos ⟨by rw [List.getLast?_concat], hnegation⟩).mpr ?_
          rw [← hrest, lexemes, List.length_map]
          exact length_remains_readCall hnegation
      · rw [readCall_eq hnegation] at hk
        obtain hn | ⟨⟨call, rest', h'⟩, hn, hk⟩ := error_of_bind hk
        · obtain ⟨done, hstuck⟩ := readNamed_stuck hn
          refine ⟨_, _, hstuck.second readChain_settles hr he (fun hr' => ?_)
            fun call => ⟨⟨chain, call.1, some call.2⟩, [], ?_⟩, ?_⟩
          · obtain ⟨chain', rest', h', hx, -, hparts⟩ := readRule_parts hr'
            exact ⟨chain', rest', h', hx, fun p more heq => (hparts p more heq).2⟩
          · simp [Grammar.Rule.yield]
          · refine (if_neg ?_).mpr rfl
            rintro ⟨hlast, hhead⟩
            cases done with
            | nil => exact hnegation (hstuck.split ▸ hhead)
            | cons l done =>
              obtain ⟨call, more', hmore⟩ := hstuck.opens
              rw [List.getLast?_append, List.getLast?_cons_cons, List.getLast?_cons,
                Option.some_or, ← List.getLast?_cons] at hlast
              exact arrow_not_mem_target call.1 (some call.2)
                (hmore ▸ List.mem_append_left more' (List.mem_of_getLast? hlast))
        · obtain ⟨name, args, rfl, -⟩ := readNamed_sound ⟨rest', h', hn, rfl⟩
          cases hk
    · next harrow =>
      cases hk
      refine ⟨_, _, .next readChain_settles hr he (fun hr' => ?_) ⟨⟨chain, "", none⟩, _, rfl⟩,
        points_of_not_mem (arrow_not_mem_chain chain) _⟩
      obtain ⟨chain', rest', h', hx, hhead, -⟩ := readRule_parts hr'
      refine ⟨chain', rest', h', hx, fun heq => ?_⟩
      obtain ⟨p, more, rfl⟩ := exists_of_head? (heq.symm.trans hhead)
      exact harrow p more hl rfl HEq.rfl

theorem opensCall_take (ls : List Lexeme) : OpensCall (ls.take 2) ↔ OpensCall ls := by
  match ls with
  | [] | [_] => rfl
  | l :: l' :: more =>
    cases l with
    | word text => cases l' <;> rfl
    | _ => rfl

/-- What begins a call is a negation or a word. -/
theorem head?_of_opensCall {ls : List Lexeme} (h : OpensCall ls) :
    ls.head? = some .negation ∨ ∃ text, ls.head? = some (.word text) := by
  match ls, h with
  | .negation :: _, _ => exact .inl rfl
  | .word text :: .openParen :: _, _ => exact .inr ⟨text, rfl⟩

/-- Tokens as some text may have them. -/
def tokensOf (ls : List Lexeme) : List Token := ls.map (⟨·, .start⟩)

@[simp]
theorem lexemes_tokensOf (ls : List Lexeme) : lexemes (tokensOf ls) = ls := by
  simp [lexemes, tokensOf, Function.comp_def]

/-- Some call begins like the tokens of any call. -/
theorem exists_fn {ls : List Lexeme}
    (h : ls.head? = some .negation ∨ ∃ text, ls.head? = some (.word text)) :
    ∃ fn : Fn, fn.yield.head? = ls.head? := by
  obtain h | ⟨text, h⟩ := h
  · exact ⟨⟨true, "", .empty⟩, h.symm⟩
  · exact ⟨⟨false, text, .empty⟩, h.symm⟩

theorem readValue_stuck {tokens : List Token} {e : Refusal} (h : readValue tokens = .error e) :
    ∃ done, Stuck readValue Grammar.Value.yield tokens done (lexemes e.rest) := by
  unfold readValue at h
  split at h
  · next hcall =>
    rw [beginsCall_iff] at hcall
    obtain hc | ⟨_, -, hk⟩ := error_of_bind h
    · obtain ⟨done, hstuck⟩ := readChain_stuck hc
      have hdone : done ≠ [] := by
        obtain ⟨fn, hfn⟩ := exists_fn (head?_of_opensCall hcall)
        have hreads : Reads (readChain (tokensOf fn.yield)) (Chain.calls (.one fn)) [] :=
          readChain_takes.complete (by simp [Chain.yield, Separated.yield]) (clear_nil _)
        exact hstuck.ne_nil hreads (by rw [lexemes_tokensOf, hfn])
      refine ⟨done, hstuck.split, ?_, fun {tokens' left' b l} hs hleft hr => ?_⟩
      · obtain ⟨chain, hchain⟩ := hstuck.opens
        exact ⟨.chain chain, hchain⟩
      · obtain ⟨value, -, he, hbehind⟩ := readValue_takes.sound hr
        cases value with
        | chain chain => exact hstuck.blocked hs hleft (readChain_takes.complete he hbehind)
        | scalar s =>
          have hopens : OpensCall (lexemes tokens') := by
            rwa [← opensCall_take, hstuck.take_two hdone hs hleft, opensCall_take]
          rw [he] at hopens
          exact hbehind hopens
    · cases hk
  · next hcall =>
    rw [beginsCall_iff] at hcall
    obtain hc | ⟨_, -, hk⟩ := error_of_bind h
    · obtain ⟨done, hstuck⟩ := readScalar_stuck hc
      refine ⟨done, hstuck.split, ?_, fun {tokens' left' b l} hs hleft hr => ?_⟩
      · obtain ⟨s, hs⟩ := hstuck.opens
        exact ⟨.scalar s, hs⟩
      · obtain ⟨value, -, he, hbehind⟩ := readValue_takes.sound hr
        cases value with
        | scalar s =>
          exact hstuck.blocked hs hleft (readScalar_recognizes.complete he (clear_empty _))
        | chain chain =>
          have hopens : OpensCall (lexemes tokens') := he ▸ Chain.opensCall chain l
          have hhead := hstuck.head? hs hleft
          obtain hneg | ⟨text, hword⟩ := head?_of_opensCall hopens
          · obtain ⟨p, rest, rfl⟩ := exists_of_head? (hhead.symm.trans hneg)
            exact hcall trivial
          · obtain ⟨p, rest, rfl⟩ := exists_of_head? (hhead.symm.trans hword)
            cases hc
    · cases hk

/-- Tokens that begin a rule, if they begin a statement. -/
def BeginsRule : List Lexeme → Prop
  | .negation :: _ => True
  | .word _ :: .colon :: _ => False
  | .word _ :: .openBrace :: _ => False
  | .word _ :: _ => True
  | _ => False

theorem beginsRule_take (ls : List Lexeme) : BeginsRule (ls.take 2) ↔ BeginsRule ls := by
  match ls with
  | [] | [_] => rfl
  | l :: l' :: more =>
    cases l with
    | word text => cases l' <;> rfl
    | _ => rfl

theorem head?_of_beginsRule {ls : List Lexeme} (h : BeginsRule ls) :
    ls.head? = some .negation ∨ ∃ text, ls.head? = some (.word text) := by
  match ls, h with
  | .negation :: _, _ => exact .inl rfl
  | .word text :: _, _ => exact .inr ⟨text, rfl⟩

theorem beginsRule_of_opensCall {ls : List Lexeme} (h : OpensCall ls) : BeginsRule ls := by
  match ls, h with
  | .negation :: _, _ => trivial
  | .word _ :: .openParen :: _, _ => trivial

/-- The parts of statements that are read and begin with a rule. -/
theorem readStatements_parts {nested : Bool} {tokens : List Token} {statements : List Statement}
    {left : List Lexeme} (hbegins : BeginsRule (lexemes tokens))
    (h : Reads (readStatements nested tokens) statements left) :
    ∃ rule rest h, readRule tokens = .ok (rule, ⟨rest, h⟩) ∧
      ∃ others left, Reads (readStatements nested rest) others left := by
  match tokens, hbegins with
  | ⟨.negation, p⟩ :: more, _ =>
    rw [readStatements] at h
    obtain ⟨rule, rest, hl, hr, hk⟩ := reads_bind.1 h
    obtain ⟨others, rest', hl', hs, hk'⟩ := reads_bind.1 hk
    exact ⟨rule, rest, hl, hr, others, _, rest', hl', hs, rfl⟩
  | ⟨.word name, p⟩ :: more, hbegins =>
    rw [readStatements] at h
    · obtain ⟨rule, rest, hl, hr, hk⟩ := reads_bind.1 h
      obtain ⟨others, rest', hl', hs, hk'⟩ := reads_bind.1 hk
      exact ⟨rule, rest, hl, hr, others, _, rest', hl', hs, rfl⟩
    · rintro q rest rfl
      exact hbegins
    · rintro q rest rfl
      exact hbegins

/-- Some rule begins like the tokens of any rule. -/
theorem exists_rule {ls : List Lexeme} (h : BeginsRule ls) :
    ∃ r : Grammar.Rule, r.yield.head? = ls.head? := by
  obtain ⟨fn, hfn⟩ := exists_fn (head?_of_beginsRule h)
  refine ⟨⟨.one fn, "", none⟩, ?_⟩
  rw [Grammar.Rule.yield, Chain.yield, Separated.yield, List.head?_append, hfn]
  obtain hneg | ⟨text, hword⟩ := head?_of_beginsRule h
  · rw [hneg, Option.some_or]
  · rw [hword, Option.some_or]

theorem getLast?_rule (r : Grammar.Rule) : r.yield.getLast? ≠ some .arrow := by
  intro h
  obtain ⟨l, more, hmore⟩ : ∃ l more, target r.outbound r.args = l :: more := by
    cases r.args <;> exact ⟨_, _, rfl⟩
  rw [Grammar.Rule.yield, hmore, List.getLast?_append, List.getLast?_cons_cons,
    List.getLast?_cons, Option.some_or, ← List.getLast?_cons, ← hmore] at h
  exact arrow_not_mem_target _ _ (List.mem_of_getLast? h)

/-- Statements are refused where they are lost, and this is reported as it should be. -/
def Blames (nested : Bool) (tokens : List Token) (e : Refusal) : Prop :=
  ∃ done left, Stuck (readStatements nested) Items.yield tokens done left ∧ Points done left e.rest

section
variable {nested : Bool} {tokens more : List Token} {e : Refusal}

/-- Where statements that begin with a rule are refused: in the rule, or behind it. -/
theorem blames_rule (hbegins : BeginsRule (lexemes tokens))
    (h : readRule tokens = .error e ∨ ∃ rule more h, readRule tokens = .ok (rule, ⟨more, h⟩) ∧
      Blames nested more e) : Blames nested tokens e := by
  obtain hr | ⟨rule, more, hl, hr, done, left, hstuck, hpoints⟩ := h
  · obtain ⟨done, left, hstuck, hpoints⟩ := readRule_stuck hr
    have hdone : done ≠ [] := by
      obtain ⟨r, hhead⟩ := exists_rule hbegins
      have hreads : Reads (readRule (tokensOf r.yield)) r.rule [] :=
        readRule_takes.complete (by simp) fun _ => clear_nil _
      exact hstuck.ne_nil hreads (by rw [lexemes_tokensOf, hhead])
    refine ⟨done, left, ⟨hstuck.split, ?_, fun {tokens' left' b l} hs hleft hr' => ?_⟩, hpoints⟩
    · obtain ⟨r, more, hmore⟩ := hstuck.opens
      exact ⟨.rule r .nil, more, by simp [Items.yield, hmore]⟩
    · have hbegins' : BeginsRule (lexemes tokens') := by
        rwa [← beginsRule_take, hstuck.take_two hdone hs hleft, beginsRule_take]
      obtain ⟨rule, rest, hl, hx, -⟩ := readStatements_parts hbegins' hr'
      exact hstuck.blocked hs hleft ⟨rest, hl, hx, rfl⟩
  · have hreads : Reads (readRule tokens) rule (done ++ left) := ⟨more, hl, hr, hstuck.split⟩
    obtain ⟨r, rfl, he, -⟩ := readRule_takes.sound hreads
    refine ⟨r.yield ++ done, left, ⟨?_, ?_, fun {tokens' left' b l} hs hleft hr' => ?_⟩,
      hpoints.append (getLast?_rule r)⟩
    · rw [he, List.append_assoc]
    · obtain ⟨items, more, hmore⟩ := hstuck.opens
      exact ⟨.rule r items, more, by rw [Items.yield, hmore, List.append_assoc]⟩
    · have hopens : OpensCall (lexemes tokens') := by
        rw [hs, List.append_assoc]
        exact r.opensCall _
      obtain ⟨rule, rest, hl, hx, others, l', hothers⟩ :=
        readStatements_parts (beginsRule_of_opensCall hopens) hr'
      exact hstuck.blocked (readRule_settles.rest_eq done hreads he hs hleft hx) hleft hothers

theorem blames_semicolon {p : Position} (h : Blames nested more e) :
    Blames nested (⟨.semicolon, p⟩ :: more) e := by
  obtain ⟨done, left, hstuck, hpoints⟩ := h
  have hfront : lexemes (⟨.semicolon, p⟩ :: more) = [.semicolon] ++ lexemes more := rfl
  refine ⟨_, left, hstuck.prepend hfront (fun hs hr => ?_) fun items =>
    ⟨.semicolon items, [], by simp [Items.yield]⟩, hpoints.append (by simp)⟩
  obtain ⟨q, more', rfl, hmore⟩ := exists_of_lexemes hs
  rw [readStatements] at hr
  obtain ⟨statements, rest, hl, hs, -⟩ := reads_bind.1 hr
  exact ⟨more', hmore, statements, _, rest, hl, hs, rfl⟩

/-- Where statements that begin with an assignment are refused: in the value, or behind it. -/
theorem blames_assignment {key : String} {p q : Position}
    (h : readValue more = .error e ∨ ∃ value more' h, readValue more = .ok (value, ⟨more', h⟩) ∧
      Blames nested more' e) : Blames nested (⟨.word key, p⟩ :: ⟨.colon, q⟩ :: more) e := by
  have hfront : lexemes (⟨.word key, p⟩ :: ⟨.colon, q⟩ :: more) =
      [.word key, .colon] ++ lexemes more := rfl
  have hread {tokens : List Token} {ls l : List Lexeme} {b : List Statement}
      (hs : lexemes tokens = [.word key, .colon] ++ ls)
      (hr : Reads (readStatements nested tokens) b l) :
      ∃ inner, lexemes inner = ls ∧ ∃ value rest h, readValue inner = .ok (value, ⟨rest, h⟩) ∧
        ∃ b l, Reads (readStatements nested rest) b l := by
    obtain ⟨p, _, rfl, hs'⟩ := exists_of_lexemes hs
    obtain ⟨q, inner, rfl, hinner⟩ := exists_of_lexemes hs'
    rw [readStatements] at hr
    obtain ⟨value, rest, hl, hv, hk⟩ := reads_bind.1 hr
    obtain ⟨others, rest', hl', ho, -⟩ := reads_bind.1 hk
    exact ⟨inner, hinner, value, rest, hl, hv, others, _, rest', hl', ho, rfl⟩
  obtain hv | ⟨value, more', hl, hv, done, left, hstuck, hpoints⟩ := h
  · obtain ⟨done, hstuck⟩ := readValue_stuck hv
    refine ⟨_, _, hstuck.prepend hfront (fun hs hr => ?_) fun v =>
      ⟨.assignment key v .nil, [], rfl⟩, ?_⟩
    · obtain ⟨inner, hinner, value, rest, hl, hv, -⟩ := hread hs hr
      exact ⟨inner, hinner, value, _, rest, hl, hv, rfl⟩
    · obtain ⟨v, more, hmore⟩ := hstuck.opens
      have harrow : .arrow ∉ done := fun hmem =>
        arrow_not_mem_value v (hmore ▸ List.mem_append_left more hmem)
      exact points_of_not_mem (by simp [harrow]) _
  · have hreads : Reads (readValue more) value (lexemes more') := ⟨more', hl, hv, rfl⟩
    obtain ⟨v, rfl, he, -⟩ := readValue_takes.sound hreads
    refine ⟨_, left, hstuck.prepend_part readValue_settles hfront hreads he hread fun items =>
      ⟨.assignment key v items, [], by simp [Items.yield]⟩, hpoints.append fun hlast => ?_⟩
    simpa [arrow_not_mem_value] using List.mem_of_getLast? hlast

/-- Where statements that begin with a block are refused: in the block, or behind it. -/
theorem blames_block {name : String} {p q : Position}
    (h : Blames true more e ∨ ∃ body more' h, readStatements true more = .ok (body, ⟨more', h⟩) ∧
      Blames nested more' e) : Blames nested (⟨.word name, p⟩ :: ⟨.openBrace, q⟩ :: more) e := by
  have hfront : lexemes (⟨.word name, p⟩ :: ⟨.openBrace, q⟩ :: more) =
      [.word name, .openBrace] ++ lexemes more := rfl
  have hread {tokens : List Token} {ls l : List Lexeme} {b : List Statement}
      (hs : lexemes tokens = [.word name, .openBrace] ++ ls)
      (hr : Reads (readStatements nested tokens) b l) :
      ∃ inner, lexemes inner = ls ∧ ∃ body rest h,
        readStatements true inner = .ok (body, ⟨rest, h⟩) ∧
          ∃ b l, Reads (readStatements nested rest) b l := by
    obtain ⟨p, _, rfl, hs'⟩ := exists_of_lexemes hs
    obtain ⟨q, inner, rfl, hinner⟩ := exists_of_lexemes hs'
    rw [readStatements] at hr
    obtain ⟨body, rest, hl, hb, hk⟩ := reads_bind.1 hr
    obtain ⟨others, rest', hl', ho, -⟩ := reads_bind.1 hk
    exact ⟨inner, hinner, body, rest, hl, hb, others, _, rest', hl', ho, rfl⟩
  obtain ⟨done, left, hstuck, hpoints⟩ | ⟨body, more', hl, hb, done, left, hstuck, hpoints⟩ := h
  · refine ⟨_, left, hstuck.prepend hfront (fun hs hr => ?_) fun body =>
      ⟨.block name body .nil, _, rfl⟩, hpoints.append (by simp)⟩
    obtain ⟨inner, hinner, body, rest, hl, hb, -⟩ := hread hs hr
    exact ⟨inner, hinner, body, _, rest, hl, hb, rfl⟩
  · have hreads : Reads (readStatements true more) body (lexemes more') := ⟨more', hl, hb, rfl⟩
    obtain ⟨items, rfl, he⟩ := readBody_recognizes.sound hreads
    refine ⟨_, left, hstuck.prepend_part readBody_recognizes.settles hfront hreads he hread
      fun others => ⟨.block name items others, [], by simp [Items.yield]⟩, hpoints.append ?_⟩
    rw [← List.append_assoc, List.getLast?_concat]
    simp

/-- What statements and the end behind them begin with. -/
theorem head?_items (items : Items) (left : List Lexeme) (hleft : nested = false → left = []) :
    (items.yield ++ closing nested left).head? = (if nested then some .closeBrace else none) ∨
      (items.yield ++ closing nested left).head? = some .semicolon ∨
      (items.yield ++ closing nested left).head? = some .negation ∨
      ∃ text, (items.yield ++ closing nested left).head? = some (.word text) := by
  cases items with
  | nil =>
    cases nested with
    | true => exact .inl rfl
    | false =>
      rw [hleft rfl]
      exact .inl rfl
  | semicolon others => exact .inr (.inl rfl)
  | assignment key value others => exact .inr (.inr (.inr ⟨key, rfl⟩))
  | block name body others => exact .inr (.inr (.inr ⟨name, rfl⟩))
  | rule r others =>
    rw [Items.yield, List.append_assoc]
    exact .inr (.inr (head?_of_opensCall (r.opensCall _)))

/-- Where the first token begins no statement, and is not where they end, they are refused. -/
theorem blames_first
    (hend : (lexemes tokens).head? ≠ if nested then some .closeBrace else none)
    (hsemicolon : (lexemes tokens).head? ≠ some .semicolon)
    (hnegation : (lexemes tokens).head? ≠ some .negation)
    (hword : ∀ text, (lexemes tokens).head? ≠ some (.word text)) (hrest : e.rest = tokens) :
    Blames nested tokens e := by
  refine ⟨[], _, ⟨rfl, ⟨.nil, [], rfl⟩, fun {tokens' left' b l} hs hleft hr => ?_⟩,
    hrest ▸ points_of_not_mem List.not_mem_nil _⟩
  obtain ⟨items, -, he, hn⟩ := readStatements_sound hr
  have hhead : (items.yield ++ closing nested l).head? = (lexemes tokens).head? := by
    rw [← he, hs]
    exact hleft
  have hbegins := head?_items items l hn
  rw [hhead] at hbegins
  obtain h | h | h | ⟨text, h⟩ := hbegins
  · exact hend h
  · exact hsemicolon h
  · exact hnegation h
  · exact hword text h

end

/-- **Where statements are refused.** -/
theorem readStatements_stuck {nested : Bool} {tokens : List Token} {e : Refusal}
    (h : readStatements nested tokens = .error e) : Blames nested tokens e := by
  induction nested, tokens using readStatements.induct generalizing e with
  | case1 =>
    rw [readStatements] at h
    cases h
    exact blames_first (by simp [lexemes]) (by simp [lexemes]) (by simp [lexemes])
      (by simp [lexemes]) rfl
  | case2 nested hn =>
    rw [readStatements, if_neg hn] at h
    cases h
  | case3 p rest =>
    rw [readStatements] at h
    cases h
  | case4 nested p rest hn =>
    rw [readStatements, if_neg hn] at h
    cases h
    exact blames_first (by simp [hn]) (by simp) (by simp) (by simp) rfl
  | case5 nested p more ih =>
    rw [readStatements] at h
    obtain hs | ⟨_, -, hk⟩ := error_of_bind h
    · exact blames_semicolon (ih hs)
    · cases hk
  | case6 nested key p q more ih =>
    rw [readStatements] at h
    refine blames_assignment ?_
    obtain hv | ⟨⟨value, more', hl⟩, hv, hk⟩ := error_of_bind h
    · exact .inl hv
    · obtain hs | ⟨_, -, hk⟩ := error_of_bind hk
      · exact .inr ⟨value, more', hl, hv, ih more' hl hs⟩
      · cases hk
  | case7 nested name p q more ihb ih =>
    rw [readStatements] at h
    refine blames_block ?_
    obtain hb | ⟨⟨body, more', hl⟩, hb, hk⟩ := error_of_bind h
    · exact .inl (ihb hb)
    · obtain hs | ⟨_, -, hk⟩ := error_of_bind hk
      · exact .inr ⟨body, more', hl, hb, ih more' hl hs⟩
      · cases hk
  | case8 nested name p more hc hb ih =>
    rw [readStatements] at h
    rotate_left
    · exact hc
    · exact hb
    have hbegins : BeginsRule (lexemes (⟨.word name, p⟩ :: more)) := by
      rcases more with _ | ⟨⟨l, q⟩, more⟩
      · trivial
      · cases l with
        | colon => exact hc q more rfl
        | openBrace => exact hb q more rfl
        | _ => trivial
    refine blames_rule hbegins ?_
    obtain hr | ⟨⟨rule, more', hl⟩, hr, hk⟩ := error_of_bind h
    · exact .inl hr
    · obtain hs | ⟨_, -, hk⟩ := error_of_bind hk
      · exact .inr ⟨rule, more', hl, hr, ih more' hl hs⟩
      · cases hk
  | case9 nested p more ih =>
    rw [readStatements] at h
    refine blames_rule trivial ?_
    obtain hr | ⟨⟨rule, more', hl⟩, hr, hk⟩ := error_of_bind h
    · exact .inl hr
    · obtain hs | ⟨_, -, hk⟩ := error_of_bind hk
      · exact .inr ⟨rule, more', hl, hr, ih more' hl hs⟩
      · cases hk
  | case10 nested tokens hnil hbrace hsemicolon _ _ hword hnegation =>
    have hrest : e.rest = tokens := by
      rw [readStatements] at h
      · cases h
        rfl
      all_goals assumption
    refine blames_first ?_ ?_ ?_ ?_ hrest
    · intro hend
      cases nested with
      | true =>
        obtain ⟨p, rest, rfl⟩ := exists_of_head? hend
        exact hbrace _ _ rfl
      | false => exact hnil (eq_nil_of_lexemes (List.head?_eq_none_iff.1 hend))
    · intro hhead
      obtain ⟨p, rest, rfl⟩ := exists_of_head? hhead
      exact hsemicolon _ _ rfl
    · intro hhead
      obtain ⟨p, rest, rfl⟩ := exists_of_head? hhead
      exact hnegation _ _ rfl
    · intro text hhead
      obtain ⟨p, rest, rfl⟩ := exists_of_head? hhead
      exact hword _ _ _ rfl

/-! ## Sections -/

/-- The first element of what is behind a list. -/
theorem getElem?_length_append {α : Type} (done left : List α) :
    (done ++ left)[done.length]? = left.head? := by
  rw [List.getElem?_append_right (Nat.le_refl _), Nat.sub_self, List.head?_eq_getElem?]

/-- **The first token that is lost** is the one behind what a reader of statements has taken. -/
theorem Stuck.isLeast {tokens : List Token} {done left : List Lexeme}
    (h : Stuck (readStatements false) Items.yield tokens done left) :
    IsLeast {n | ¬ Viable (lexemes tokens) n} done.length := by
  rw [h.split]
  constructor
  · rintro ⟨items, hagree⟩
    have hbegins : done <+: items.yield := by
      refine List.prefix_iff_getElem?.2 fun m hm => ?_
      rw [hagree m hm.le, List.getElem?_append_left hm, List.getElem?_eq_getElem hm]
    obtain ⟨left', hleft'⟩ := hbegins
    have hnext : left'.head? = left.head? := by
      have hat := hagree done.length (Nat.le_refl _)
      rwa [← hleft', getElem?_length_append, getElem?_length_append] at hat
    have hreads : Reads (readStatements false (tokensOf items.yield)) items.statements [] :=
      readStatements_complete (by simp [closing]) fun _ => rfl
    exact h.blocked (by rw [lexemes_tokensOf, hleft']) hnext hreads
  · intro n hn
    refine Nat.not_lt.1 fun hlt => hn ?_
    obtain ⟨items, more, hmore⟩ := h.opens
    refine ⟨items, fun m hm => ?_⟩
    have hm : m < done.length := Nat.lt_of_le_of_lt hm hlt
    rw [hmore, List.getElem?_append_left hm, List.getElem?_append_left hm]

theorem negatesTarget_append {done left : List Lexeme} :
    NegatesTarget (done ++ left) done.length ↔
      done.getLast? = some .arrow ∧ left.head? = some .negation := by
  rw [NegatesTarget, getElem?_length_append, List.getLast?_eq_getElem?]
  cases done with
  | nil => simp
  | cons l done =>
    have hlast : (l :: done).length - 1 < (l :: done).length :=
      Nat.sub_lt (Nat.succ_pos _) Nat.one_pos
    rw [List.getElem?_append_left hlast]
    simp

/-- The place of a refusal is that of a token of the stream. -/
theorem Refusal.position_eq_place {stream : TokenStream} {refusal : Refusal}
    (h : refusal.rest <:+ stream.tokens) :
    refusal.position stream.finish =
      stream.place (stream.tokens.length - refusal.rest.length) := by
  obtain ⟨front, hfront⟩ := h
  have hlength : stream.tokens.length - refusal.rest.length = front.length := by
    rw [← hfront, List.length_append, Nat.add_sub_cancel]
  rw [TokenStream.place, hlength, ← hfront, Refusal.position, getElem?_length_append]

/-- A section that has tokens is refused by the reader of statements. -/
theorem exists_refusal {kind : SectionKind} {source : String} {stream : TokenStream}
    {e : GrammarError} (ht : tokenize source = .ok stream)
    (he : parseSection kind source = .error e) :
    ∃ refusal, readStatements false stream.tokens = .error refusal ∧
      e.position = refusal.position stream.finish := by
  unfold parseSection parse at he
  rw [ht] at he
  dsimp only at he
  split at he
  · next refusal hr =>
    cases he
    exact ⟨refusal, hr, rfl⟩
  · cases he

/-- **Where a refused section is lost, and where that is reported.** -/
theorem parseSection_position {kind : SectionKind} {source : String} {stream : TokenStream}
    {e : GrammarError} (ht : tokenize source = .ok stream)
    (he : parseSection kind source = .error e) :
    ∃ n, IsLeast {n | ¬ Viable (lexemes stream.tokens) n} n ∧
      (∃ before behind, source.toList = before ++ behind ∧ stream.Cut .start n before behind ∧
        stream.place n =
          ⟨1 + before.count '\n', 1 + (before.reverse.takeWhile (· ≠ '\n')).length⟩) ∧
      (e.position = stream.place n ↔ ¬ NegatesTarget (lexemes stream.tokens) n) := by
  obtain ⟨refusal, hr, hposition⟩ := exists_refusal ht he
  obtain ⟨done, left, hstuck, hpoints⟩ := readStatements_stuck hr
  have hremains : remains (readStatements false stream.tokens) <:+ stream.tokens :=
    remains_readStatements false stream.tokens
  rw [hr] at hremains
  have hlength : stream.tokens.length = done.length + left.length := by
    have hsplit := congrArg List.length hstuck.split
    rwa [lexemes, List.length_map, List.length_append] at hsplit
  have hdone : done.length ≤ stream.tokens.length := by omega
  refine ⟨done.length, hstuck.isLeast, ?_, ?_⟩
  · obtain ⟨before, behind, hcut, hplaces, -⟩ := tokenizeFrom_splits ht hdone
    exact ⟨before, behind, hcut, hplaces, hplaces.place.trans (Position.start_after before)⟩
  · rw [hposition, Refusal.position_eq_place hremains, hstuck.split, negatesTarget_append]
    have hshorter : refusal.rest.length ≤ stream.tokens.length := hremains.length_le
    rw [Points] at hpoints
    split at hpoints
    · next hnegated =>
      have hlater := place_ne_of_lt ht (n := done.length)
        (m := stream.tokens.length - refusal.rest.length) (by omega) (by omega)
      exact iff_of_false hlater.symm (not_not_intro hnegated)
    · next hplain =>
      have hsame : stream.tokens.length - refusal.rest.length = done.length := by
        have hleft := congrArg List.length hpoints
        rw [lexemes, List.length_map] at hleft
        omega
      rw [hsame]
      exact iff_of_true rfl hplain

/-- A brace in the place of a target, in the third line of a section. -/
theorem parseSection_position_brace :
    ∃ stream e, tokenize "# note\nb: c\n a() -> \x7d" = .ok stream ∧
      parseSection .routing "# note\nb: c\n a() -> \x7d" = .error e ∧
      e.position = ⟨3, 9⟩ ∧ ∃ n, IsLeast {n | ¬ Viable (lexemes stream.tokens) n} n ∧
        (e.position = stream.place n ↔ ¬ NegatesTarget (lexemes stream.tokens) n) := by
  have ht : tokenize "# note\nb: c\n a() -> \x7d" = .ok ⟨[⟨.word "b", ⟨2, 1⟩⟩, ⟨.colon, ⟨2, 2⟩⟩,
      ⟨.word "c", ⟨2, 4⟩⟩, ⟨.word "a", ⟨3, 2⟩⟩, ⟨.openParen, ⟨3, 3⟩⟩, ⟨.closeParen, ⟨3, 4⟩⟩,
      ⟨.arrow, ⟨3, 6⟩⟩, ⟨.closeBrace, ⟨3, 9⟩⟩], ⟨3, 10⟩⟩ := by
    decide +kernel
  have he : parseSection .routing "# note\nb: c\n a() -> \x7d" =
      .error ⟨.routing, ⟨3, 9⟩, .unexpected .callName (some .closeBrace)⟩ := by
    decide +kernel
  obtain ⟨n, hleast, -, hposition⟩ := parseSection_position ht he
  exact ⟨_, _, ht, he, rfl, n, hleast, hposition⟩

/-- **A negated target is reported behind it**, at the end of the source here, although no
statements go on with its `!`. -/
theorem negated_target_reported_late :
    ∃ stream e, tokenize "a() -> !b" = .ok stream ∧
      parseSection .routing "a() -> !b" = .error e ∧
      IsLeast {n | ¬ Viable (lexemes stream.tokens) n} 4 ∧ stream.place 4 = ⟨1, 8⟩ ∧
      e.position = ⟨1, 10⟩ := by
  have ht : tokenize "a() -> !b" = .ok ⟨[⟨.word "a", ⟨1, 1⟩⟩, ⟨.openParen, ⟨1, 2⟩⟩,
      ⟨.closeParen, ⟨1, 3⟩⟩, ⟨.arrow, ⟨1, 5⟩⟩, ⟨.negation, ⟨1, 8⟩⟩, ⟨.word "b", ⟨1, 9⟩⟩],
      ⟨1, 10⟩⟩ := by
    decide +kernel
  have he : parseSection .routing "a() -> !b" = .error ⟨.routing, ⟨1, 10⟩, .negatedOutbound⟩ := by
    decide +kernel
  refine ⟨_, _, ht, he, ⟨?_, fun n hn => ?_⟩, rfl, rfl⟩
  · rintro ⟨items, hagree⟩
    obtain ⟨more, hmore⟩ : [.word "a", .openParen, .closeParen, .arrow, .negation] <+:
        items.yield := by
      refine List.prefix_iff_getElem?.2 fun m hm => ?_
      rw [hagree m (Nat.le_of_lt_succ hm)]
      have hm' : m = 0 ∨ m = 1 ∨ m = 2 ∨ m = 3 ∨ m = 4 := by
        simp only [List.length_cons, List.length_nil] at hm
        omega
      obtain rfl | rfl | rfl | rfl | rfl := hm' <;> rfl
    cases items with
    | nil | semicolon | assignment | block => cases hmore
    | rule r others =>
      rw [Items.yield, Grammar.Rule.yield, List.append_assoc] at hmore
      have hchain : Chain.yield (.one ⟨false, "a", .empty⟩) ++ .arrow :: .negation :: more =
          Chain.yield r.conditions ++ .arrow :: (target r.outbound r.args ++ others.yield) := hmore
      obtain ⟨-, htarget⟩ := Chain.unambiguous (by simp) (by simp) hchain
      cases hargs : r.args <;> rw [hargs] at htarget <;> cases htarget
  · refine Nat.not_lt.1 fun hlt => hn ?_
    refine ⟨.rule ⟨.one ⟨false, "a", .empty⟩, "b", none⟩ .nil, fun m hm => ?_⟩
    have hm' : m = 0 ∨ m = 1 ∨ m = 2 ∨ m = 3 := by omega
    obtain rfl | rfl | rfl | rfl := hm' <;> rfl

end Config
end ProxyPlane
