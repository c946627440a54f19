import ProxyPlane.Proofs.Grammar

/-!
# The readers and the grammar

A reader recognizes a phrase when it takes from the front of the tokens a derivation of that phrase
and answers what the derivation means, and takes every derivation behind which nothing stands that
would continue it.

## Main definitions

* `Reads` — a reader answers this and leaves those tokens.
* `Takes` — which derivations a reader takes, by what is behind them.
* `Recognizes` — what is said above.
-/

set_option autoImplicit false
namespace ProxyPlane
namespace Config

open Grammar

variable {α β : Type}

/-- The tokens without their places. -/
def lexemes (tokens : List Token) : List Lexeme :=
  tokens.map Token.lexeme

@[simp]
theorem lexemes_cons (l : Lexeme) (p : Position) (tokens : List Token) :
    lexemes (⟨l, p⟩ :: tokens) = l :: lexemes tokens := rfl

theorem exists_of_lexemes {tokens : List Token} {l : Lexeme} {more : List Lexeme}
    (h : lexemes tokens = l :: more) : ∃ p rest, tokens = ⟨l, p⟩ :: rest ∧ lexemes rest = more := by
  obtain ⟨⟨l', p⟩, rest, rfl, rfl, hm⟩ := List.map_eq_cons_iff.1 h
  exact ⟨p, rest, rfl, hm⟩

theorem eq_nil_of_lexemes {tokens : List Token} (h : lexemes tokens = []) : tokens = [] :=
  List.map_eq_nil_iff.1 h

/-! ## What a reader answers -/

section
variable {P Q : List Token → Prop}

/-- The reader succeeds with `a` and leaves tokens with these lexemes. -/
def Reads (r : Except Refusal (α × { rest : List Token // P rest })) (a : α)
    (left : List Lexeme) : Prop :=
  ∃ rest h, r = .ok (a, ⟨rest, h⟩) ∧ lexemes rest = left

theorem reads_bind {x : Except Refusal (α × { rest : List Token // P rest })}
    {f : α × { rest : List Token // P rest } → Except Refusal (β × { rest : List Token // Q rest })}
    {b : β} {left : List Lexeme} :
    Reads (x >>= f) b left ↔
      ∃ a rest h, x = .ok (a, ⟨rest, h⟩) ∧ Reads (f (a, ⟨rest, h⟩)) b left := by
  constructor
  · intro h
    match x with
    | .ok (a, ⟨rest, hr⟩) => exact ⟨a, rest, hr, rfl, h⟩
    | .error e =>
      obtain ⟨_, _, he, _⟩ := h
      cases he
  · rintro ⟨a, rest, h, rfl, hf⟩
    exact hf

theorem reads_ok {a b : α} {rest : List Token} {h : P rest} {left : List Lexeme} :
    Reads (.ok (a, (⟨rest, h⟩ : { rest : List Token // P rest }))) b left ↔
      a = b ∧ lexemes rest = left := by
  constructor
  · rintro ⟨_, _, he, hl⟩
    cases he
    exact ⟨rfl, hl⟩
  · rintro ⟨rfl, hl⟩
    exact ⟨rest, h, rfl, hl⟩

theorem not_reads_error {e : Refusal} {b : α} {left : List Lexeme} :
    ¬ Reads (.error e : Except Refusal (α × { rest : List Token // P rest })) b left := by
  rintro ⟨_, _, he, _⟩
  cases he

end

/-- A reader takes just the derivations of a phrase, as long as none of the `stops` follows. -/
structure Recognizes {P : List Token → List Token → Prop}
    (read : (tokens : List Token) → Except Refusal (β × { rest : List Token // P tokens rest }))
    (yield : α → List Lexeme) (meaning : α → β) (stops : List Lexeme) : Prop where
  sound : ∀ {tokens b left}, Reads (read tokens) b left →
    ∃ a, meaning a = b ∧ lexemes tokens = yield a ++ left
  complete : ∀ {tokens a left}, lexemes tokens = yield a ++ left → Clear stops left →
    Reads (read tokens) (meaning a) left

/-- A reader takes just the derivations of a phrase with the right tokens `behind` them. -/
structure Takes {P : List Token → List Token → Prop}
    (read : (tokens : List Token) → Except Refusal (β × { rest : List Token // P tokens rest }))
    (yield : α → List Lexeme) (meaning : α → β) (behind : α → List Lexeme → Prop) : Prop where
  sound : ∀ {tokens b left}, Reads (read tokens) b left →
    ∃ a, meaning a = b ∧ lexemes tokens = yield a ++ left ∧ behind a left
  complete : ∀ {tokens a left}, lexemes tokens = yield a ++ left → behind a left →
    Reads (read tokens) (meaning a) left

theorem Takes.recognizes {P : List Token → List Token → Prop}
    {read : (tokens : List Token) → Except Refusal (β × { rest : List Token // P tokens rest })}
    {yield : α → List Lexeme} {meaning : α → β} {behind : α → List Lexeme → Prop}
    {stops : List Lexeme} (h : Takes read yield meaning behind)
    (hclear : ∀ {a left}, Clear stops left → behind a left) :
    Recognizes read yield meaning stops where
  sound hr :=
    have ⟨a, ha, he, _⟩ := h.sound hr
    ⟨a, ha, he⟩
  complete he hc := h.complete he (hclear hc)

/-! ## Literals and arguments -/

theorem readScalar_recognizes : Recognizes readScalar (fun s => [lexemeOf s]) id [] where
  sound := by
    intro tokens s left h
    unfold readScalar at h
    split at h
    · obtain ⟨rfl, rfl⟩ := reads_ok.1 h
      exact ⟨_, rfl, rfl⟩
    · obtain ⟨rfl, rfl⟩ := reads_ok.1 h
      exact ⟨_, rfl, rfl⟩
    · exact absurd h not_reads_error
  complete := by
    intro tokens s left h _
    obtain ⟨p, rest, rfl, hr⟩ := exists_of_lexemes h
    obtain ⟨text, _ | _⟩ := s
    · exact reads_ok.2 ⟨rfl, hr⟩
    · exact reads_ok.2 ⟨rfl, hr⟩

/-- A parameter without a value has no colon behind it. -/
def Grammar.Param.Behind (p : Param) (left : List Lexeme) : Prop :=
  p.second = none → Clear [.colon] left

theorem readArgument_takes : Takes readArgument Param.yield Param.argument Param.Behind where
  sound := by
    intro tokens b left h
    obtain ⟨_, rest, hl, hs, hk⟩ := reads_bind.1 h
    obtain ⟨first, rfl, he⟩ := readScalar_recognizes.sound ⟨rest, hl, hs, rfl⟩
    dsimp only at hk
    split at hk
    · obtain ⟨_, rest', hl', hv, hk'⟩ := reads_bind.1 hk
      obtain ⟨value, rfl, he'⟩ := readScalar_recognizes.sound ⟨rest', hl', hv, rfl⟩
      obtain ⟨rfl, rfl⟩ := reads_ok.1 hk'
      refine ⟨⟨first, some value⟩, rfl, ?_, nofun⟩
      rw [he, lexemes_cons, he']
      rfl
    · next hcolon =>
      obtain ⟨rfl, rfl⟩ := reads_ok.1 hk
      refine ⟨⟨first, none⟩, rfl, he, fun _ => ?_⟩
      rcases rest with _ | ⟨⟨l, p⟩, more⟩
      · exact clear_nil _
      · rw [lexemes_cons, clear_cons, List.mem_singleton]
        rintro rfl
        exact hcolon p more hl rfl HEq.rfl
  complete := by
    rintro tokens ⟨first, _ | value⟩ left h hc
    · have hc := hc rfl
      obtain ⟨rest, hl, hs, rfl⟩ := readScalar_recognizes.complete h (clear_empty _)
      refine reads_bind.2 ⟨_, rest, hl, hs, ?_⟩
      dsimp only
      split
      · simp at hc
      · exact reads_ok.2 ⟨rfl, rfl⟩
    · obtain ⟨rest, hl, hs, hr⟩ := readScalar_recognizes.complete h (clear_empty _)
      obtain ⟨p, more, rfl, hm⟩ := exists_of_lexemes hr
      obtain ⟨rest', hl', hv, rfl⟩ := readScalar_recognizes.complete hm (clear_empty _)
      refine reads_bind.2 ⟨_, _, hl, hs, reads_bind.2 ⟨_, rest', hl', hv, ?_⟩⟩
      exact reads_ok.2 ⟨rfl, rfl⟩

theorem readArgument_recognizes : Recognizes readArgument Param.yield Param.argument [.colon] :=
  readArgument_takes.recognizes fun hc _ => hc

/-- The tokens of parameters and of the parenthesis behind them. -/
def Grammar.Separated.inner (params : Separated Param) : List Lexeme :=
  params.yield .comma Param.yield ++ [.closeParen]

theorem readArguments_sound {tokens : List Token} {arguments : List Argument} {left : List Lexeme}
    (h : Reads (readArguments tokens) arguments left) :
    ∃ ps : Separated Param, ps.toList.map Param.argument = arguments ∧
      lexemes tokens = ps.inner ++ left := by
  unfold readArguments at h
  obtain ⟨_, rest, hl, hs, hk⟩ := reads_bind.1 h
  obtain ⟨first, rfl, he⟩ := readArgument_recognizes.sound ⟨rest, hl, hs, rfl⟩
  dsimp only at hk
  split at hk
  · obtain ⟨_, rest', hl', hv, hk'⟩ := reads_bind.1 hk
    obtain ⟨others, rfl, he'⟩ := readArguments_sound ⟨rest', hl', hv, rfl⟩
    obtain ⟨rfl, rfl⟩ := reads_ok.1 hk'
    refine ⟨.more first others, rfl, ?_⟩
    rw [he, lexemes_cons, he']
    simp [Separated.inner, Separated.yield]
  · obtain ⟨rfl, rfl⟩ := reads_ok.1 hk
    refine ⟨.one first, rfl, ?_⟩
    rw [he, lexemes_cons]
    simp [Separated.inner, Separated.yield]
  · exact absurd hk not_reads_error
termination_by tokens.length
decreasing_by
  have := hl
  simp only [List.length_cons] at this
  omega

theorem readArguments_recognizes :
    Recognizes readArguments Separated.inner (fun ps => ps.toList.map Param.argument) [] where
  sound := readArguments_sound
  complete := by
    intro tokens ps
    induction ps generalizing tokens with
    | one p =>
      intro left h _
      have ha : lexemes tokens = p.yield ++ .closeParen :: left := by
        simpa [Separated.inner, Separated.yield] using h
      obtain ⟨rest, hl, hs, hr⟩ := readArgument_recognizes.complete ha (by simp)
      obtain ⟨q, more, rfl, rfl⟩ := exists_of_lexemes hr
      unfold readArguments
      exact reads_bind.2 ⟨_, _, hl, hs, reads_ok.2 ⟨rfl, rfl⟩⟩
    | more p others ih =>
      intro left h hc
      have ha : lexemes tokens = p.yield ++ .comma :: (Separated.inner others ++ left) := by
        simpa [Separated.inner, Separated.yield] using h
      obtain ⟨rest, hl, hs, hr⟩ := readArgument_recognizes.complete ha (by simp)
      obtain ⟨q, more, rfl, hm⟩ := exists_of_lexemes hr
      obtain ⟨rest', hl', hv, rfl⟩ := ih hm hc
      unfold readArguments
      exact reads_bind.2 ⟨_, _, hl, hs, reads_bind.2 ⟨_, rest', hl', hv, reads_ok.2 ⟨rfl, rfl⟩⟩⟩

/-! ## Calls -/

/-- The meaning of a name and its arguments. -/
def callOf (negated : Bool) (name : String) (args : Option Args) : Call :=
  ⟨name, negated, args.elim [] Args.arguments⟩

theorem readNamed_sound {negated required : Bool} {tokens : List Token} {call : Call}
    {left : List Lexeme} (h : Reads (readNamed negated required tokens) call left) :
    ∃ name args, callOf negated name args = call ∧ lexemes tokens = target name args ++ left ∧
      (args = none → required = false ∧ Clear [.openParen] left) := by
  unfold readNamed at h
  split at h
  · obtain ⟨rfl, rfl⟩ := reads_ok.1 h
    exact ⟨_, some .empty, rfl, rfl, nofun⟩
  · obtain ⟨_, rest, hl, ha, hk⟩ := reads_bind.1 h
    obtain ⟨ps, rfl, he⟩ := readArguments_sound ⟨rest, hl, ha, rfl⟩
    obtain ⟨rfl, rfl⟩ := reads_ok.1 hk
    refine ⟨_, some (.list ps), rfl, ?_, nofun⟩
    rw [lexemes_cons, lexemes_cons, he]
    rfl
  · next rest _ hparen =>
    split at h
    · exact absurd h not_reads_error
    · next hr =>
      obtain ⟨rfl, rfl⟩ := reads_ok.1 h
      refine ⟨_, none, rfl, rfl, fun _ => ⟨by simpa using hr, ?_⟩⟩
      rcases rest with _ | ⟨⟨l, p⟩, more⟩
      · exact clear_nil _
      · rw [lexemes_cons, clear_cons, List.mem_singleton]
        rintro rfl
        exact hparen p more rfl
  · exact absurd h not_reads_error

theorem readNamed_complete (negated : Bool) {required : Bool} {tokens : List Token} {name : String}
    {args : Option Args} {left : List Lexeme} (h : lexemes tokens = target name args ++ left)
    (ha : args = none → required = false ∧ Clear [.openParen] left) :
    Reads (readNamed negated required tokens) (callOf negated name args) left := by
  cases args with
  | none =>
    obtain ⟨rfl, hc⟩ := ha rfl
    obtain ⟨p, rest, rfl, rfl⟩ := exists_of_lexemes h
    match rest, hc with
    | [], _ => exact reads_ok.2 ⟨rfl, rfl⟩
    | ⟨l, _⟩ :: _, hc =>
      cases l with
      | openParen => simp at hc
      | _ => exact reads_ok.2 ⟨rfl, rfl⟩
  | some args =>
    obtain ⟨p, rest, rfl, hp⟩ := exists_of_lexemes h
    cases args with
    | empty =>
      obtain ⟨q, rest, rfl, hq⟩ := exists_of_lexemes hp
      obtain ⟨r, rest, rfl, rfl⟩ := exists_of_lexemes hq
      exact reads_ok.2 ⟨rfl, rfl⟩
    | list ps =>
      rw [Args.yield, List.cons_append] at hp
      obtain ⟨q, rest, rfl, hq⟩ := exists_of_lexemes hp
      obtain ⟨more, hl, he, rfl⟩ := readArguments_recognizes.complete hq (clear_empty _)
      obtain ⟨s, _, hs⟩ := ps.yield_params
      rw [hs] at hq
      -- the first parameter is not a closing parenthesis
      obtain ⟨r, rest, rfl, -⟩ := exists_of_lexemes hq
      obtain ⟨text, _ | _⟩ := s
      · exact reads_bind.2 ⟨_, _, hl, he, reads_ok.2 ⟨rfl, rfl⟩⟩
      · exact reads_bind.2 ⟨_, _, hl, he, reads_ok.2 ⟨rfl, rfl⟩⟩

/-- **A call is a sign, a name and its arguments.** -/
theorem readCall_sound {required : Bool} {tokens : List Token} {call : Call} {left : List Lexeme}
    (h : Reads (readCall required tokens) call left) :
    ∃ negated name args, callOf negated name args = call ∧
      lexemes tokens = sign negated ++ target name args ++ left ∧
      (args = none → required = false ∧ Clear [.openParen] left) := by
  unfold readCall at h
  split at h
  · obtain ⟨_, rest, hl, hn, hk⟩ := reads_bind.1 h
    obtain ⟨name, args, rfl, he, ha⟩ := readNamed_sound ⟨rest, hl, hn, rfl⟩
    obtain ⟨rfl, rfl⟩ := reads_ok.1 hk
    exact ⟨true, name, args, rfl, by rw [lexemes_cons, he]; rfl, ha⟩
  · obtain ⟨name, args, rfl, he, ha⟩ := readNamed_sound h
    exact ⟨false, name, args, rfl, he, ha⟩

theorem readCall_complete {required negated : Bool} {tokens : List Token} {name : String}
    {args : Option Args} {left : List Lexeme}
    (h : lexemes tokens = sign negated ++ target name args ++ left)
    (ha : args = none → required = false ∧ Clear [.openParen] left) :
    Reads (readCall required tokens) (callOf negated name args) left := by
  cases negated with
  | true =>
    obtain ⟨p, rest, rfl, hr⟩ := exists_of_lexemes h
    obtain ⟨more, hl, hn, rfl⟩ := readNamed_complete true hr ha
    exact reads_bind.2 ⟨_, more, hl, hn, reads_ok.2 ⟨rfl, rfl⟩⟩
  | false =>
    have hn := readNamed_complete false h ha
    obtain ⟨more, ht⟩ : ∃ more, target name args = .word name :: more := by
      cases args <;> exact ⟨_, rfl⟩
    rw [ht] at h
    obtain ⟨p, rest, rfl, -⟩ := exists_of_lexemes h
    exact hn

theorem readCall_recognizes : Recognizes (readCall true) Fn.yield Fn.call [] where
  sound := by
    intro tokens call left h
    obtain ⟨negated, name, args, rfl, he, ha⟩ := readCall_sound h
    cases args with
    | none => exact absurd (ha rfl).1 (by decide)
    | some args => exact ⟨⟨negated, name, args⟩, rfl, he⟩
  complete := by
    intro tokens fn left h _
    exact readCall_complete h nofun

/-! ## Chains and rules -/

theorem readChain_sound {tokens : List Token} {calls : List Call} {left : List Lexeme}
    (h : Reads (readChain tokens) calls left) :
    ∃ chain : Chain, Chain.calls chain = calls ∧ lexemes tokens = Chain.yield chain ++ left ∧
      Clear [.conjunction] left := by
  unfold readChain at h
  obtain ⟨_, rest, hl, hs, hk⟩ := reads_bind.1 h
  obtain ⟨first, rfl, he⟩ := readCall_recognizes.sound ⟨rest, hl, hs, rfl⟩
  dsimp only at hk
  split at hk
  · obtain ⟨_, rest', hl', hv, hk'⟩ := reads_bind.1 hk
    obtain ⟨others, rfl, he', hc⟩ := readChain_sound ⟨rest', hl', hv, rfl⟩
    obtain ⟨rfl, rfl⟩ := reads_ok.1 hk'
    refine ⟨.more first others, rfl, ?_, hc⟩
    rw [he, lexemes_cons, he']
    simp [Chain.yield, Separated.yield]
  · next hand =>
    obtain ⟨rfl, rfl⟩ := reads_ok.1 hk
    refine ⟨.one first, rfl, he, ?_⟩
    rcases rest with _ | ⟨⟨l, p⟩, more⟩
    · exact clear_nil _
    · rw [lexemes_cons, clear_cons, List.mem_singleton]
      rintro rfl
      exact hand p more hl rfl HEq.rfl
termination_by tokens.length
decreasing_by
  have := hl
  simp only [List.length_cons] at this
  omega

theorem readChain_takes :
    Takes readChain Chain.yield Chain.calls fun _ left => Clear [.conjunction] left where
  sound := readChain_sound
  complete := by
    intro tokens chain
    induction chain generalizing tokens with
    | one f =>
      intro left h hc
      obtain ⟨rest, hl, hs, rfl⟩ := readCall_recognizes.complete h (clear_empty _)
      unfold readChain
      refine reads_bind.2 ⟨_, rest, hl, hs, ?_⟩
      dsimp only
      split
      · simp at hc
      · exact reads_ok.2 ⟨rfl, rfl⟩
    | more f others ih =>
      intro left h hc
      have hf : lexemes tokens = f.yield ++ .conjunction :: (Chain.yield others ++ left) := by
        simpa [Chain.yield, Separated.yield] using h
      obtain ⟨rest, hl, hs, hr⟩ := readCall_recognizes.complete hf (clear_empty _)
      obtain ⟨q, more, rfl, hm⟩ := exists_of_lexemes hr
      obtain ⟨rest', hl', hv, rfl⟩ := ih hm hc
      unfold readChain
      exact reads_bind.2 ⟨_, _, hl, hs, reads_bind.2 ⟨_, rest', hl', hv, reads_ok.2 ⟨rfl, rfl⟩⟩⟩

theorem readChain_recognizes : Recognizes readChain Chain.yield Chain.calls [.conjunction] :=
  readChain_takes.recognizes fun hc => hc

theorem readRule_takes :
    Takes readRule Grammar.Rule.yield Grammar.Rule.rule fun r left =>
      r.args = none → Clear [.openParen] left where
  sound := by
    intro tokens rule left h
    obtain ⟨_, rest, hl, hs, hk⟩ := reads_bind.1 h
    obtain ⟨chain, rfl, he, -⟩ := readChain_sound ⟨rest, hl, hs, rfl⟩
    dsimp only at hk
    split at hk
    · obtain ⟨outbound, rest', hl', ho, hk'⟩ := reads_bind.1 hk
      obtain ⟨negated, name, args, rfl, he', ha⟩ := readCall_sound ⟨rest', hl', ho, rfl⟩
      dsimp only at hk'
      split at hk'
      · exact absurd hk' not_reads_error
      · rename_i hn
        obtain ⟨rfl, rfl⟩ := reads_ok.1 hk'
        obtain rfl : negated = false := by simpa [callOf] using hn
        refine ⟨⟨chain, name, args⟩, rfl, ?_, fun hnone => (ha hnone).2⟩
        rw [he, lexemes_cons, he']
        simp [Grammar.Rule.yield, sign]
    · exact absurd hk not_reads_error
  complete := by
    rintro tokens ⟨chain, name, args⟩ left h hc
    have hs : lexemes tokens = Chain.yield chain ++ .arrow :: (target name args ++ left) := by
      simpa [Grammar.Rule.yield] using h
    obtain ⟨rest, hl, hk, hr⟩ := readChain_recognizes.complete hs (by simp)
    obtain ⟨q, more, rfl, hm⟩ := exists_of_lexemes hr
    have hcall : Reads (readCall false more) (callOf false name args) left :=
      readCall_complete hm fun hnone => ⟨rfl, hc hnone⟩
    obtain ⟨rest', hl', hv, rfl⟩ := hcall
    exact reads_bind.2 ⟨_, _, hl, hk, reads_bind.2 ⟨_, rest', hl', hv, reads_ok.2 ⟨rfl, rfl⟩⟩⟩

theorem readRule_recognizes :
    Recognizes readRule Grammar.Rule.yield Grammar.Rule.rule [.openParen] :=
  readRule_takes.recognizes fun hc _ => hc

/-! ## Values -/

theorem beginsCall_iff (tokens : List Token) :
    beginsCall tokens = true ↔ OpensCall (lexemes tokens) := by
  match tokens with
  | [] => exact ⟨nofun, nofun⟩
  | ⟨l, p⟩ :: rest =>
    cases l with
    | negation => exact ⟨fun _ => trivial, fun _ => rfl⟩
    | word text =>
      match rest with
      | [] => exact ⟨nofun, nofun⟩
      | ⟨l, q⟩ :: more =>
        cases l with
        | openParen => exact ⟨fun _ => trivial, fun _ => rfl⟩
        | _ => exact ⟨nofun, nofun⟩
    | _ => exact ⟨nofun, nofun⟩

/-- A chain has no `&&` behind it, and a word no parenthesis. -/
def Grammar.Value.Behind (left : List Lexeme) : Grammar.Value → Prop
  | .chain _ => Clear [.conjunction] left
  | .scalar s => ¬ OpensCall (lexemeOf s :: left)

theorem readValue_takes : Takes readValue Grammar.Value.yield Grammar.Value.value
    fun value left => value.Behind left where
  sound := by
    intro tokens value left h
    unfold readValue at h
    split at h
    · obtain ⟨_, rest, hl, hs, hk⟩ := reads_bind.1 h
      obtain ⟨chain, rfl, he, hc⟩ := readChain_sound ⟨rest, hl, hs, rfl⟩
      obtain ⟨rfl, rfl⟩ := reads_ok.1 hk
      exact ⟨.chain chain, rfl, he, hc⟩
    · next hcall =>
      obtain ⟨_, rest, hl, hs, hk⟩ := reads_bind.1 h
      obtain ⟨s, rfl, he⟩ := readScalar_recognizes.sound ⟨rest, hl, hs, rfl⟩
      obtain ⟨rfl, rfl⟩ := reads_ok.1 hk
      refine ⟨.scalar s, rfl, he, ?_⟩
      rwa [beginsCall_iff, he] at hcall
  complete := by
    intro tokens value left h hc
    unfold readValue
    cases value with
    | chain calls =>
      rw [if_pos ((beginsCall_iff tokens).2 (h ▸ Chain.opensCall calls left))]
      obtain ⟨rest, hl, hs, rfl⟩ := readChain_recognizes.complete h hc
      exact reads_bind.2 ⟨_, rest, hl, hs, reads_ok.2 ⟨rfl, rfl⟩⟩
    | scalar s =>
      have hplain : ¬ beginsCall tokens = true := by
        rw [beginsCall_iff, h]
        exact hc
      rw [if_neg hplain]
      obtain ⟨rest, hl, hs, rfl⟩ := readScalar_recognizes.complete h (clear_empty _)
      exact reads_bind.2 ⟨_, rest, hl, hs, reads_ok.2 ⟨rfl, rfl⟩⟩

theorem readValue_recognizes :
    Recognizes readValue Grammar.Value.yield Grammar.Value.value
      [.openParen, .conjunction] :=
  readValue_takes.recognizes fun {value left} hc => by
    cases value with
    | chain calls => exact hc.mono (by simp)
    | scalar s => exact not_opensCall_lexemeOf (hc.mono (by simp))

/-! ## Statements -/

/-- What ends statements: a brace before the tokens left over when they are `nested`, and nothing
when they are not. -/
def closing (nested : Bool) (left : List Lexeme) : List Lexeme :=
  if nested then .closeBrace :: left else left

/-- Statements take the tokens of a tree and what ends them; without a brace they leave nothing. -/
theorem readStatements_sound {nested : Bool} {tokens : List Token} {statements : List Statement}
    {left : List Lexeme} (h : Reads (readStatements nested tokens) statements left) :
    ∃ items : Items, items.statements = statements ∧
      lexemes tokens = items.yield ++ closing nested left ∧ (nested = false → left = []) := by
  induction nested, tokens using readStatements.induct generalizing statements left with
  | case1 =>
    rw [readStatements] at h
    exact absurd h not_reads_error
  | case2 nested hn =>
    rw [readStatements, if_neg hn] at h
    obtain ⟨rfl, rfl⟩ := reads_ok.1 h
    exact ⟨.nil, rfl, by simp [Items.yield, closing, hn], fun _ => rfl⟩
  | case3 p rest =>
    rw [readStatements] at h
    obtain ⟨rfl, rfl⟩ := reads_ok.1 h
    exact ⟨.nil, rfl, rfl, by simp⟩
  | case4 nested p rest hn =>
    rw [readStatements, if_neg hn] at h
    exact absurd h not_reads_error
  | case5 nested p more ih =>
    rw [readStatements] at h
    obtain ⟨_, rest, hl, hs, hk⟩ := reads_bind.1 h
    obtain ⟨others, rfl, he, hn⟩ := ih ⟨rest, hl, hs, rfl⟩
    obtain ⟨rfl, rfl⟩ := reads_ok.1 hk
    refine ⟨.semicolon others, rfl, ?_, hn⟩
    rw [lexemes_cons, he]
    rfl
  | case6 nested key p q more ih =>
    rw [readStatements] at h
    obtain ⟨_, more', hl, hv, hk⟩ := reads_bind.1 h
    obtain ⟨value, rfl, hm⟩ := readValue_recognizes.sound ⟨more', hl, hv, rfl⟩
    obtain ⟨_, rest, hl', hs, hk'⟩ := reads_bind.1 hk
    obtain ⟨others, rfl, he, hn⟩ := ih more' hl ⟨rest, hl', hs, rfl⟩
    obtain ⟨rfl, rfl⟩ := reads_ok.1 hk'
    refine ⟨.assignment key value others, rfl, ?_, hn⟩
    rw [lexemes_cons, lexemes_cons, hm, he]
    simp [Items.yield]
  | case7 nested name p q more ihb ih =>
    rw [readStatements] at h
    obtain ⟨_, more', hl, hb, hk⟩ := reads_bind.1 h
    obtain ⟨body, rfl, hm, -⟩ := ihb ⟨more', hl, hb, rfl⟩
    obtain ⟨_, rest, hl', hs, hk'⟩ := reads_bind.1 hk
    obtain ⟨others, rfl, he, hn⟩ := ih more' hl ⟨rest, hl', hs, rfl⟩
    obtain ⟨rfl, rfl⟩ := reads_ok.1 hk'
    refine ⟨.block name body others, rfl, ?_, hn⟩
    rw [lexemes_cons, lexemes_cons, hm, he]
    simp [Items.yield, closing]
  | case8 nested name p more hc hb ih =>
    rw [readStatements] at h
    rotate_left
    · exact hc
    · exact hb
    obtain ⟨_, more', hl, hr, hk⟩ := reads_bind.1 h
    obtain ⟨r, rfl, hm⟩ := readRule_recognizes.sound ⟨more', hl, hr, rfl⟩
    obtain ⟨_, rest, hl', hs, hk'⟩ := reads_bind.1 hk
    obtain ⟨others, rfl, he, hn⟩ := ih more' hl ⟨rest, hl', hs, rfl⟩
    obtain ⟨rfl, rfl⟩ := reads_ok.1 hk'
    refine ⟨.rule r others, rfl, ?_, hn⟩
    rw [hm, he, Items.yield, List.append_assoc]
  | case9 nested p more ih =>
    rw [readStatements] at h
    obtain ⟨_, more', hl, hr, hk⟩ := reads_bind.1 h
    obtain ⟨r, rfl, hm⟩ := readRule_recognizes.sound ⟨more', hl, hr, rfl⟩
    obtain ⟨_, rest, hl', hs, hk'⟩ := reads_bind.1 hk
    obtain ⟨others, rfl, he, hn⟩ := ih more' hl ⟨rest, hl', hs, rfl⟩
    obtain ⟨rfl, rfl⟩ := reads_ok.1 hk'
    refine ⟨.rule r others, rfl, ?_, hn⟩
    rw [hm, he, Items.yield, List.append_assoc]
  | case10 =>
    rw [readStatements] at h
    · exact absurd h not_reads_error
    all_goals assumption

/-- Tokens that begin a chain begin a rule. -/
theorem reads_rule {nested : Bool} {tokens more : List Token} {rule : Rule}
    {others : List Statement} {left : List Lexeme} (hc : OpensCall (lexemes tokens))
    {h : more.length < tokens.length} (hr : readRule tokens = .ok (rule, ⟨more, h⟩))
    (hs : Reads (readStatements nested more) others left) :
    Reads (readStatements nested tokens) (.rule rule :: others) left := by
  obtain ⟨rest, hl, hs, rfl⟩ := hs
  match tokens, hc with
  | ⟨.negation, p⟩ :: _, _ =>
    rw [readStatements]
    exact reads_bind.2 ⟨_, _, _, hr, reads_bind.2 ⟨_, _, _, hs, reads_ok.2 ⟨rfl, rfl⟩⟩⟩
  | ⟨.word name, p⟩ :: ⟨.openParen, q⟩ :: _, _ =>
    rw [readStatements]
    · exact reads_bind.2 ⟨_, _, _, hr, reads_bind.2 ⟨_, _, _, hs, reads_ok.2 ⟨rfl, rfl⟩⟩⟩
    all_goals simp

/-- **Every tree is read**, when a brace or the end of the tokens is where it should be. -/
theorem readStatements_complete {nested : Bool} {tokens : List Token} {items : Items}
    {left : List Lexeme} (h : lexemes tokens = items.yield ++ closing nested left)
    (hn : nested = false → left = []) :
    Reads (readStatements nested tokens) items.statements left := by
  have ends (nested : Bool) (left : List Lexeme) (hn : nested = false → left = []) :
      Ends (closing nested left) := by
    cases nested with
    | true => rfl
    | false => rw [hn rfl]; trivial
  induction items generalizing nested tokens left with
  | nil =>
    cases nested with
    | true =>
      obtain ⟨p, rest, rfl, rfl⟩ := exists_of_lexemes h
      rw [readStatements]
      exact reads_ok.2 ⟨rfl, rfl⟩
    | false =>
      rw [hn rfl] at h
      rw [eq_nil_of_lexemes h, hn rfl, readStatements]
      exact reads_ok.2 ⟨rfl, rfl⟩
  | semicolon others ih =>
    obtain ⟨p, more, rfl, hm⟩ := exists_of_lexemes h
    obtain ⟨rest, hl, hs, rfl⟩ := ih hm hn
    rw [readStatements]
    exact reads_bind.2 ⟨_, _, _, hs, reads_ok.2 ⟨rfl, rfl⟩⟩
  | assignment key value others ih =>
    have h' : lexemes tokens = .word key :: .colon ::
        (value.yield ++ (others.yield ++ closing nested left)) := by
      simpa [Items.yield] using h
    obtain ⟨p, _, rfl, hq⟩ := exists_of_lexemes h'
    obtain ⟨q, more, rfl, hm⟩ := exists_of_lexemes hq
    obtain ⟨more', hl, hv, hm'⟩ := readValue_recognizes.complete hm
      (others.clear_of_ends (ends nested left hn))
    obtain ⟨rest, hl', hs, rfl⟩ := ih hm' hn
    rw [readStatements]
    exact reads_bind.2 ⟨_, _, hl, hv, reads_bind.2 ⟨_, _, hl', hs, reads_ok.2 ⟨rfl, rfl⟩⟩⟩
  | block name body others ihb iho =>
    have h' : lexemes tokens = .word name :: .openBrace ::
        (body.yield ++ closing true (others.yield ++ closing nested left)) := by
      simpa [Items.yield, closing] using h
    obtain ⟨p, _, rfl, hq⟩ := exists_of_lexemes h'
    obtain ⟨q, more, rfl, hm⟩ := exists_of_lexemes hq
    obtain ⟨more', hl, hb, hm'⟩ := ihb hm (by simp)
    obtain ⟨rest, hl', hs, rfl⟩ := iho hm' hn
    rw [readStatements]
    exact reads_bind.2 ⟨_, _, hl, hb, reads_bind.2 ⟨_, _, hl', hs, reads_ok.2 ⟨rfl, rfl⟩⟩⟩
  | rule r others ih =>
    rw [Items.yield, List.append_assoc] at h
    have hc : OpensCall (lexemes tokens) := h ▸ r.opensCall _
    obtain ⟨more', hl, hr, hm'⟩ := readRule_recognizes.complete h
      ((others.clear_of_ends (ends nested left hn)).mono (by simp))
    exact reads_rule hc hr (ih hm' hn)

/-! ## Sections -/

theorem Grammar.Items.derives_iff {items : Items} {ls : List Lexeme} :
    items.Derives ls ↔ items.yield = ls :=
  ⟨fun h => h.yield_eq, fun h => ⟨h, items.resolved_of_ends trivial⟩⟩

/-- A text has tokens and the tree derives them. -/
def Grammar.Items.Spans (items : Items) (source : String) : Prop :=
  ∃ stream, tokenize source = .ok stream ∧ items.Derives (lexemes stream.tokens)

theorem Grammar.Items.Spans.unique {a b : Items} {source : String} (ha : a.Spans source)
    (hb : b.Spans source) : a = b := by
  obtain ⟨stream, ht, ha⟩ := ha
  obtain ⟨stream', ht', hb⟩ := hb
  cases ht.symm.trans ht'
  exact Items.yield_injective (ha.yield_eq.trans hb.yield_eq.symm)

theorem parse_ok_iff {kind : SectionKind} {source : String} {statements : List Statement} :
    parse kind source = .ok statements ↔
      ∃ items : Items, items.Spans source ∧ items.statements = statements := by
  unfold parse
  constructor
  · intro h
    split at h
    · cases h
    · rename_i stream ht
      split at h
      · cases h
      · rename_i xs rest hr
        cases h
        obtain ⟨items, rfl, he, hn⟩ := readStatements_sound ⟨rest.1, rest.2, hr, rfl⟩
        refine ⟨items, ⟨stream, ht, Items.derives_iff.2 ?_⟩, rfl⟩
        rw [he, closing, hn rfl]
        simp
  · rintro ⟨items, ⟨stream, ht, hd⟩, rfl⟩
    have he : lexemes stream.tokens = items.yield ++ closing false [] := by
      rw [hd.yield_eq]
      simp [closing]
    obtain ⟨rest, hl, hs, -⟩ := readStatements_complete he fun _ => rfl
    rw [ht]
    simp only [hs]

theorem parseSection_ok_iff {kind : SectionKind} {source : String} {statements : List Statement} :
    parseSection kind source = .ok statements ↔
      ∃ items : Items, items.Spans source ∧ unwrap kind items.statements = statements := by
  unfold parseSection
  constructor
  · intro h
    match hr : parse kind source, h with
    | .ok _, h =>
      cases h
      obtain ⟨items, hs, rfl⟩ := parse_ok_iff.1 hr
      exact ⟨items, hs, rfl⟩
  · rintro ⟨items, hs, rfl⟩
    rw [parse_ok_iff.2 ⟨items, hs, rfl⟩]
    rfl

/-- **The parser takes just what the grammar derives.**  It answers every text, for it is a function.
A text has statements when it has tokens and the grammar derives them, and then they are what the
tree means; a section is the same with the block around it taken away.  In every tree a value is a
chain whenever it begins as one and a parenthesis behind an outbound belongs to it, and no two trees
derive the same tokens. -/
theorem parse_derives (kind : SectionKind) (source : String) :
    (∀ statements, parse kind source = .ok statements ↔
      ∃ items : Items, items.Spans source ∧ items.statements = statements) ∧
    (∀ statements, parseSection kind source = .ok statements ↔
      ∃ items : Items, items.Spans source ∧ unwrap kind items.statements = statements) ∧
    (∀ (ls : List Lexeme) (items : Items), items.Derives ls ↔ items.yield = ls) ∧
    (∀ (ls : List Lexeme) (a b : Items), a.Derives ls → b.Derives ls → a = b) := by
  refine ⟨fun _ => parse_ok_iff, fun _ => parseSection_ok_iff, fun _ _ => Items.derives_iff, ?_⟩
  intro ls a b ha hb
  exact Items.yield_injective (ha.yield_eq.trans hb.yield_eq.symm)

end Config
end ProxyPlane
