import ProxyPlane.Proofs.Readers

/-!
# What the readers look at

A reader looks at the tokens of its phrase and at the one behind it, and at nothing else.  So it
reads the same phrase again from other tokens that begin in the same way, and where it refuses a
token it refuses it whatever comes later.  What it has taken up to there begins a phrase, since the
readers ask for nothing that a phrase does not need.

## Main definitions

* `Settles` — a reader sees no more than one token of what is behind its phrase.
* `Stuck` — a reader refuses some tokens, which begin a phrase up to there and are lost there.
* `Stuck.next`, `Stuck.second`, `Stuck.prepend`, `Stuck.prepend_part` — refusals in a phrase that is
  made of others.
* `readChain_stuck` — chains of calls, and all that they are made of.
-/

set_option autoImplicit false
namespace ProxyPlane
namespace Config

open Grammar

/-! ## What a reader sees of what is behind its phrase -/

section
variable {α β γ δ : Type} {P : List Token → List Token → Prop} {Q : List Token → Prop}
  {read : (tokens : List Token) → Except Refusal (β × { rest : List Token // P tokens rest })}
  {yield : α → List Lexeme} {meaning : α → β} {behind : α → List Lexeme → Prop}

theorem head?_append_congr {done left left' : List Lexeme} (h : left'.head? = left.head?) :
    (done ++ left').head? = (done ++ left).head? := by
  rw [List.head?_append, List.head?_append, h]

theorem clear_congr {stops left left' : List Lexeme} (h : left'.head? = left.head?) :
    Clear stops left' ↔ Clear stops left := by
  rw [Clear, Clear, h]

theorem opensCall_congr {l : Lexeme} {left left' : List Lexeme} (h : left'.head? = left.head?) :
    OpensCall (l :: left') ↔ OpensCall (l :: left) := by
  rcases left with _ | ⟨next, more⟩ <;> rcases left' with _ | ⟨next', more'⟩ <;> simp at h
  · rfl
  · subst h
    cases l with
    | word text => cases next' <;> rfl
    | _ => rfl

/-- A reader that succeeds succeeds again on tokens that begin with the same phrase, if the token
behind it is the same. -/
def Settles
    (read : (tokens : List Token) → Except Refusal (β × { rest : List Token // P tokens rest })) :
    Prop :=
  ∀ {tokens tokens' b done left left'}, Reads (read tokens) b left → lexemes tokens = done ++ left →
    lexemes tokens' = done ++ left' → left'.head? = left.head? → Reads (read tokens') b left'

theorem Takes.settles (h : Takes read yield meaning behind)
    (hhead : ∀ {a left left'}, left'.head? = left.head? → behind a left → behind a left') :
    Settles read := by
  intro tokens tokens' b done left left' hr hs hs' hleft
  obtain ⟨a, rfl, hy, hb⟩ := h.sound hr
  obtain rfl : done = yield a := List.append_cancel_right (hs.symm.trans hy)
  exact h.complete hs' (hhead hleft hb)

theorem Recognizes.settles (h : Recognizes read yield meaning []) : Settles read := by
  intro tokens tokens' b done left left' hr hs hs' hleft
  obtain ⟨a, rfl, hy⟩ := h.sound hr
  obtain rfl : done = yield a := List.append_cancel_right (hs.symm.trans hy)
  exact h.complete hs' (clear_empty _)

theorem readArgument_settles : Settles readArgument :=
  readArgument_takes.settles fun hleft hb hnone => (clear_congr hleft).2 (hb hnone)

theorem readChain_settles : Settles readChain :=
  readChain_takes.settles fun hleft => (clear_congr hleft).2

theorem readRule_settles : Settles readRule :=
  readRule_takes.settles fun hleft hb hnone => (clear_congr hleft).2 (hb hnone)

theorem readValue_settles : Settles readValue :=
  readValue_takes.settles fun {value left left'} hleft hb => by
    cases value with
    | chain calls => exact (clear_congr hleft).2 hb
    | scalar s => exact mt (opensCall_congr hleft).1 hb

theorem readBody_recognizes : Recognizes (readStatements true)
    (fun items => items.yield ++ [.closeBrace]) Items.statements [] where
  sound h := by
    obtain ⟨items, rfl, he, -⟩ := readStatements_sound h
    exact ⟨items, rfl, by simpa [closing] using he⟩
  complete h _ := readStatements_complete (by simpa [closing] using h) nofun

/-! ## Refusals -/

/-- A reader refuses tokens behind `done`: up to there they begin a phrase, and nothing is read that
begins with the same tokens up to and with the next one. -/
structure Stuck
    (read : (tokens : List Token) → Except Refusal (β × { rest : List Token // P tokens rest }))
    (yield : α → List Lexeme) (tokens : List Token) (done left : List Lexeme) : Prop where
  split : lexemes tokens = done ++ left
  opens : ∃ a more, yield a = done ++ more
  blocked : ∀ {tokens' left' b l}, lexemes tokens' = done ++ left' → left'.head? = left.head? →
    ¬ Reads (read tokens') b l

theorem error_of_bind {x : Except Refusal α} {f : α → Except Refusal β} {e : Refusal}
    (h : x >>= f = .error e) : x = .error e ∨ ∃ a, x = .ok a ∧ f a = .error e := by
  cases x with
  | error e' => exact .inl (by cases h; rfl)
  | ok a => exact .inr ⟨a, rfl, h⟩

variable {α' β' : Type}
  {P' : List Token → List Token → Prop}
  {read' : (tokens : List Token) → Except Refusal (β' × { rest : List Token // P' tokens rest })}
  {yield' : α' → List Lexeme}

/-- Tokens that agree with refused ones up to and with the next one begin with the same token. -/
theorem Stuck.head? {tokens tokens' : List Token} {done left left' : List Lexeme}
    (h : Stuck read yield tokens done left) (hs : lexemes tokens' = done ++ left')
    (hleft : left'.head? = left.head?) : (lexemes tokens').head? = (lexemes tokens).head? := by
  rw [hs, h.split, head?_append_congr hleft]

/-- A reader that takes some tokens that begin in the same way takes the first one. -/
theorem Stuck.ne_nil {tokens tokens' : List Token} {done left l : List Lexeme} {b : β}
    (h : Stuck read yield tokens done left) (hr : Reads (read tokens') b l)
    (hhead : (lexemes tokens').head? = (lexemes tokens).head?) : done ≠ [] := by
  rintro rfl
  have hleft : (lexemes tokens').head? = left.head? := hhead.trans (congrArg List.head? h.split)
  exact h.blocked (List.nil_append _).symm hleft hr

/-- Once a token is taken, the next one is the same as well. -/
theorem Stuck.take_two {tokens tokens' : List Token} {done left left' : List Lexeme}
    (h : Stuck read yield tokens done left) (hdone : done ≠ [])
    (hs : lexemes tokens' = done ++ left') (hleft : left'.head? = left.head?) :
    (lexemes tokens').take 2 = (lexemes tokens).take 2 := by
  obtain ⟨l, more, rfl⟩ := List.exists_cons_of_ne_nil hdone
  have hnext : (more ++ left').head? = (more ++ left).head? := head?_append_congr hleft
  rw [hs, h.split, List.cons_append, List.cons_append, List.take_succ_cons, List.take_succ_cons,
    List.take_one, List.take_one, hnext]

/-- A refusal in the first part of a phrase. -/
theorem Stuck.first {tokens : List Token} {done left : List Lexeme}
    (h : Stuck read yield tokens done left)
    (hread : ∀ {tokens b l}, Reads (read' tokens) b l → ∃ b l, Reads (read tokens) b l)
    (hopens : ∀ a, ∃ a' more, yield' a' = yield a ++ more) :
    Stuck read' yield' tokens done left where
  split := h.split
  opens := by
    obtain ⟨a, more, ha⟩ := h.opens
    obtain ⟨a', more', ha'⟩ := hopens a
    exact ⟨a', more ++ more', by rw [ha', ha, List.append_assoc]⟩
  blocked hs hleft hr :=
    have ⟨_, _, hr⟩ := hread hr
    h.blocked hs hleft hr

/-- What the first part of a phrase leaves of other tokens that begin in the same way. -/
theorem Settles.rest_eq (hsettles : Settles read) (next : List Lexeme)
    {tokens tokens' rest : List Token} {a a' : β} {done left left' : List Lexeme}
    {h : P tokens' rest}
    (hr : Reads (read tokens) a (next ++ left)) (hs : lexemes tokens = done ++ (next ++ left))
    (hs' : lexemes tokens' = done ++ next ++ left') (hleft : left'.head? = left.head?)
    (hx : read tokens' = .ok (a', ⟨rest, h⟩)) : lexemes rest = next ++ left' := by
  rw [List.append_assoc] at hs'
  obtain ⟨rest', h', hr', hrest⟩ := hsettles hr hs hs' (head?_append_congr hleft)
  cases hr'.symm.trans hx
  exact hrest

/-- A refusal behind the first part of a phrase: another token had to be there. -/
theorem Stuck.next (hsettles : Settles read) {tokens : List Token} {a : β}
    {done left : List Lexeme} (hr : Reads (read tokens) a left) (hs : lexemes tokens = done ++ left)
    (hread : ∀ {tokens b l}, Reads (read' tokens) b l →
      ∃ a rest h, read tokens = .ok (a, ⟨rest, h⟩) ∧ (lexemes rest).head? ≠ left.head?)
    (hopens : ∃ a' more, yield' a' = done ++ more) : Stuck read' yield' tokens done left where
  split := hs
  opens := hopens
  blocked {_ left' _ _} hs' hleft hr' := by
    obtain ⟨a', rest, h, hx, hother⟩ := hread hr'
    have hrest := hsettles.rest_eq [] hr hs (by rw [List.append_nil, hs']) hleft hx
    exact hother (hrest ▸ hleft)

/-- A refusal in the second part of a phrase, behind a separator. -/
theorem Stuck.second (hsettles : Settles read) {tokens more : List Token} {a : β}
    {separator : Lexeme} {done done' left : List Lexeme}
    {read₂ : (tokens : List Token) → Except Refusal (γ × { rest : List Token // P tokens rest })}
    {yield₂ : δ → List Lexeme} (h : Stuck read₂ yield₂ more done' left)
    (hr : Reads (read tokens) a (separator :: lexemes more))
    (hs : lexemes tokens = done ++ separator :: lexemes more)
    (hread : ∀ {tokens b l}, Reads (read' tokens) b l →
      ∃ a rest h, read tokens = .ok (a, ⟨rest, h⟩) ∧
        ∀ p more, rest = ⟨separator, p⟩ :: more → ∃ b l, Reads (read₂ more) b l)
    (hopens : ∀ a, ∃ a' more, yield' a' = done ++ separator :: (yield₂ a ++ more)) :
    Stuck read' yield' tokens (done ++ separator :: done') left where
  split := by rw [hs, h.split, List.append_assoc, List.cons_append]
  opens := by
    obtain ⟨a₂, more₂, ha₂⟩ := h.opens
    obtain ⟨a', more', ha'⟩ := hopens a₂
    exact ⟨a', more₂ ++ more', by simp [ha', ha₂]⟩
  blocked {_ left' _ _} hs' hleft hr' := by
    obtain ⟨a', rest, hrest, hx, hsecond⟩ := hread hr'
    rw [h.split] at hr hs
    have hnext := hsettles.rest_eq (separator :: done') hr hs hs' hleft hx
    obtain ⟨p, more', rfl, hmore⟩ := exists_of_lexemes hnext
    obtain ⟨b, l, hr₂⟩ := hsecond p more' rfl
    exact h.blocked hmore hleft hr₂

/-- A refusal behind some tokens that are taken first. -/
theorem Stuck.prepend {P₂ : List Token → List Token → Prop} {front done left : List Lexeme}
    {tokens more : List Token}
    {read₂ : (tokens : List Token) → Except Refusal (γ × { rest : List Token // P₂ tokens rest })}
    {yield₂ : δ → List Lexeme} (h : Stuck read₂ yield₂ more done left)
    (hs : lexemes tokens = front ++ lexemes more)
    (hread : ∀ {tokens ls b l}, lexemes tokens = front ++ ls → Reads (read' tokens) b l →
      ∃ more, lexemes more = ls ∧ ∃ b l, Reads (read₂ more) b l)
    (hopens : ∀ a, ∃ a' more, yield' a' = front ++ (yield₂ a ++ more)) :
    Stuck read' yield' tokens (front ++ done) left where
  split := by rw [hs, h.split, List.append_assoc]
  opens := by
    obtain ⟨a, more, ha⟩ := h.opens
    obtain ⟨a', more', ha'⟩ := hopens a
    exact ⟨a', more ++ more', by simp [ha', ha]⟩
  blocked hs' hleft hr := by
    obtain ⟨more', hmore, b, l, hr'⟩ := hread (hs'.trans (List.append_assoc ..)) hr
    exact h.blocked hmore hleft hr'

/-- A refusal behind the first part of a phrase, which is itself behind some tokens. -/
theorem Stuck.prepend_part {P₂ : List Token → List Token → Prop} (hsettles : Settles read)
    {front part done left : List Lexeme} {tokens inner more : List Token} {a : β}
    {read₂ : (tokens : List Token) → Except Refusal (γ × { rest : List Token // P₂ tokens rest })}
    {yield₂ : δ → List Lexeme} (h : Stuck read₂ yield₂ more done left)
    (hs : lexemes tokens = front ++ lexemes inner) (hr : Reads (read inner) a (lexemes more))
    (hpart : lexemes inner = part ++ lexemes more)
    (hread : ∀ {tokens ls b l}, lexemes tokens = front ++ ls → Reads (read' tokens) b l →
      ∃ inner, lexemes inner = ls ∧ ∃ a rest h, read inner = .ok (a, ⟨rest, h⟩) ∧
        ∃ b l, Reads (read₂ rest) b l)
    (hopens : ∀ a, ∃ a' more, yield' a' = front ++ part ++ (yield₂ a ++ more)) :
    Stuck read' yield' tokens (front ++ part ++ done) left where
  split := by rw [hs, hpart, h.split, List.append_assoc, List.append_assoc]
  opens := by
    obtain ⟨a, more, ha⟩ := h.opens
    obtain ⟨a', more', ha'⟩ := hopens a
    exact ⟨a', more ++ more', by simp [ha', ha]⟩
  blocked {_ left' _ _} hs' hleft hr' := by
    rw [List.append_assoc, List.append_assoc] at hs'
    obtain ⟨inner', hinner, a', rest, hrest, hx, b, l, hr₂⟩ := hread hs' hr'
    rw [h.split] at hr hpart
    rw [← List.append_assoc] at hinner
    exact h.blocked (hsettles.rest_eq done hr hpart hinner hleft hx) hleft hr₂

end

theorem not_reads_of_error {α : Type} {P : List Token → Prop} {e : Refusal}
    {x : Except Refusal (α × { rest : List Token // P rest })} (h : x = .error e) {a : α}
    {left : List Lexeme} : ¬ Reads x a left :=
  h ▸ not_reads_error

theorem readScalar_stuck {tokens : List Token} {e : Refusal} (h : readScalar tokens = .error e) :
    ∃ done, Stuck readScalar (fun s => [lexemeOf s]) tokens done (lexemes e.rest) := by
  have hrest : e.rest = tokens := by
    unfold readScalar at h
    split at h <;> cases h
    rfl
  refine ⟨[], by rw [hrest]; rfl, ⟨.bare "", _, rfl⟩, fun {tokens' left' s l} hs hleft hr => ?_⟩
  obtain ⟨s, rfl, he⟩ := readScalar_recognizes.sound hr
  rw [he] at hs
  subst hs
  obtain ⟨more, hmore⟩ := List.head?_eq_some_iff.1 hleft.symm
  exact not_reads_of_error h (readScalar_recognizes.complete (hrest ▸ hmore) (clear_empty _))

theorem readArgument_stuck {tokens : List Token} {e : Refusal}
    (h : readArgument tokens = .error e) :
    ∃ done, Stuck readArgument Param.yield tokens done (lexemes e.rest) := by
  obtain hs | ⟨⟨first, rest, hl⟩, hs, hk⟩ := error_of_bind h
  · obtain ⟨done, hstuck⟩ := readScalar_stuck hs
    refine ⟨done, hstuck.first (fun hr => ?_) fun s => ⟨⟨s, none⟩, [], rfl⟩⟩
    obtain ⟨s, rest, hl, hs, -⟩ := reads_bind.1 hr
    exact ⟨s, _, rest, hl, hs, rfl⟩
  · have hr : Reads (readScalar tokens) first (lexemes rest) := ⟨_, hl, hs, rfl⟩
    obtain ⟨s, rfl, he⟩ := readScalar_recognizes.sound hr
    dsimp only at hk
    split at hk
    · next p more hl' =>
      obtain hv | ⟨_, -, hk⟩ := error_of_bind hk
      · obtain ⟨done, hstuck⟩ := readScalar_stuck hv
        refine ⟨_, hstuck.second readScalar_recognizes.settles hr he (fun hr' => ?_)
          fun v => ⟨⟨s, some v⟩, [], rfl⟩⟩
        obtain ⟨first, rest, hl, hs, hk⟩ := reads_bind.1 hr'
        refine ⟨first, rest, hl, hs, ?_⟩
        rintro p more rfl
        obtain ⟨v, rest', hl', hv, -⟩ := reads_bind.1 hk
        exact ⟨v, _, rest', hl', hv, rfl⟩
      · cases hk
    · cases hk

theorem readArguments_stuck {tokens : List Token} {e : Refusal}
    (h : readArguments tokens = .error e) :
    ∃ done, Stuck readArguments Separated.inner tokens done (lexemes e.rest) := by
  have hfirst {tokens : List Token} {b : List Argument} {l : List Lexeme}
      (hr : Reads (readArguments tokens) b l) :
      ∃ a rest h, readArgument tokens = .ok (a, ⟨rest, h⟩) ∧
        (∀ p more, rest = ⟨.comma, p⟩ :: more → ∃ b l, Reads (readArguments more) b l) ∧
          ((lexemes rest).head? = some .comma ∨ (lexemes rest).head? = some .closeParen) := by
    unfold readArguments at hr
    obtain ⟨a, rest, h, hx, hk⟩ := reads_bind.1 hr
    refine ⟨a, rest, h, hx, ?_⟩
    dsimp only at hk
    split at hk
    · obtain ⟨others, rest', hl', hs, -⟩ := reads_bind.1 hk
      refine ⟨?_, .inl rfl⟩
      rintro p more heq
      cases heq
      exact ⟨others, _, rest', hl', hs, rfl⟩
    · refine ⟨fun p more heq => ?_, .inr rfl⟩
      cases heq
    · exact absurd hk not_reads_error
  unfold readArguments at h
  obtain hs | ⟨⟨first, rest, hl⟩, hs, hk⟩ := error_of_bind h
  · obtain ⟨done, hstuck⟩ := readArgument_stuck hs
    refine ⟨done, hstuck.first (fun hr => ?_) fun p => ⟨.one p, [.closeParen], rfl⟩⟩
    obtain ⟨a, rest, h, hx, -⟩ := hfirst hr
    exact ⟨a, _, rest, h, hx, rfl⟩
  · have hr : Reads (readArgument tokens) first (lexemes rest) := ⟨_, hl, hs, rfl⟩
    obtain ⟨p, rfl, he, -⟩ := readArgument_takes.sound hr
    dsimp only at hk
    split at hk
    · next q more hl' =>
      obtain hv | ⟨_, -, hk⟩ := error_of_bind hk
      · obtain ⟨done, hstuck⟩ := readArguments_stuck hv
        refine ⟨_, hstuck.second readArgument_settles hr he (fun hr' => ?_) fun others =>
          ⟨.more p others, [], by simp [Separated.inner, Separated.yield]⟩⟩
        obtain ⟨a, rest, h, hx, hothers, -⟩ := hfirst hr'
        exact ⟨a, rest, h, hx, hothers⟩
      · cases hk
    · cases hk
    · next hcomma hparen =>
      cases hk
      refine ⟨p.yield, .next readArgument_settles hr he (fun hr' => ?_)
        ⟨.one p, [.closeParen], rfl⟩⟩
      obtain ⟨a, rest', h, hx, -, hends⟩ := hfirst hr'
      refine ⟨a, rest', h, hx, fun heq => ?_⟩
      rw [heq] at hends
      obtain hends | hends := hends
      · obtain ⟨more, hmore⟩ := List.head?_eq_some_iff.1 hends
        obtain ⟨q, more', rfl, -⟩ := exists_of_lexemes hmore
        exact hcomma _ _ hl rfl HEq.rfl
      · obtain ⟨more, hmore⟩ := List.head?_eq_some_iff.1 hends
        obtain ⟨q, more', rfl, -⟩ := exists_of_lexemes hmore
        exact hparen _ _ hl rfl HEq.rfl
termination_by tokens.length
decreasing_by
  have := hl
  simp only [List.length_cons] at this
  omega

/-! ## Calls -/

theorem exists_of_head? {tokens : List Token} {l : Lexeme} (h : (lexemes tokens).head? = some l) :
    ∃ p rest, tokens = ⟨l, p⟩ :: rest :=
  have ⟨_, hmore⟩ := List.head?_eq_some_iff.1 h
  have ⟨p, rest, heq, _⟩ := exists_of_lexemes hmore
  ⟨p, rest, heq⟩

theorem Grammar.Args.yield_eq (args : Args) : ∃ more, args.yield = .openParen :: more := by
  cases args with
  | empty => exact ⟨_, rfl⟩
  | list params => exact ⟨_, rfl⟩

/-- A name and its arguments are refused where they are not yet a call. -/
theorem readNamed_stuck {negated required : Bool} {tokens : List Token} {e : Refusal}
    (h : readNamed negated required tokens = .error e) :
    ∃ done, Stuck (readNamed negated required) (fun call : String × Args => target call.1 call.2)
      tokens done (lexemes e.rest) := by
  unfold readNamed at h
  split at h
  · cases h
  · next name p q more hempty =>
    obtain ha | ⟨_, -, hk⟩ := error_of_bind h
    · obtain ⟨done, hstuck⟩ := readArguments_stuck ha
      refine ⟨.word name :: .openParen :: done, ?_, ?_, fun {tokens' left' b l} hs hleft hr => ?_⟩
      · rw [lexemes_cons, lexemes_cons, hstuck.split]
        rfl
      · obtain ⟨params, more, hmore⟩ := hstuck.opens
        refine ⟨⟨name, .list params⟩, more, ?_⟩
        rw [List.cons_append, List.cons_append, ← hmore]
        rfl
      · obtain ⟨name', args, -, he, hnone⟩ := readNamed_sound hr
        obtain ⟨p', _, rfl, hs'⟩ := exists_of_lexemes hs
        obtain ⟨q', more', rfl, hdone⟩ := exists_of_lexemes hs'
        rcases args with _ | _ | params
        · obtain rfl : .openParen :: lexemes more' = l := (List.cons.inj he).2
          simpa using (hnone rfl).2
        · have hclose : lexemes more' = .closeParen :: l :=
            (List.cons.inj (List.cons.inj he).2).2
          have hhead : (lexemes more).head? = some .closeParen := by
            rw [← hstuck.head? hdone hleft, hclose]
            rfl
          obtain ⟨p, rest, rfl⟩ := exists_of_head? hhead
          exact hempty _ _ rfl
        · have hinner : lexemes more' = params.inner ++ l :=
            (List.cons.inj (List.cons.inj he).2).2
          exact hstuck.blocked hdone hleft
            (readArguments_recognizes.complete hinner (clear_empty _))
    · cases hk
  · next name p more hempty hparen =>
    split at h
    · next hrequired =>
      cases h
      refine ⟨[.word name], rfl, ⟨⟨name, .empty⟩, [.openParen, .closeParen], rfl⟩,
        fun {tokens' left' b l} hs hleft hr => ?_⟩
      obtain ⟨name', args, -, he, hnone⟩ := readNamed_sound hr
      cases args with
      | none => exact absurd (hnone rfl).1 (by simp [hrequired])
      | some args =>
        obtain ⟨more', hargs⟩ := args.yield_eq
        rw [hs, target, hargs] at he
        obtain ⟨-, rfl⟩ := List.cons.inj he
        obtain ⟨q, rest, rfl⟩ := exists_of_head? hleft.symm
        exact hparen _ _ rfl
    · cases h
  · next hword =>
    cases h
    refine ⟨[], rfl, ⟨⟨"", .empty⟩, _, rfl⟩, fun {tokens' left' b l} hs hleft hr => ?_⟩
    obtain ⟨name', args, -, he, -⟩ := readNamed_sound hr
    have hhead : (lexemes tokens).head? = some (.word name') := by
      rw [← hleft, ← List.nil_append left', ← hs, he]
      cases args <;> rfl
    obtain ⟨p, rest, rfl⟩ := exists_of_head? hhead
    exact hword _ _ _ rfl

theorem readCall_stuck {required : Bool} {tokens : List Token} {e : Refusal}
    (h : readCall required tokens = .error e) :
    ∃ done, Stuck (readCall required) Fn.yield tokens done (lexemes e.rest) := by
  unfold readCall at h
  split at h
  · next p more =>
    obtain hn | ⟨_, -, hk⟩ := error_of_bind h
    · obtain ⟨done, hstuck⟩ := readNamed_stuck hn
      have hfront : lexemes (⟨.negation, p⟩ :: more) = [.negation] ++ lexemes more := rfl
      refine ⟨_, hstuck.prepend hfront (fun hs hr => ?_) fun call =>
        ⟨⟨true, call.1, call.2⟩, [], by simp [Fn.yield, sign]⟩⟩
      obtain ⟨q, more', rfl, hmore⟩ := exists_of_lexemes hs
      obtain ⟨call, rest, hl, hn', -⟩ := reads_bind.1 hr
      exact ⟨more', hmore, call, _, rest, hl, hn', rfl⟩
    · cases hk
  · next hnegation =>
    obtain ⟨done, hstuck⟩ := readNamed_stuck h
    refine ⟨done, hstuck.split, ?_, fun {tokens' left' b l} hs hleft hr => ?_⟩
    · obtain ⟨⟨name, args⟩, more, hmore⟩ := hstuck.opens
      exact ⟨⟨false, name, args⟩, more, hmore⟩
    · obtain ⟨negated, name, args, -, he, hnone⟩ := readCall_sound hr
      cases negated with
      | false => exact hstuck.blocked hs hleft (readNamed_complete false he hnone)
      | true =>
        have hhead := hstuck.head? hs hleft
        rw [he] at hhead
        obtain ⟨p, rest, rfl⟩ := exists_of_head? hhead.symm
        exact hnegation _ _ rfl

theorem readChain_stuck {tokens : List Token} {e : Refusal} (h : readChain tokens = .error e) :
    ∃ done, Stuck readChain Chain.yield tokens done (lexemes e.rest) := by
  have hfirst {tokens : List Token} {b : List Call} {l : List Lexeme}
      (hr : Reads (readChain tokens) b l) :
      ∃ a rest h, readCall true tokens = .ok (a, ⟨rest, h⟩) ∧
        ∀ p more, rest = ⟨.conjunction, p⟩ :: more → ∃ b l, Reads (readChain more) b l := by
    unfold readChain at hr
    obtain ⟨a, rest, h, hx, hk⟩ := reads_bind.1 hr
    refine ⟨a, rest, h, hx, ?_⟩
    rintro p more rfl
    obtain ⟨others, rest', hl', hs, -⟩ := reads_bind.1 hk
    exact ⟨others, _, rest', hl', hs, rfl⟩
  unfold readChain at h
  obtain hs | ⟨⟨first, rest, hl⟩, hs, hk⟩ := error_of_bind h
  · obtain ⟨done, hstuck⟩ := readCall_stuck hs
    refine ⟨done, hstuck.first (fun hr => ?_) fun fn => ⟨.one fn, [], (List.append_nil _).symm⟩⟩
    obtain ⟨a, rest, h, hx, -⟩ := hfirst hr
    exact ⟨a, _, rest, h, hx, rfl⟩
  · have hr : Reads (readCall true tokens) first (lexemes rest) := ⟨_, hl, hs, rfl⟩
    obtain ⟨fn, rfl, he⟩ := readCall_recognizes.sound hr
    dsimp only at hk
    split at hk
    · next q more hl' =>
      obtain hv | ⟨_, -, hk⟩ := error_of_bind hk
      · obtain ⟨done, hstuck⟩ := readChain_stuck hv
        exact ⟨_, hstuck.second readCall_recognizes.settles hr he hfirst fun others =>
          ⟨.more fn others, [], by simp [Chain.yield, Separated.yield]⟩⟩
      · cases hk
    · cases hk
termination_by tokens.length
decreasing_by
  have := hl
  simp only [List.length_cons] at this
  omega

end Config
end ProxyPlane
