import ProxyPlane.Proofs.RoundTrip

/-!
# Sections with and without their block

A section may be written as its statements alone or inside the block that is named for its kind, and
it is the same section.  The statements are read once up to the end of the text and once up to a
brace, but no derivation depends on which of the two stands behind it, so all that could go wrong is
in the characters: a comment, a word or a quoted text could reach into what is written behind it.
A line break prevents that.  It ends comments and words, and in a text that has tokens no quoted
text is open at the end.

The block is taken away once.  A text that is one block of its kind already is read as the inside of
that block, and put into another one it keeps the inner block.

## What is here

* `spells_append_line` — behind a line break the tokens go on as if nothing stood in front.
* `wrapped` — a text inside the block of a kind.
* `SingleBlock` — nothing but separators and comments stands beside one block of a kind.
* `parseSection_wrapped` — in the block the statements of the whole text are read.
* `wrapped_agrees` — a section is read the same with and without its block.
-/

set_option autoImplicit false
namespace ProxyPlane
namespace Config

open Grammar

/-! ## Tokens behind a line break -/

theorem stops_newline (s : List Char) : Stops ('\n' :: s) :=
  stops_cons s (.inl rfl)

/-- A comment does not reach over a line break. -/
theorem dropWhile_append_line (s t : List Char) :
    (s ++ '\n' :: t).dropWhile (· != '\n') = s.dropWhile (· != '\n') ++ '\n' :: t := by
  rw [List.dropWhile_append]
  split
  · rename_i hs
    rw [List.isEmpty_iff.1 hs]
    rfl
  · rfl

/-- **Behind a line break the tokens go on as if nothing stood in front.** -/
theorem spells_append_line {p : Position} {s t : List Char} {stream : TokenStream}
    {ls : List Lexeme} (h : tokenizeFrom p s = .ok stream) (ht : Spells t ls) :
    Spells (s ++ '\n' :: t) (lexemes stream.tokens ++ ls) := by
  -- the first token is read as before, and the others by the induction hypothesis
  have cons {r : Except (Position × LexicalProblem) TokenStream} {x : Token} {s u : List Char}
      {stream : TokenStream} (h : (do return (← r).cons x) = .ok stream)
      (ih : ∀ {rest : TokenStream}, r = .ok rest → Spells s (lexemes rest.tokens ++ ls))
      (step : ∀ {ms}, Spells s ms → Spells u (x.lexeme :: ms)) :
      Spells u (lexemes stream.tokens ++ ls) := by
    obtain ⟨rest, hr, hs⟩ := tokens_of_cons h
    rw [hs]
    exact step (ih hr)
  fun_induction tokenizeFrom p s generalizing stream with
  | case1 =>
    cases h
    exact spells_blank rfl ht
  | case2 p rest ih => exact cons h ih spells_arrow
  | case3 p rest ih => exact cons h ih spells_conjunction
  | case4 => cases h
  | case5 p c rest ha hand hamp hb ih => exact spells_blank hb (ih h)
  | case6 p rest ha hand hamp hb ih =>
    rw [List.cons_append]
    refine spells_comment ?_
    rw [dropWhile_append_line]
    exact ih h
  | case7 => cases h
  | case8 p c rest ha hand hamp hb hc hq text more hs ih =>
    refine cons h ih fun hm => ?_
    rw [append_of_splitQuoted hs, List.cons_append, List.append_assoc, List.cons_append]
    exact spells_quoted hq (not_mem_of_splitQuoted hs) hm
  | case9 p c rest ha hand hamp hb hc hq l hl ih => exact cons h ih (spells_punctuation hl)
  | case10 p c rest ha hand hamp hb hc hq hn =>
    rename_i ih
    refine cons h ih fun hm => ?_
    have hsplit := splitWord_append_stops rest (stops_newline t)
    have hdash : c = '-' → (rest ++ '\n' :: t).head? ≠ some '>' := by
      rintro rfl hs
      cases rest with
      | nil => cases hs
      | cons d more =>
        cases hs
        exact ha more rfl rfl
    have hword := spells_splitWord hdash hamp hb hc hq hn (by rw [hsplit]; exact hm)
    rw [hsplit] at hword
    exact hword

/-! ## The block of a section -/

/-- A text inside the block of a kind, on lines of its own. -/
def wrapped (kind : SectionKind) (source : String) : String :=
  kind.blockName ++ " \x7b\n" ++ source ++ "\n\x7d"

/-- A text that is one block of a kind: its tokens are those of a block with the name of the kind,
and beside the block there are separators only. -/
def SingleBlock (kind : SectionKind) (source : String) : Prop :=
  ∃ (stream : TokenStream) (body : Items) (before after : Nat), tokenize source = .ok stream ∧
    lexemes stream.tokens = List.replicate before .semicolon ++
      .word kind.blockName :: .openBrace :: (body.yield ++ .closeBrace ::
        List.replicate after .semicolon)

/-- Separators in front of statements. -/
def Grammar.Items.behind (separators : Nat) (items : Items) : Items :=
  separators.repeat Items.semicolon items

theorem Grammar.Items.behind_succ (n : Nat) (items : Items) :
    items.behind (n + 1) = .semicolon (items.behind n) :=
  rfl

theorem Grammar.Items.yield_behind (n : Nat) (items : Items) :
    (items.behind n).yield = List.replicate n .semicolon ++ items.yield := by
  induction n with
  | zero => rfl
  | succ n ih => rw [behind_succ, yield, ih, List.replicate_succ, List.cons_append]

theorem Grammar.Items.statements_behind (n : Nat) (items : Items) :
    (items.behind n).statements = items.statements := by
  induction n with
  | zero => rfl
  | succ n ih => rw [behind_succ, statements, ih]

/-- No statements are written as separators. -/
theorem Grammar.Items.exists_behind_nil {items : Items} (h : items.statements = []) :
    ∃ n, items = Items.behind n .nil := by
  induction items with
  | nil => exact ⟨0, rfl⟩
  | semicolon others ih =>
    obtain ⟨n, rfl⟩ := ih h
    exact ⟨n + 1, rfl⟩
  | assignment key value others ih => cases h
  | block name body others ihb iho => cases h
  | rule r others ih => cases h

/-- One block is written as a block with separators on either side. -/
theorem Grammar.Items.exists_behind_block {items : Items} {name : String} {body : List Statement}
    (h : items.statements = [.block name body]) :
    ∃ (before after : Nat) (inner : Items), inner.statements = body ∧
      items = Items.behind before (.block name inner (Items.behind after .nil)) := by
  induction items with
  | nil => cases h
  | semicolon others ih =>
    obtain ⟨before, after, inner, hb, rfl⟩ := ih h
    exact ⟨before + 1, after, inner, hb, rfl⟩
  | assignment key value others ih => cases h
  | block n inner others ihb iho =>
    rw [statements, List.cons.injEq, Statement.block.injEq] at h
    obtain ⟨⟨rfl, rfl⟩, hn⟩ := h
    obtain ⟨after, rfl⟩ := exists_behind_nil hn
    exact ⟨0, after, inner, rfl, rfl⟩
  | rule r others ih => cases h

/-- **A text is one block of a kind just when that block is all that it states.** -/
theorem singleBlock_iff {kind : SectionKind} {source : String} :
    SingleBlock kind source ↔ ∃ body, parse kind source = .ok [.block kind.blockName body] := by
  constructor
  · rintro ⟨stream, body, before, after, ht, hl⟩
    refine ⟨body.statements, parse_ok_iff.2
      ⟨Items.behind before (.block kind.blockName body (Items.behind after .nil)),
        ⟨stream, ht, Items.derives_iff.2 ?_⟩, ?_⟩⟩
    · rw [hl]
      simp [Items.yield_behind, Items.yield]
    · simp [Items.statements_behind, Items.statements]
  · rintro ⟨body, h⟩
    obtain ⟨items, ⟨stream, ht, hd⟩, hs⟩ := parse_ok_iff.1 h
    obtain ⟨before, after, inner, -, rfl⟩ := Items.exists_behind_block hs
    refine ⟨stream, inner, before, after, ht, ?_⟩
    rw [← hd.yield_eq]
    simp [Items.yield_behind, Items.yield]

/-- **In the block of its kind a text is read as all of its statements.** -/
theorem parseSection_wrapped {kind : SectionKind} {source : String} {statements : List Statement}
    (h : parse kind source = .ok statements) :
    parseSection kind (wrapped kind source) = .ok statements := by
  obtain ⟨items, ⟨stream, ht, hd⟩, rfl⟩ := parse_ok_iff.1 h
  have hbody := spells_append_line ht (spells_punctuation (c := '\x7d') rfl spells_nil)
  have hopen := (word_prints (blockName_written kind)).append_glue glue_openBrace
  obtain ⟨whole, hw, hl⟩ := hopen hbody .start
  refine parseSection_ok_iff.2 ⟨.block kind.blockName items .nil,
    ⟨whole, ?_, Items.derives_iff.2 ?_⟩, ?_⟩
  · simpa [tokenize, wrapped, String.toList_append] using hw
  · rw [hl, ← hd.yield_eq]
    simp [Items.yield]
  · simp [Items.statements, unwrap]

theorem unwrap_of_ne {kind : SectionKind} {statements : List Statement}
    (h : ∀ body, statements ≠ [.block kind.blockName body]) :
    unwrap kind statements = statements := by
  unfold unwrap
  split
  · rename_i name body
    exact if_neg fun hn => h body (by rw [hn])
  · rfl

/-- **A section is read the same with and without its block.**  Whatever a text holds that is read
as a section, comments, quoted texts, blocks and separators included, inside the block of its kind
it is read as the same statements.  The one exception is a text that is such a block already: only
one of the two blocks is taken away then. -/
theorem wrapped_agrees {kind : SectionKind} {source : String} {statements : List Statement}
    (h : parseSection kind source = .ok statements) :
    (¬ SingleBlock kind source → parseSection kind (wrapped kind source) = .ok statements) ∧
      (SingleBlock kind source →
        parseSection kind (wrapped kind source) = .ok [.block kind.blockName statements]) := by
  obtain ⟨items, hs, rfl⟩ := parseSection_ok_iff.1 h
  have hp : parse kind source = .ok items.statements := parse_ok_iff.2 ⟨items, hs, rfl⟩
  have hw := parseSection_wrapped hp
  constructor
  · intro hn
    have hne : ∀ body, items.statements ≠ [.block kind.blockName body] :=
      fun body hb => hn (singleBlock_iff.2 ⟨body, hb ▸ hp⟩)
    rw [hw, unwrap_of_ne hne]
  · intro hb
    obtain ⟨body, hb⟩ := singleBlock_iff.1 hb
    have he : items.statements = [.block kind.blockName body] := Except.ok.inj (hp.symm.trans hb)
    rw [hw, he, unwrap, if_pos rfl]

/-- A source with braces in a quoted text and in comments, a block inside, and separators and a
comment at its end. -/
def crowded : String :=
  "log_level: '\x7d' # \x7b\nprobe \x7b up(url: now) -> direct; \x7d;; # \x7d"

/-- The derivation of that source. -/
def crowdedItems : Items :=
  .assignment "log_level" (.scalar (.inQuotes "\x7d")) <|
    .block "probe"
      (.rule ⟨.one ⟨false, "up", .list (.one ⟨.bare "url", some (.bare "now")⟩)⟩, "direct", none⟩ <|
        .semicolon .nil) <|
    .semicolon <| .semicolon .nil

theorem wrapped_agrees_crowded :
    parseSection .config crowded = .ok crowdedItems.statements ∧ ¬ SingleBlock .config crowded ∧
      parseSection .config (wrapped .config crowded) = .ok crowdedItems.statements ∧
      SingleBlock .config (wrapped .config crowded) ∧
      parseSection .config (wrapped .config (wrapped .config crowded)) =
        .ok [.block "global" crowdedItems.statements] := by
  have hspans : crowdedItems.Spans crowded := spans_of_yield (by decide +kernel)
  have hparse : parse .config crowded = .ok crowdedItems.statements :=
    parse_ok_iff.2 ⟨_, hspans, rfl⟩
  have hbare : parseSection .config crowded = .ok crowdedItems.statements :=
    parseSection_ok_iff.2 ⟨_, hspans, rfl⟩
  have hother : ¬ SingleBlock .config crowded := by
    rw [singleBlock_iff]
    rintro ⟨body, hb⟩
    cases hparse.symm.trans hb
  have hwhole : (Items.block "global" crowdedItems .nil).Spans (wrapped .config crowded) :=
    spans_of_yield (by decide +kernel)
  have hsingle : SingleBlock .config (wrapped .config crowded) :=
    singleBlock_iff.2 ⟨_, parse_ok_iff.2 ⟨_, hwhole, rfl⟩⟩
  have hwrapped := (wrapped_agrees hbare).1 hother
  exact ⟨hbare, hother, hwrapped, hsingle, (wrapped_agrees hwrapped).2 hsingle⟩

end Config
end ProxyPlane
