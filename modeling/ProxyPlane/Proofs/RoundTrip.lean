import ProxyPlane.Proofs.Lexer
import ProxyPlane.Snapshot.Basic

/-!
# Reading back what was written

A section that was read and is written in the text of a snapshot is read again as the same section.
What was read has a derivation; taking the semicolons and the empty parentheses of outbounds out of
it leaves a derivation of the text that is written, with the same meaning.

A key of a parameter has to stand without quotes in the source.  The statements do not tell whether
it did, and a key such as `&` can be read in quotes only but is written without.

## Main definitions

* `Items.params`, `BareKeys` — the parameters of a tree, and sources with no key in quotes.
* `Param.TightKey` — a key that is in quotes needs them.
* `Prints`, `Spelled`, `Glue` — a text has these tokens in front of a blank or a delimiter, in front
  of anything, and in front of anything and behind a word.
* `Items.tidy` — a derivation without what the writer leaves out.
-/

set_option autoImplicit false
namespace ProxyPlane
namespace Config

open Grammar

/-! ## Keys without quotes -/

namespace Grammar

def Args.params : Args → List Param
  | .empty => []
  | .list params => params.toList

def Chain.params (chain : Chain) : List Param :=
  chain.toList.flatMap fun fn => fn.args.params

def Rule.params (rule : Rule) : List Param :=
  Chain.params rule.conditions ++ rule.args.elim [] Args.params

def Value.params : Value → List Param
  | .chain calls => Chain.params calls
  | .scalar _ => []

/-- The parameters of all functions in statements, those in blocks included. -/
def Items.params : Items → List Param
  | .nil => []
  | .semicolon others => others.params
  | .assignment _ value others => value.params ++ others.params
  | .block _ body others => body.params ++ others.params
  | .rule r others => r.params ++ others.params

/-- A parameter with a key has it without quotes. -/
def Param.BareKey (p : Param) : Prop :=
  p.second.isSome = true → p.first.quoted = false

instance (p : Param) : Decidable p.BareKey :=
  inferInstanceAs (Decidable (_ → _))

/-- A parameter with a key has it in quotes only where it needs them. -/
def Param.TightKey (p : Param) : Prop :=
  p.second.isSome = true → p.first.quoted = true → needsQuotes p.first.text.toList = true

instance (p : Param) : Decidable p.TightKey :=
  inferInstanceAs (Decidable (_ → _ → _))

theorem Param.BareKey.tight {p : Param} (h : p.BareKey) : p.TightKey :=
  fun hs hq => absurd hq (by simp [h hs])

end Grammar

/-- No function in a source has a parameter with its key in quotes. -/
def BareKeys (source : String) : Prop :=
  ∀ items : Items, items.Spans source → ∀ p ∈ items.params, p.BareKey

/-! ## Texts and what may follow them -/

/-- A text has these tokens in front of a blank, a delimiter or the end. -/
def Prints (text : String) (ls : List Lexeme) : Prop :=
  ∀ ⦃s ms⦄, Stops s → Spells s ms → Spells (text.toList ++ s) (ls ++ ms)

/-- A text has these tokens in front of anything. -/
def Spelled (text : String) (ls : List Lexeme) : Prop :=
  ∀ ⦃s ms⦄, Spells s ms → Spells (text.toList ++ s) (ls ++ ms)

/-- A text that is spelled in front of anything and ends a word that stands in front of it. -/
structure Glue (text : String) (ls : List Lexeme) : Prop where
  spelled : Spelled text ls
  stops : ∀ s, Stops (text.toList ++ s)

variable {a b : String} {x y : List Lexeme}

theorem Spelled.prints (h : Spelled a x) : Prints a x :=
  fun _ _ _ hm => h hm

theorem Spelled.append (ha : Spelled a x) (hb : Spelled b y) : Spelled (a ++ b) (x ++ y) := by
  intro s ms h
  rw [String.toList_append, List.append_assoc, List.append_assoc]
  exact ha (hb h)

theorem Spelled.append_prints (ha : Spelled a x) (hb : Prints b y) : Prints (a ++ b) (x ++ y) := by
  intro s ms hs h
  rw [String.toList_append, List.append_assoc, List.append_assoc]
  exact ha (hb hs h)

theorem Prints.append_glue (ha : Prints a x) (hb : Glue b y) : Spelled (a ++ b) (x ++ y) := by
  intro s ms h
  rw [String.toList_append, List.append_assoc, List.append_assoc]
  exact ha (hb.stops s) (hb.spelled h)

theorem Spelled.spells (h : Spelled a x) : Spells a.toList x := by
  simpa using h spells_nil

theorem spelled_empty : Spelled "" [] :=
  fun _ _ h => h

theorem spelled_indent (depth : Nat) : Spelled (indent depth) [] := by
  intro s ms h
  rw [indent, String.toList_ofList]
  induction 4 * depth with
  | zero => exact h
  | succ n ih => exact spells_blank rfl ih

theorem stops_cons {c : Char} (s : List Char)
    (h : Text.isBlank c = true ∨ isDelimiter c = true) : Stops (c :: s) := by
  intro d hd
  cases hd
  exact h

theorem glue_colon : Glue ": " [.colon] :=
  ⟨fun _ _ h => spells_punctuation rfl (spells_blank rfl h), fun _ => stops_cons _ (.inr rfl)⟩

theorem glue_comma : Glue ", " [.comma] :=
  ⟨fun _ _ h => spells_punctuation rfl (spells_blank rfl h), fun _ => stops_cons _ (.inr rfl)⟩

theorem glue_open : Glue "(" [.openParen] :=
  ⟨fun _ _ h => spells_punctuation rfl h, fun _ => stops_cons _ (.inr rfl)⟩

theorem glue_close : Glue ")" [.closeParen] :=
  ⟨fun _ _ h => spells_punctuation rfl h, fun _ => stops_cons _ (.inr rfl)⟩

theorem glue_conjunction : Glue " && " [.conjunction] :=
  ⟨fun _ _ h => spells_blank rfl (spells_conjunction (spells_blank rfl h)),
    fun _ => stops_cons _ (.inl rfl)⟩

theorem glue_arrow : Glue " -> " [.arrow] :=
  ⟨fun _ _ h => spells_blank rfl (spells_arrow (spells_blank rfl h)),
    fun _ => stops_cons _ (.inl rfl)⟩

theorem glue_newline : Glue "\n" [] :=
  ⟨fun _ _ h => spells_blank rfl h, fun _ => stops_cons _ (.inl rfl)⟩

theorem glue_openBrace : Glue " \x7b\n" [.openBrace] :=
  ⟨fun _ _ h => spells_blank rfl (spells_punctuation rfl (spells_blank rfl h)),
    fun _ => stops_cons _ (.inl rfl)⟩

theorem spelled_closeBrace : Spelled "\x7d\n" [.closeBrace] :=
  fun _ _ h => spells_punctuation rfl (spells_blank rfl h)

theorem spelled_negation : Spelled "!" [.negation] :=
  fun _ _ h => spells_punctuation rfl h

/-! ## Phrases -/

theorem word_prints {w : String} (h : (Lexeme.word w).Written) : Prints w [.word w] := by
  intro s ms hs hm
  have := spells_word h hs hm
  rwa [String.ofList_toList] at this

/-- A text in quotes is written with the quote that it does not hold. -/
theorem quoted_spelled {text : String} (h : (Lexeme.quoted text).Written) :
    Spelled (quoteFor text ++ text ++ quoteFor text) [.quoted text] := by
  have spell (q : Char) (hq : q = '\'' ∨ q = '"') (hm : q ∉ text.toList) :
      Spelled (String.singleton q ++ text ++ String.singleton q) [.quoted text] := by
    intro s ms hs
    have := spells_quoted hq hm hs
    simpa using this
  by_cases hc : '\'' ∈ text.toList
  · have hq : quoteFor text = String.singleton '"' := by simp [quoteFor, hc]
    rw [hq]
    exact spell '"' (.inr rfl) (h.resolve_left (fun hn => hn hc))
  · have hq : quoteFor text = String.singleton '\'' := by simp [quoteFor, hc]
    rw [hq]
    exact spell '\'' (.inl rfl) hc

/-- **A literal is written as it was.** -/
theorem scalar_prints {x : Scalar} (h : (lexemeOf x).Written) : Prints x.render [lexemeOf x] := by
  obtain ⟨text, _ | _⟩ := x
  · have hw : (Lexeme.word text).Written := h
    rw [Scalar.render, if_pos (by simp [IsWord.needsQuotes hw])]
    exact word_prints hw
  · exact (quoted_spelled h).prints

/-- A text that is in quotes only where it needs them is known without a note of them. -/
theorem render_bare {x : Scalar} (h : x.quoted = true → needsQuotes x.text.toList = true) :
    (Scalar.bare x.text).render = x.render := by
  obtain ⟨text, _ | _⟩ := x
  · rfl
  · simp [Scalar.render, Scalar.bare, h rfl]

theorem param_prints {p : Param} (h : ∀ l ∈ p.yield, l.Written) (hk : p.TightKey) :
    Prints p.argument.render p.yield := by
  obtain ⟨first, _ | value⟩ := p
  · exact scalar_prints (h (lexemeOf first) (by simp [Param.yield]))
  · have hfirst := scalar_prints (h (lexemeOf first) (by simp [Param.yield]))
    have hvalue := scalar_prints (h (lexemeOf value) (by simp [Param.yield]))
    show Prints ((Scalar.bare first.text).render ++ ": " ++ value.render) _
    rw [render_bare (hk rfl)]
    exact (hfirst.append_glue glue_colon).append_prints hvalue

theorem intercalate_more {α : Type} (glue : String) (render : α → String) (a : α)
    (others : Separated α) :
    String.intercalate glue ((Separated.more a others).toList.map render) =
      render a ++ glue ++ String.intercalate glue (others.toList.map render) := by
  cases others <;> simp [Separated.toList, String.intercalate_cons_cons]

/-- Phrases with glue between them. -/
theorem separated_prints {α : Type} {separator : Lexeme} {glue : String} {item : α → List Lexeme}
    {render : α → String} (hg : Glue glue [separator]) {phrases : Separated α}
    (h : ∀ a ∈ phrases.toList, Prints (render a) (item a)) :
    Prints (String.intercalate glue (phrases.toList.map render))
      (phrases.yield separator item) := by
  induction phrases with
  | one a => simpa [Separated.toList, Separated.yield] using h a (by simp [Separated.toList])
  | more a others ih =>
    have ha := h a (by simp [Separated.toList])
    have ho := ih fun b hb => h b (by simp [Separated.toList, hb])
    rw [intercalate_more, Separated.yield]
    simpa using (ha.append_glue hg).append_prints ho

/-- The arguments of a call and the parentheses around them. -/
theorem args_glue {args : Args} (h : ∀ l ∈ args.yield, l.Written)
    (hk : ∀ p ∈ args.params, p.TightKey) :
    Glue ("(" ++ String.intercalate ", " (args.arguments.map Argument.render) ++ ")")
      args.yield := by
  refine ⟨?_, fun s => by simpa using stops_cons _ (.inr rfl)⟩
  cases args with
  | empty => exact glue_open.spelled.append glue_close.spelled
  | list ps =>
    have hp : Prints (String.intercalate ", " (ps.toList.map fun p => p.argument.render))
        (ps.yield .comma Param.yield) := by
      refine separated_prints glue_comma fun p hp => param_prints (fun l hl => h l ?_) (hk p hp)
      simp [Args.yield, ps.mem_yield hp hl]
    have hs := (glue_open.spelled.append_prints hp).append_glue glue_close
    simpa [Args.arguments, Args.yield, Function.comp_def] using hs

/-- A call is written with its parentheses, whether or not it has arguments. -/
theorem render_callOf (negated : Bool) (name : String) (args : Args) :
    (callOf negated name (some args)).render = (if negated then "!" else "") ++ name
      ++ ("(" ++ String.intercalate ", " (args.arguments.map Argument.render) ++ ")") := by
  cases negated <;> simp [callOf, Call.render, String.append_assoc]

theorem call_prints (negated : Bool) {name : String} {args : Args}
    (hn : (Lexeme.word name).Written) (h : ∀ l ∈ args.yield, l.Written)
    (hk : ∀ p ∈ args.params, p.TightKey) :
    Prints (callOf negated name (some args)).render (sign negated ++ target name (some args)) := by
  have hsign : Spelled (if negated then "!" else "") (sign negated) := by
    cases negated with
    | true => exact spelled_negation
    | false => exact spelled_empty
  have hc := ((hsign.append_prints (word_prints hn)).append_glue (args_glue h hk)).prints
  rw [render_callOf]
  simpa [target] using hc

theorem chain_prints (chain : Chain) (h : ∀ l ∈ Chain.yield chain, l.Written)
    (hk : ∀ p ∈ Chain.params chain, p.TightKey) :
    Prints (renderChain (Chain.calls chain)) (Chain.yield chain) := by
  have hf : ∀ fn ∈ chain.toList, Prints fn.call.render fn.yield := by
    intro fn hfn
    have hw : ∀ l ∈ fn.yield, l.Written := fun l hl => h l (chain.mem_yield hfn hl)
    rw [Fn.yield] at hw ⊢
    refine call_prints _ (hw _ ?_) (fun l hl => hw l ?_) fun p hp => hk p ?_
    · simp [target]
    · simp [target, hl]
    · exact List.mem_flatMap.2 ⟨fn, hfn, hp⟩
  have hc := separated_prints glue_conjunction hf
  rw [renderChain, Chain.calls, List.map_map]
  exact hc

/-! ## Derivations of what is written -/

/-- The arguments of an outbound that are written. -/
def Grammar.tidyArgs : Option Args → Option Args
  | some (.list params) => some (.list params)
  | _ => none

/-- A derivation without semicolons and without empty parentheses behind an outbound. -/
def Grammar.Items.tidy : Items → Items
  | .nil => .nil
  | .semicolon others => others.tidy
  | .assignment key value others => .assignment key value others.tidy
  | .block name body others => .block name body.tidy others.tidy
  | .rule r others => .rule { r with args := tidyArgs r.args } others.tidy

/-- **Nothing of the meaning is left out.** -/
theorem Grammar.Items.statements_tidy (items : Items) :
    items.tidy.statements = items.statements := by
  induction items with
  | nil => rfl
  | semicolon others ih => exact ih
  | assignment key value others ih => rw [tidy, statements, statements, ih]
  | block name body others ihb iho => rw [tidy, statements, statements, ihb, iho]
  | rule r others ih =>
    have hr : ({ r with args := tidyArgs r.args } : Rule).rule = r.rule := by
      obtain ⟨conditions, outbound, _ | _ | _⟩ := r <;> rfl
    rw [tidy, statements, statements, ih, hr]

/-- An outbound has parentheses when it has arguments. -/
theorem target_prints (name : String) (args : Option Args)
    (h : ∀ l ∈ target name args, l.Written) (hk : ∀ p ∈ args.elim [] Args.params, p.TightKey) :
    Prints (callOf false name args).renderTarget (target name (tidyArgs args)) := by
  have hn : (Lexeme.word name).Written := h _ (by cases args <;> simp [target])
  rcases args with _ | _ | ps
  · exact word_prints hn
  · exact word_prints hn
  · have hw : ∀ l ∈ (Args.list ps).yield, l.Written := fun l hl => h l (by simp [target, hl])
    rw [Call.renderTarget, if_neg (by cases ps <;> simp [callOf, Args.arguments, Separated.toList])]
    exact call_prints false hn hw hk

theorem rule_prints (r : Grammar.Rule) (h : ∀ l ∈ r.yield, l.Written)
    (hk : ∀ p ∈ r.params, p.TightKey) :
    Prints r.rule.render ({ r with args := tidyArgs r.args } : Grammar.Rule).yield := by
  have hc := chain_prints r.conditions (fun l hl => h l (List.mem_append_left _ hl))
    fun p hp => hk p (List.mem_append_left _ hp)
  have ht := target_prints r.outbound r.args
    (fun l hl => h l (List.mem_append_right _ (List.mem_cons_of_mem _ hl)))
    fun p hp => hk p (List.mem_append_right _ hp)
  have hr := (hc.append_glue glue_arrow).append_prints ht
  rw [List.append_assoc] at hr
  exact hr

theorem value_prints (value : Grammar.Value) (h : ∀ l ∈ value.yield, l.Written)
    (hk : ∀ p ∈ value.params, p.TightKey) : Prints value.value.render value.yield := by
  cases value with
  | chain calls => exact chain_prints calls h hk
  | scalar literal => exact scalar_prints (h _ (by simp [Grammar.Value.yield]))

/-- **Statements are written as a derivation of them.** -/
theorem statements_spelled {items : Items} (h : ∀ l ∈ items.yield, l.Written)
    (hk : ∀ p ∈ items.params, p.TightKey) (depth : Nat) :
    Spelled (renderStatements depth items.statements) items.tidy.yield := by
  induction items generalizing depth with
  | nil => exact spelled_empty
  | semicolon others ih => exact ih (fun l hl => h l (List.mem_cons_of_mem _ hl)) hk depth
  | assignment key value others ih =>
    have hv := value_prints value (fun l hl => h l (by simp [Items.yield, hl]))
      fun p hp => hk p (List.mem_append_left _ hp)
    have ho := ih (fun l hl => h l (by simp [Items.yield, hl]))
      (fun p hp => hk p (List.mem_append_right _ hp)) depth
    have hkey := word_prints (h (.word key) (by simp [Items.yield]))
    have hstart := (spelled_indent depth).append_prints hkey
    have hline := ((hstart.append_glue glue_colon).append_prints hv).append_glue glue_newline
    have hs := hline.append ho
    simpa [Items.statements, Items.tidy, Items.yield, renderStatements, Statement.render] using hs
  | block name body others ihb iho =>
    have hb := ihb (fun l hl => h l (by simp [Items.yield, hl]))
      (fun p hp => hk p (List.mem_append_left _ hp)) (depth + 1)
    have ho := iho (fun l hl => h l (by simp [Items.yield, hl]))
      (fun p hp => hk p (List.mem_append_right _ hp)) depth
    have hname := word_prints (h (.word name) (by simp [Items.yield]))
    have hopen := ((spelled_indent depth).append_prints hname).append_glue glue_openBrace
    have hclose := (spelled_indent depth).append spelled_closeBrace
    have hs := ((hopen.append hb).append hclose).append ho
    simpa [Items.statements, Items.tidy, Items.yield, renderStatements, Statement.render,
      String.append_assoc] using hs
  | rule r others ih =>
    have hr := rule_prints r (fun l hl => h l (List.mem_append_left _ hl))
      fun p hp => hk p (List.mem_append_left _ hp)
    have ho := ih (fun l hl => h l (List.mem_append_right _ hl))
      (fun p hp => hk p (List.mem_append_right _ hp)) depth
    have hline := ((spelled_indent depth).append_prints hr).append_glue glue_newline
    have hs := hline.append ho
    simpa [Items.statements, Items.tidy, Items.yield, renderStatements, Statement.render] using hs

/-! ## Sections -/

/-- The statements of a section are those of a part of the tree: all of it, or the one block. -/
theorem exists_unwrapped (kind : SectionKind) (items : Items) :
    ∃ part : Items, part.statements = unwrap kind items.statements ∧
      part.yield.Sublist items.yield ∧ ∀ p ∈ part.params, p ∈ items.params := by
  have block {name : String} {body : List Statement} (items : Items)
      (h : items.statements = [.block name body]) :
      ∃ part : Items, part.statements = body ∧
        part.yield.Sublist items.yield ∧ ∀ p ∈ part.params, p ∈ items.params := by
    induction items with
    | nil => cases h
    | semicolon others ih =>
      obtain ⟨part, he, hy, hp⟩ := ih h
      exact ⟨part, he, hy.cons _, hp⟩
    | assignment key value others ih => cases h
    | block n b others ihb iho =>
      rw [Items.statements, List.cons.injEq, Statement.block.injEq] at h
      have hy := ((List.sublist_append_left b.yield (.closeBrace :: others.yield)).cons
        .openBrace).cons (.word n)
      exact ⟨b, h.1.2, hy, fun p hp => List.mem_append_left _ hp⟩
    | rule r others ih => cases h
  unfold unwrap
  split
  · rename_i name body h
    split
    · exact block items h
    · exact ⟨items, h, .refl _, fun _ hp => hp⟩
  · exact ⟨items, rfl, .refl _, fun _ hp => hp⟩

/-- What the statements of a section are derived from, in a source with no key in quotes. -/
theorem exists_bare {kind : SectionKind} {source : String} {statements : List Statement}
    (hk : BareKeys source) (h : parseSection kind source = .ok statements) :
    ∃ part : Items, part.statements = statements ∧ (∀ l ∈ part.yield, l.Written) ∧
      ∀ p ∈ part.params, p.BareKey := by
  obtain ⟨items, hs, rfl⟩ := parseSection_ok_iff.1 h
  obtain ⟨part, he, hy, hp⟩ := exists_unwrapped kind items
  refine ⟨part, he, ?_, fun p hm => hk items hs p (hp p hm)⟩
  obtain ⟨stream, ht, hd⟩ := hs
  exact fun l hl => tokenizeFrom_written ht l (hd.yield_eq ▸ hy.subset hl)

theorem blockName_written (kind : SectionKind) : (Lexeme.word kind.blockName).Written := by
  cases kind <;> refine ⟨rfl, nofun, fun c hc => ?_⟩ <;> cases hc <;> decide

/-- **A section is read back from the block that is written for it.** -/
theorem parseSection_renderBlock {kind : SectionKind} {source : String}
    {statements : List Statement} (hk : BareKeys source)
    (h : parseSection kind source = .ok statements) :
    parseSection kind (Snapshot.renderBlock kind.blockName (renderStatements 1 statements)) =
      .ok statements := by
  obtain ⟨part, he, hwritten, hbare⟩ := exists_bare hk h
  have hbody := statements_spelled hwritten (fun p hp => (hbare p hp).tight) 1
  have hblock := (((word_prints (blockName_written kind)).append_glue glue_openBrace).append hbody).append
    spelled_closeBrace
  obtain ⟨stream, ht, hl⟩ := hblock.spells .start
  refine parseSection_ok_iff.2 ⟨.block kind.blockName part.tidy .nil,
    ⟨stream, ?_, Items.derives_iff.2 ?_⟩, ?_⟩
  · rw [← he]
    exact ht
  · rw [hl]
    simp [Items.yield]
  · rw [← he]
    simp [Items.statements, part.statements_tidy, unwrap]

theorem GlobalOptions.statements_of_ok {statements : List Statement} {options : GlobalOptions}
    (h : GlobalOptions.ofStatements statements = .ok options) :
    options.statements = statements := by
  unfold GlobalOptions.ofStatements at h
  dsimp only at h
  split at h
  · cases h
    rfl
  · split at h <;> cases h
    rfl

theorem DnsOptions.statements_of_ok {statements : List Statement} {options : DnsOptions}
    (h : DnsOptions.ofStatements statements = .ok options) :
    options.statements = statements := by
  unfold DnsOptions.ofStatements at h
  split at h
  · cases h
    rfl
  · split at h <;> cases h
    rfl

/-- What the options are made from is read back, and with it the options. -/
theorem options_read_back {γ : Type} {kind : SectionKind} {source : String}
    {ofStatements : List Statement → Except GrammarError γ} {body : γ → List Statement}
    {options : γ} (hbody : ∀ {statements options}, ofStatements statements = .ok options →
      body options = statements)
    (hk : BareKeys source) (h : (parseSection kind source >>= ofStatements) = .ok options) :
    (parseSection kind (Snapshot.renderBlock kind.blockName (renderStatements 1 (body options)))
      >>= ofStatements) = .ok options := by
  match hp : parseSection kind source with
  | .error e =>
    rw [hp] at h
    cases h
  | .ok statements =>
    rw [hp] at h
    rw [hbody h, parseSection_renderBlock hk hp]
    exact h

/-- The block of the global options in the text of a snapshot. -/
def GlobalOptions.block (options : GlobalOptions) : String :=
  Snapshot.renderBlock "global" (renderStatements 1 options.statements)

/-- The block of the dns options in the text of a snapshot. -/
def DnsOptions.block (options : DnsOptions) : String :=
  Snapshot.renderBlock "dns" (renderStatements 1 options.statements)

/-- **What the text of a snapshot says about a section is read as that section.**  The text of a
snapshot begins with the block of its global options and has that of its dns options further on;
and either block gives back the options that it was written for, when these were read from a source
with no key of a parameter in quotes. -/
theorem options_round_trip {source : String} (hk : BareKeys source) :
    (∀ options, GlobalOptions.parse source = .ok options →
      GlobalOptions.parse options.block = .ok options) ∧
    (∀ options, DnsOptions.parse source = .ok options →
      DnsOptions.parse options.block = .ok options) ∧
    ∀ snapshot : Snapshot, ∃ between behind, snapshot.render =
      snapshot.sections.global.block ++ between ++ snapshot.sections.dns.block ++ behind := by
  refine ⟨fun options h => ?_, fun options h => ?_, fun snapshot => ?_⟩
  · exact options_read_back GlobalOptions.statements_of_ok hk h
  · exact options_read_back DnsOptions.statements_of_ok hk h
  · refine ⟨Snapshot.renderBlock "node" (String.join (snapshot.nodes.map Snapshot.renderNode))
      ++ Snapshot.renderBlock "group" (String.join (snapshot.groups.map Snapshot.renderGroup)),
      Snapshot.renderBlock "routing" (Snapshot.renderRouting snapshot.sections.routing), ?_⟩
    simp only [Snapshot.render, GlobalOptions.block, DnsOptions.block, String.append_assoc]

theorem spans_of_yield {source : String} {items : Items}
    (h : (tokenize source).toOption.map (fun stream => lexemes stream.tokens) = some items.yield) :
    items.Spans source := by
  match ht : tokenize source with
  | .error e =>
    rw [ht] at h
    cases h
  | .ok stream =>
    rw [ht] at h
    exact ⟨stream, ht, Items.derives_iff.2 (Option.some.inj h).symm⟩

/-- Of a source that is read, the one derivation tells whether a key is in quotes. -/
theorem Grammar.Items.Spans.bareKeys {source : String} {items : Items} (h : items.Spans source)
    (hk : ∀ p ∈ items.params, p.BareKey) : BareKeys source :=
  fun _ hs => hs.unique h ▸ hk

/-- A source with a comment, a nested block, a negated call, and a brace, a line break and both
quotes inside of quotes. -/
def probing : String :=
  "global \x7b # x\n probe \x7b if: !up(url: \"it's\", now) && ok() \x7d; log_level: '\x7d\n\"' a(b) -> c() \x7d"

/-- The derivation of that source. -/
def probingItems : Items :=
  .block "global"
    (.block "probe"
      (.assignment "if"
        (.chain (.more
          ⟨true, "up", .list (.more ⟨.bare "url", some (.inQuotes "it's")⟩
            (.one ⟨.bare "now", none⟩))⟩
          (.one ⟨false, "ok", .empty⟩))) .nil) <| .semicolon <|
      .assignment "log_level" (.scalar (.inQuotes "\x7d\n\"")) <|
      .rule ⟨.one ⟨false, "a", .list (.one ⟨.bare "b", none⟩)⟩, "c", some .empty⟩ .nil)
    .nil

theorem options_round_trip_probing :
    BareKeys probing ∧
      ∃ global dns, GlobalOptions.parse probing = .ok global ∧
        GlobalOptions.parse global.block = .ok global ∧
        DnsOptions.parse probing = .ok dns ∧ DnsOptions.parse dns.block = .ok dns := by
  have hspans : probingItems.Spans probing := spans_of_yield (by decide +kernel)
  have hk : BareKeys probing := hspans.bareKeys (by decide +kernel)
  have hparse (kind : SectionKind) :
      parseSection kind probing = .ok (unwrap kind probingItems.statements) :=
    parseSection_ok_iff.2 ⟨_, hspans, rfl⟩
  have hg : GlobalOptions.parse probing =
      .ok ⟨unwrap .config probingItems.statements, 12345, "\x7d\n\""⟩ := by
    rw [GlobalOptions.parse, hparse]
    rfl
  have hd : DnsOptions.parse probing = .ok ⟨probingItems.statements, .any⟩ := by
    rw [DnsOptions.parse, hparse]
    rfl
  obtain ⟨hglobal, hdns, -⟩ := options_round_trip hk
  exact ⟨hk, _, _, hg, hglobal _ hg, hd, hdns _ hd⟩

/-- A key in quotes may be one that cannot be read without. -/
example : (GlobalOptions.parse "a: f('&': b)").isOk = true ∧
    (GlobalOptions.parse (GlobalOptions.block ⟨[.assignment "a"
      (.calls [⟨"f", false, [⟨some "&", .bare "b"⟩]⟩])], 12345, "info"⟩)).isOk = false := by
  decide +kernel

end Config
end ProxyPlane
