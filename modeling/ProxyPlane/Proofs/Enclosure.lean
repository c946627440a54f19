import ProxyPlane.Proofs.Record
import ProxyPlane.Proofs.RoutingBlock

/-!
# Stored texts inside of what is written

Parameters of policies and names of nodes are texts that the store does not look into.  What is
written for one of them should be one token that holds the text, whatever the text is, so that it
cannot change what is around it.  Quoted text knows no escapes: a text with quotes of both kinds
ends its own quotes.  And a text that begins with a `&` is written bare though no token begins with
one.  All other texts are held, and the names that nodes get from their links have no quotes at all.

## What is here

* `ReadWhole` — what is written for a text is read as one token that holds it.
* `Contained` — what keeps a text inside; `readWhole_iff` is that it does.
* `Suits.contained_iff` — what that leaves of names without a tag.
* `Group.parse_policyLine_iff`, `Group.policyCall_injective` — what comes of it for policies.
* `texts_enclosed` — all of that.
-/

set_option autoImplicit false
namespace ProxyPlane

open Config

/-! ## Texts and the tokens that hold them -/

namespace Config

open Grammar

/-- What is written for a text is, by itself, read as one token, a word or a text in quotes, that
holds the text. -/
def ReadWhole (text : String) : Prop :=
  ∃ quoted stream, tokenize (Scalar.bare text).render = .ok stream ∧
    lexemes stream.tokens = [lexemeOf ⟨text, quoted⟩]

/-- A text leaves one kind of quotes to stand around it, and it needs them if it begins with a `&`.
-/
structure Contained (text : String) : Prop where
  quotes : '\'' ∉ text.toList ∨ '"' ∉ text.toList
  mark : text.toList.head? = some '&' → needsQuotes text.toList = true

instance (text : String) : Decidable (Contained text) :=
  decidable_of_iff (_ ∧ _) ⟨fun h => ⟨h.1, h.2⟩, fun h => ⟨h.quotes, h.mark⟩⟩

theorem not_mem_of_bare {s : List Char} (h : needsQuotes s = false) : '\'' ∉ s ∧ '"' ∉ s := by
  have hnone := List.countP_eq_zero.1 (quotes_of_bare h)
  exact ⟨fun hm => hnone _ hm rfl, fun hm => hnone _ hm rfl⟩

theorem contained_iff {text : String} : Contained text ↔ (Scalar.bare text).written.Legible := by
  cases hneeds : needsQuotes text.toList with
  | false =>
    have hlegible : (Scalar.bare text).written.Legible ↔ IsWord text.toList := by
      rw [Scalar.written, Scalar.bare, hneeds]
      rfl
    rw [hlegible, isWord_iff, hneeds]
    constructor
    · exact fun h => ⟨rfl, fun hmark => by simpa [hneeds] using h.mark hmark⟩
    · exact fun h => ⟨.inl (not_mem_of_bare hneeds).1, fun hmark => absurd hmark h.2⟩
  | true =>
    have hlegible : (Scalar.bare text).written.Legible ↔
        ('\'' ∉ text.toList ∨ '"' ∉ text.toList) := by
      rw [Scalar.written, Scalar.bare, hneeds]
      rfl
    rw [hlegible]
    exact ⟨fun h => h.quotes, fun h => ⟨h, fun _ => hneeds⟩⟩

/-- In front of a blank, a delimiter or the end a contained text is one token. -/
theorem Contained.prints {text : String} (h : Contained text) :
    Prints (Scalar.bare text).render [lexemeOf (Scalar.bare text).written] := by
  rw [← render_scalar_written]
  exact scalar_prints (contained_iff.1 h)

/-- **Which texts are read whole.** -/
theorem readWhole_iff {text : String} : ReadWhole text ↔ Contained text := by
  constructor
  · rintro ⟨quoted, stream, ht, hl⟩
    have hw : Scalar.Legible ⟨text, quoted⟩ :=
      tokenizeFrom_written ht _ (hl ▸ List.mem_singleton_self _)
    -- a bare text has no quotes for a token to be in
    have hneeds : quoted = true → needsQuotes text.toList = true := by
      rintro rfl
      by_contra hbare
      rw [Bool.not_eq_true] at hbare
      have hle := quotes_lexemes_le ht
      rw [hl, Scalar.render, if_pos (by simp [Scalar.bare, hbare])] at hle
      change quotes text.toList + 2 + 0 ≤ quotes text.toList at hle
      omega
    rw [contained_iff, written_bare hw hneeds]
    exact hw
  · intro h
    have hspells : Spells (Scalar.bare text).render.toList
        [lexemeOf (Scalar.bare text).written] := by
      simpa using h.prints (s := []) (by simp [Stops]) spells_nil
    obtain ⟨stream, ht, hl⟩ := hspells .start
    exact ⟨_, stream, ht, hl⟩

end Config

/-! ## Names without a tag -/

/-- A text without quotes is contained unless it begins with a bare `&`. -/
theorem contained_of_unquoted {text : String} (h : ∀ c ∈ text.toList, c ≠ '\'' ∧ c ≠ '"') :
    Contained text ↔ (text.toList.head? = some '&' → needsQuotes text.toList = true) :=
  ⟨fun hc => hc.mark, fun hmark => ⟨.inl fun hm => (h _ hm).1 rfl, hmark⟩⟩

theorem unquoted_normalizeName {name : String} {c : Char} (h : c ∈ (normalizeName name).toList) :
    c ≠ '\'' ∧ c ≠ '"' := by
  have hnode : ("node".toList.all fun c => decide (c ≠ '\'' ∧ c ≠ '"')) = true := by decide
  rw [normalizeName] at h
  split at h
  · exact of_decide_eq_true (List.all_eq_true.1 hnode c h)
  · rw [String.toList_ofList] at h
    obtain ⟨d, -, rfl⟩ := List.mem_map.1 h
    split
    · decide
    · next hd => exact ⟨fun heq => hd (.inr (.inl heq)), fun heq => hd (.inr (.inr heq))⟩

theorem unquoted_of_mem_toString {n : Int} {c : Char} (h : c ∈ (toString n).toList) :
    c ≠ '\'' ∧ c ≠ '"' := by
  have hdigit := isDigit_of_mem_toString h
  constructor <;> rintro rfl <;> revert hdigit <;> decide

theorem unquoted_baseName {row : Node} {c : Char} (h : c ∈ (baseName row).toList) :
    c ≠ '\'' ∧ c ≠ '"' := by
  rw [baseName] at h
  split at h
  · rw [String.toList_append, String.toList_append, List.mem_append, List.mem_append] at h
    rcases h with (h | h) | h
    · exact unquoted_of_mem_toString h
    · rw [List.mem_singleton.1 h]
      decide
    · exact unquoted_normalizeName h
  · exact unquoted_normalizeName h

theorem unquoted_numbered {row : Node} {k : Nat} {c : Char}
    (h : c ∈ (numbered (baseName row) k).toList) : c ≠ '\'' ∧ c ≠ '"' := by
  rw [numbered, String.toList_append, String.toList_append, List.mem_append, List.mem_append] at h
  rcases h with (h | h) | h
  · exact unquoted_baseName h
  · rw [List.mem_singleton.1 h]
    decide
  · exact unquoted_of_mem_toString (n := k) h

/-- The name of a node from a subscription begins with a digit or a sign. -/
theorem head?_baseName {row : Node} (h : row.subscription.isSome = true) :
    ∃ c rest, (baseName row).toList = c :: rest ∧ c ≠ '&' := by
  obtain ⟨id, hid⟩ := Option.isSome_iff_exists.1 h
  obtain ⟨c, rest, hid'⟩ := List.exists_cons_of_ne_nil (toList_toString_ne_nil id)
  refine ⟨c, rest ++ ".".toList ++ (normalizeName row.name).toList, ?_, ?_⟩
  · simp only [baseName, hid, String.toList_append, hid', List.cons_append]
  · have hdigit := isDigit_of_mem_toString (n := id) (hid' ▸ List.mem_cons_self)
    rintro rfl
    revert hdigit
    decide

/-- **Names without a tag** have no quotes; those of nodes from a subscription do not begin with a
`&` either. -/
theorem Suits.contained_iff {row : Node} {name : String} (hs : Suits row name)
    (htag : row.tag = none) :
    (Contained name ↔ (name.toList.head? = some '&' → needsQuotes name.toList = true)) ∧
      (row.subscription.isSome = true → Contained name) := by
  have hunquoted : ∀ c ∈ name.toList, c ≠ '\'' ∧ c ≠ '"' := by
    cases hs with
    | tag h =>
      rw [htag] at h
      cases h
    | base => exact fun c => unquoted_baseName
    | numbered _ k => exact fun c => unquoted_numbered
  have hiff := contained_of_unquoted hunquoted
  refine ⟨hiff, fun hsub => hiff.2 fun hmark => ?_⟩
  obtain ⟨c, rest, hbase, hc⟩ := head?_baseName hsub
  cases hs with
  | tag h =>
    rw [htag] at h
    cases h
  | base =>
    rw [hbase] at hmark
    exact absurd (Option.some.inj hmark) hc
  | numbered _ k =>
    rw [ProxyPlane.numbered, String.toList_append, String.toList_append, hbase] at hmark
    exact absurd (Option.some.inj hmark) hc

/-! ## Policies -/

/-- The texts of a parameter are contained. -/
def PolicyParam.Contained (p : PolicyParam) : Prop :=
  (∀ key ∈ p.key, Config.Contained key) ∧ Config.Contained p.value

instance : DecidablePred PolicyParam.Contained := fun _ => inferInstanceAs (Decidable (_ ∧ _))

namespace Group

variable {g g' : Group}

/-- The line of a policy in the text of a snapshot. -/
def policyLine (g : Group) : String :=
  indent 2 ++ "policy: " ++ g.policyCall.renderTarget ++ "\n"

/-- What that line should be read as. -/
def policyStatement (g : Group) : Statement := .assignment "policy" g.policyCall.written.value

theorem word_of_known (h : g.policy ∈ policies) : (Lexeme.word g.policy).Written := by
  have hknown : ∀ policy ∈ policies, isIdentifier policy.toList = true := by decide
  exact word_of_isIdentifier (hknown _ h)

theorem policyLine_eq (h : g.policy ∈ policies) :
    g.policyLine = renderStatements 2 [g.policyStatement] := by
  have htarget : g.policyCall.written.value.render = g.policyCall.renderTarget := by
    rw [render_value (c := g.policyCall.written) (word_of_known h), renderTarget_written]
  have hkey : "policy" ++ ": " = "policy: " := by decide
  simp only [policyLine, policyStatement, renderStatements, Statement.render, htarget,
    String.append_empty, String.append_assoc, ← hkey]

/-- **The line of a policy is read back** just when the texts of its parameters are contained. -/
theorem parse_policyLine_iff (h : g.policy ∈ policies) (kind : SectionKind) :
    parse kind g.policyLine = .ok [g.policyStatement] ↔ ∀ p ∈ g.params, p.Contained := by
  have hlegible : Legible [g.policyStatement] ↔ g.policyCall.written.Legible := by
    rw [legible_iff, List.forall_mem_singleton, policyStatement,
      legible_assignment_iff (by decide), legible_value_iff]
  have hname : (Lexeme.word g.policyCall.written.name).Written := word_of_known h
  rw [policyLine_eq h, parse_renderStatements_iff, hlegible, Call.Legible, and_iff_right hname]
  simp only [policyCall, Call.written, List.map_map, List.forall_mem_map, Function.comp_apply]
  refine forall₂_congr fun p _ => and_congr ?_ contained_iff.symm
  exact forall₂_congr fun key _ => contained_iff.symm

theorem policyStatement_injective (h : g.policyStatement = g'.policyStatement) :
    g.policy = g'.policy ∧ g.params = g'.params := by
  have hcall : g.policyCall.written = g'.policyCall.written := by
    rw [policyStatement, policyStatement, Statement.assignment.injEq] at h
    have := congrArg Value.toCall? h.2
    rwa [toCall?_value, toCall?_value, Option.some.injEq] at this
  rw [Call.written, Call.written, Call.mk.injEq] at hcall
  obtain ⟨hpolicy, -, hparams⟩ := hcall
  refine ⟨hpolicy, ?_⟩
  have hinj : Function.Injective fun p : PolicyParam =>
      (⟨p.key, (Scalar.bare p.value).written⟩ : Argument) := by
    rintro ⟨key, value⟩ ⟨key', value'⟩ heq
    simp_all [Scalar.written, Scalar.bare]
  rw [policyCall, policyCall, List.map_map, List.map_map] at hparams
  exact hinj.list_map hparams

/-- Policies with contained texts are not written alike. -/
theorem policyCall_injective (hg : g.policy ∈ policies) (hg' : g'.policy ∈ policies)
    (h : ∀ p ∈ g.params, p.Contained) (h' : ∀ p ∈ g'.params, p.Contained)
    (heq : g.policyCall.renderTarget = g'.policyCall.renderTarget) :
    g.policy = g'.policy ∧ g.params = g'.params := by
  have hline : g.policyLine = g'.policyLine := by rw [policyLine, policyLine, heq]
  have hread := (parse_policyLine_iff hg .config).2 h
  rw [hline, (parse_policyLine_iff hg' .config).2 h', Except.ok.injEq, List.cons.injEq] at hread
  exact policyStatement_injective hread.1.symm

end Group

/-! ## What is held and what is not -/

/-- **Which stored texts stay inside of what is written for them.**  A text is read as one token
that holds it just when it is contained, and then it is so wherever a blank or a delimiter follows.
A display name without its quotes and colons, and the name that comes of it for a node without a
tag, is so unless it begins with a `&` and needs no quotes; behind the number of a subscription it
always is.  The policy of a group is read back just when the texts of its parameters are contained,
and policies of which this is so are not written alike. -/
theorem texts_enclosed {g g' : Group} (hg : g.policy ∈ policies) (hg' : g'.policy ∈ policies) :
    (∀ text, (ReadWhole text ↔ Contained text) ∧ (Contained text →
      ∃ quoted, Prints (Scalar.bare text).render [Grammar.lexemeOf ⟨text, quoted⟩])) ∧
    (∀ name, ReadWhole (normalizeName name) ↔ ((normalizeName name).toList.head? = some '&' →
      needsQuotes (normalizeName name).toList = true)) ∧
    (∀ row name, row.tag = none → Suits row name →
      (ReadWhole name ↔ (name.toList.head? = some '&' → needsQuotes name.toList = true)) ∧
        (row.subscription.isSome = true → ReadWhole name)) ∧
    (∀ kind, parse kind g.policyLine = .ok [g.policyStatement] ↔ ∀ p ∈ g.params, p.Contained) ∧
    ((∀ p ∈ g.params, p.Contained) → (∀ p ∈ g'.params, p.Contained) →
      g.policyCall.renderTarget = g'.policyCall.renderTarget →
        g.policy = g'.policy ∧ g.params = g'.params) := by
  refine ⟨fun text => ⟨readWhole_iff, fun h => ⟨_, h.prints⟩⟩, fun name => ?_,
    fun row name htag hs => ?_, g.parse_policyLine_iff hg, Group.policyCall_injective hg hg'⟩
  · rw [readWhole_iff]
    exact contained_of_unquoted fun c => unquoted_normalizeName
  · simp only [readWhole_iff]
    exact hs.contained_iff htag

/-- A policy with keys and values that need quotes of either kind. -/
def quotedPolicy : Group where
  id := 1
  name := "proxy"
  policy := "min"
  params := [⟨some "a key", "it's"⟩, ⟨none, "say \"a, b\""⟩, ⟨none, "& c"⟩, ⟨none, ""⟩]
  nodes := []
  subscriptions := []
  version := 1

/-- Its texts are held, also the one that begins with a `&`, for it has a blank. -/
theorem texts_enclosed_quoted :
    quotedPolicy.policy ∈ policies ∧
      parse .config quotedPolicy.policyLine = .ok [quotedPolicy.policyStatement] ∧
      ReadWhole "say \"a, b\"" ∧ ¬ReadWhole "both ' and \"" ∧ ReadWhole (normalizeName "it's") ∧
      ∀ g' : Group, g'.policy ∈ policies → (∀ p ∈ g'.params, p.Contained) →
        g'.policyCall.renderTarget = quotedPolicy.policyCall.renderTarget →
          g'.params = quotedPolicy.params := by
  have hknown : quotedPolicy.policy ∈ policies := by decide +kernel
  have hheld : ∀ p ∈ quotedPolicy.params, p.Contained := by decide +kernel
  obtain ⟨hwhole, hnames, -, hpolicy, -⟩ := texts_enclosed hknown hknown
  refine ⟨hknown, (hpolicy .config).2 hheld, (hwhole _).1.2 (by decide +kernel),
    fun h => absurd ((hwhole _).1.1 h) (by decide +kernel), (hnames _).2 (by decide +kernel), ?_⟩
  intro g' hg' hheld' heq
  exact ((texts_enclosed hg' hknown).2.2.2.2 hheld' hheld heq).2

namespace Traffic

/-- A decided fact about what a store compiles to. -/
theorem exists_prepared {t : Traffic} {P : Prepared → Prop} [DecidablePred P]
    (h : (t.plane.store.any fun s => (s.prepare none).toOption.any fun q => decide (P q)) = true) :
    ∃ s q, t.plane.store = some s ∧ s.prepare none = .ok q ∧ P q := by
  obtain ⟨s, hs, hany⟩ := (Option.any_eq_true _ _).1 h
  obtain ⟨q, hq, hP⟩ := (Option.any_eq_true _ _).1 hany
  exact ⟨s, q, hs, toOption_eq_some_iff.1 hq, of_decide_eq_true hP⟩

/-- The text of a snapshot with the policy `fixed` and two parameters. -/
def pairedText : String :=
  "global \x7b\n\x7d\nnode \x7b\n    a: 'socks5://h:1#a'\n\x7d\ngroup \x7b\n    proxy \x7b\n"
    ++ "        filter: name(a)\n        policy: fixed(\"'x\", \"y'\")\n    \x7d\n\x7d\n"
    ++ "dns \x7b\n\x7d\nrouting \x7b\n    fallback: proxy\n\x7d\n"

/-- **Texts get out.**  A node whose link names it `&x` leaves the text of a snapshot without
tokens; and one parameter with quotes of both kinds is written as two parameters are. -/
theorem texts_escape :
    (∃ s q, (linked "socks5://h:1#%26x" []).plane.store = some s ∧ s.prepare none = .ok q ∧
      q.compiled.snapshot.nodes.map (·.name) = [normalizeName "&x"] ∧
      ∀ stream, tokenize q.compiled.snapshot.render ≠ .ok stream) ∧
    ∀ params ∈ [[PolicyParam.mk none "'x\", \"y'"], [⟨none, "'x"⟩, ⟨none, "y'"⟩]],
      ∃ s q, (linked "socks5://h:1#a" params).plane.store = some s ∧ s.prepare none = .ok q ∧
        q.compiled.groups.map (·.params) = [params] ∧ q.compiled.snapshot.render = pairedText := by
  constructor
  · obtain ⟨s, q, hs, hq, hnames, hrefused⟩ := exists_prepared
      (t := linked "socks5://h:1#%26x" []) (P := fun q =>
        q.compiled.snapshot.nodes.map (·.name) = [normalizeName "&x"] ∧
          (tokenize q.compiled.snapshot.render).isOk = false) (by decide +kernel)
    refine ⟨s, q, hs, hq, hnames, fun stream hstream => ?_⟩
    rw [hstream] at hrefused
    cases hrefused
  · intro params hparams
    refine exists_prepared (P := fun q => q.compiled.groups.map (·.params) = [params] ∧
      q.compiled.snapshot.render = pairedText) ?_
    revert params
    decide +kernel

end Traffic

end ProxyPlane
