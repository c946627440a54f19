import ProxyPlane.Proofs.Document

/-!
# Reading back a routing

A routing is written as a block of its own: the rules, the other statements, and the fallback at the
end.  The writer of the fallback is that of outbounds, which knows no quotes.  A source may have the
name in quotes, though, as a name with a blank has to be; then what is written is refused, or read as
another routing.

That the routing comes back only where its statements are legible is shown by counting quotes.  What
the block is read as need not be what it was written for, but it is sorted into the same routing, so
that the two differ in the value of the fallback alone; and no reading finds more quotes than there
are.

## What is here

* `RoutingOptions.block` — the block of a routing.
* `sortRouting_statements` — the statements of a routing are sorted into it.
* `quotes_of_sortRouting` — the quotes of statements and those of the routing that comes of them.
* `RoutingOptions.parse_block_of_legible`, `RoutingOptions.legible_of_parse_block` — the block is read
  as the routing just when its statements are legible.
* `routing_round_trip_iff` — and what that comes to for a routing that was read.
-/

set_option autoImplicit false
namespace ProxyPlane
namespace Config

open Grammar

/-- The block of a routing in the text of a snapshot. -/
def RoutingOptions.block (routing : RoutingOptions) : String :=
  Snapshot.renderBlock "routing" (Snapshot.renderRouting routing)

/-! ## The statements of a routing -/

theorem toCall?_value (c : Call) : c.value.toCall? = some c := by
  rw [Call.value]
  split
  · next hbare =>
    obtain ⟨name, negated, arguments⟩ := c
    rw [Bool.and_eq_true, List.isEmpty_iff, Bool.not_eq_true'] at hbare
    obtain ⟨rfl, rfl⟩ := hbare
    rfl
  · rfl

/-- **The statements of a routing are sorted into it.** -/
theorem sortRouting_statements (rules : List Rule) {extra : List Statement} (fallback : Call)
    (h : ∀ st ∈ extra, st.Aside) :
    sortRouting (RoutingOptions.mk rules fallback extra).statements =
      .ok (rules, some fallback, extra) := by
  rw [RoutingOptions.statements, List.append_assoc]
  induction rules with
  | nil =>
    induction extra with
    | nil => simp [sortRouting, toCall?_value]
    | cons st extra ih =>
      obtain ⟨hst, hextra⟩ := List.forall_mem_cons.1 h
      have hrest := ih hextra
      cases st with
      | rule rule => cases hst
      | assignment key value =>
        have hkey : key ≠ "fallback" := hst
        simp_all [sortRouting]
      | block name body => simp_all [sortRouting]
  | cons rule rules ih => simp_all [sortRouting]

/-! ## Counting quotes -/

theorem quotes_indent (depth : Nat) : quotes (indent depth).toList = 0 :=
  indent_lacks depth

theorem quotes_assignment (depth : Nat) (key : String) (value : Value) :
    quotes ((Statement.assignment key value).render depth).toList =
      quotes key.toList + quotes value.render.toList := by
  have hcolon : quotes ": ".toList = 0 := rfl
  have hnewline : quotes "\n".toList = 0 := rfl
  simp only [Statement.render, String.toList_append, quotes_append, quotes_indent, hcolon, hnewline]
  omega

/-- The order of statements does not matter for the quotes that they are written with. -/
theorem quotes_renderStatements_perm {a b : List Statement} (h : a.Perm b) (depth : Nat) :
    quotes (renderStatements depth a).toList = quotes (renderStatements depth b).toList := by
  induction h with
  | nil => rfl
  | cons st _ ih => simp only [renderStatements, String.toList_append, quotes_append, ih]
  | swap st st' rest =>
    simp only [renderStatements, String.toList_append, quotes_append]
    omega
  | trans _ _ iha ihb => exact iha.trans ihb

/-- In a block there are the quotes of the rules and the other statements and those of the name and
the arguments of the fallback. -/
theorem quotes_block (routing : RoutingOptions) : quotes routing.block.toList =
    quotes (renderStatements 1 (routing.rules.map .rule ++ routing.extra)).toList +
      quotes routing.fallback.renderTarget.toList := by
  have hopen : quotes ("routing" ++ " \x7b\n").toList = 0 := rfl
  have hkey : quotes "fallback: ".toList = 0 := rfl
  have hnewline : quotes "\n".toList = 0 := rfl
  have hclose : quotes "\x7d\n".toList = 0 := rfl
  rw [RoutingOptions.block, Snapshot.renderBlock, Snapshot.renderRouting, renderStatements_append,
    renderStatements_rules]
  simp only [String.toList_append, quotes_append, quotes_indent] at hopen ⊢
  omega

/-- A value for the fallback has the quotes of the outbound that is taken from it. -/
theorem quotes_renderTarget_le {value : Value} {call : Call} (h : value.toCall? = some call) :
    quotes call.renderTarget.toList ≤ quotes value.render.toList := by
  unfold Value.toCall? at h
  split at h
  · next literal =>
    cases h
    change quotes literal.text.toList ≤ quotes literal.render.toList
    rw [Scalar.render]
    split
    · exact Nat.le_refl _
    · simp only [String.toList_append, quotes_append]
      omega
  · next only =>
    cases h
    have hchain : (Value.calls [call]).render = call.render := by simp [Value.render, renderChain]
    rw [hchain, Call.renderTarget]
    split
    · simp only [Call.render, String.toList_append, quotes_append]
      omega
    · exact Nat.le_refl _
  · cases h

/-- **Statements have the quotes of the routing that they are sorted into**, and besides those that
are around the name of the fallback. -/
theorem quotes_of_sortRouting {statements extra : List Statement} {rules : List Rule} {call : Call}
    (h : sortRouting statements = .ok (rules, some call, extra)) (depth : Nat) :
    ∃ value, .assignment "fallback" value ∈ statements ∧ value.toCall? = some call ∧
      quotes (renderStatements depth (rules.map .rule ++ extra)).toList +
        quotes value.render.toList ≤ quotes (renderStatements depth statements).toList := by
  obtain ⟨-, values, hperm, hfallback⟩ := perm_of_sortRouting h
  obtain ⟨value, hvalue, hcall⟩ := hfallback call rfl
  obtain ⟨before, after, rfl⟩ := List.append_of_mem hvalue
  refine ⟨value, hperm.mem_iff.2 ?_, hcall, ?_⟩
  · exact List.mem_append_right _ (List.mem_map_of_mem hvalue)
  · rw [quotes_renderStatements_perm hperm]
    simp only [List.map_append, List.map_cons, renderStatements_append, renderStatements,
      String.toList_append, quotes_append, quotes_assignment]
    omega

/-! ## The block and the routing -/

/-- An outbound that is taken from a legible value with no more quotes than its own has a word for
its name. -/
theorem word_of_toCall? {value : Value} {call : Call} (h : value.toCall? = some call)
    (hl : value.Legible)
    (hle : quotes value.render.toList ≤ quotes call.renderTarget.toList) :
    (Lexeme.word call.name).Written := by
  unfold Value.toCall? at h
  split at h
  · next literal =>
    cases h
    obtain ⟨text, _ | _⟩ := literal
    · exact hl
    · have hlacks : quotes (Scalar.mk text true).render.toList = quotes text.toList + 2 :=
        scalar_lacks hl
      change quotes (Scalar.mk text true).render.toList ≤ quotes text.toList at hle
      omega
  · cases h
    exact (legible_calls_iff.1 hl).1
  · cases h

namespace RoutingOptions

variable {routing : RoutingOptions}

/-- What the statements of a routing are legible by. -/
theorem legible_statements_iff : Legible routing.statements ↔
    (∀ rule ∈ routing.rules, rule.Legible) ∧ Legible routing.extra ∧ routing.fallback.Legible := by
  rw [statements, legible_iff, List.forall_mem_append, List.forall_mem_append, List.forall_mem_map,
    List.forall_mem_singleton, legible_assignment_iff (by decide), legible_value_iff, ← legible_iff,
    and_assoc]
  rfl

/-- Where a legible routing is written, it is read. -/
theorem parse_block_of_legible (haside : ∀ st ∈ routing.extra, st.Aside)
    (h : Legible routing.statements) : RoutingOptions.parse routing.block = .ok routing := by
  have hword := (legible_statements_iff.1 h).2.2.1
  have hblock : routing.block = renderStatements 0 [.block "routing" routing.statements] := by
    rw [block, ← renderStatements_statements hword, renderBlock_eq]
    simp [renderStatements]
  have hparse : parseSection .routing routing.block = .ok routing.statements := by
    have hlegible : Legible [.block "routing" routing.statements] :=
      ⟨(legible_block_iff (by decide)).2 h, trivial⟩
    rw [hblock, parseSection, parse_renderStatements_iff.2 hlegible]
    rfl
  obtain ⟨rules, fallback, extra⟩ := routing
  rw [RoutingOptions.parse, hparse]
  change (sortRouting _ >>= _) = _
  rw [sortRouting_statements rules fallback haside]
  rfl

/-- **Where a routing is read from its own block, it is legible.**  The quotes of the block are those
of what it is read as, so none are lost and none are around the name of the fallback. -/
theorem legible_of_parse_block (h : RoutingOptions.parse routing.block = .ok routing) :
    Legible routing.statements := by
  obtain ⟨statements, hparse, hof⟩ := bind_eq_ok_iff.1 h
  obtain ⟨⟨rules, fallback, extra⟩, hsort, hsorted⟩ := bind_eq_ok_iff.1 hof
  cases fallback with
  | none => cases hsorted
  | some call =>
    cases hsorted
    obtain ⟨value, hmem, hcall, hsum⟩ := quotes_of_sortRouting hsort 1
    have hcount : quotes (block ⟨rules, call, extra⟩).toList =
        quotes (renderStatements 1 (rules.map .rule ++ extra)).toList +
          quotes call.renderTarget.toList := quotes_block _
    have hle := quotes_renderTarget_le hcall
    obtain ⟨items, hspans, hu⟩ := parseSection_ok_iff.1 hparse
    obtain ⟨part, hpart, hsub, -⟩ := exists_unwrapped .routing items
    obtain rfl : part.statements = statements := hpart.trans hu
    have hquotes := quotes_le_of_spans hspans hsub 1
    have hlegible := legible_of_quotes_le hspans hsub 1 (by omega)
    have hvalue : value.Legible := (legible_iff.1 hlegible _ hmem).2
    have hword := word_of_toCall? hcall hvalue (by omega)
    obtain ⟨hrules, hextra, hfallback⟩ := legible_of_sortRouting hsort hlegible
    exact legible_statements_iff.2 ⟨hrules, hextra, hfallback call rfl hword⟩

/-- What a routing was read from is sorted, so that its other statements are neither rules nor
fallbacks. -/
theorem aside_of_parse {source : String} (h : RoutingOptions.parse source = .ok routing) :
    ∀ st ∈ routing.extra, st.Aside := by
  obtain ⟨statements, -, hof⟩ := bind_eq_ok_iff.1 h
  obtain ⟨⟨rules, fallback, extra⟩, hsort, hsorted⟩ := bind_eq_ok_iff.1 hof
  cases fallback with
  | none => cases hsorted
  | some call =>
    cases hsorted
    exact (perm_of_sortRouting hsort).1

end RoutingOptions

/-- **When a routing survives being written.**  A routing that was read from some source is read
again from the block that is written for it, the last one in the text of a snapshot, just when its
rules, its other statements and its fallback are legible; and of a source with no key in quotes they
are so just when the name of the fallback is a word. -/
theorem routing_round_trip_iff {source : String} {routing : RoutingOptions}
    (h : RoutingOptions.parse source = .ok routing) :
    (RoutingOptions.parse routing.block = .ok routing ↔
      (∀ rule ∈ routing.rules, rule.Legible) ∧ Legible routing.extra ∧ routing.fallback.Legible) ∧
    (BareKeys source → (RoutingOptions.parse routing.block = .ok routing ↔
      (Lexeme.word routing.fallback.name).Written)) ∧
    ∀ snapshot : Snapshot, ∃ before,
      snapshot.render = before ++ snapshot.sections.routing.block := by
  have hiff : RoutingOptions.parse routing.block = .ok routing ↔ Legible routing.statements :=
    ⟨RoutingOptions.legible_of_parse_block, RoutingOptions.parse_block_of_legible
      (RoutingOptions.aside_of_parse h)⟩
  refine ⟨hiff.trans RoutingOptions.legible_statements_iff, fun hk => ?_, fun snapshot => ⟨_, rfl⟩⟩
  rw [hiff]
  exact ⟨fun hl => (RoutingOptions.legible_statements_iff.1 hl).2.2.1,
    RoutingOptions.legible_of_parse hk h⟩

/-- A source with two rules, a block, an earlier fallback, and the fallback in quotes that it does
not need. -/
def quotedSource : String :=
  "routing \x7b fallback: other # x\n l4proto(udp, port: \"it's\") -> direct(mark: 1); "
    ++ "domain(a) && !ip(b) -> proxy()\n note \x7b kept: '&' \x7d fallback: 'must_proxy' \x7d"

/-- The derivation of that source. -/
def quotedItems : Items :=
  .block "routing"
    (.assignment "fallback" (.scalar (.bare "other")) <|
      .rule ⟨.one ⟨false, "l4proto", .list (.more ⟨.bare "udp", none⟩
          (.one ⟨.bare "port", some (.inQuotes "it's")⟩))⟩,
        "direct", some (.list (.one ⟨.bare "mark", some (.bare "1")⟩))⟩ <|
      .semicolon <|
      .rule ⟨.more ⟨false, "domain", .list (.one ⟨.bare "a", none⟩)⟩
        (.one ⟨true, "ip", .list (.one ⟨.bare "b", none⟩)⟩), "proxy", some .empty⟩ <|
      .block "note" (.assignment "kept" (.scalar (.inQuotes "&")) .nil) <|
      .assignment "fallback" (.scalar (.inQuotes "must_proxy")) .nil)
    .nil

/-- The routing that is read from it. -/
def quotedRouting : RoutingOptions where
  rules := [⟨[⟨"l4proto", false, [⟨none, .bare "udp"⟩, ⟨some "port", .inQuotes "it's"⟩]⟩],
      ⟨"direct", false, [⟨some "mark", .bare "1"⟩]⟩⟩,
    ⟨[⟨"domain", false, [⟨none, .bare "a"⟩]⟩, ⟨"ip", true, [⟨none, .bare "b"⟩]⟩], .named "proxy"⟩]
  fallback := .named "must_proxy"
  extra := [.block "note" [.assignment "kept" (.scalar (.inQuotes "&"))]]

/-- Where the name is a word, the quotes around it do no harm. -/
theorem routing_round_trip_quoted :
    RoutingOptions.parse quotedSource = .ok quotedRouting ∧ BareKeys quotedSource ∧
      RoutingOptions.parse quotedRouting.block = .ok quotedRouting := by
  have hspans : quotedItems.Spans quotedSource := spans_of_yield (by decide +kernel)
  have hk : BareKeys quotedSource := hspans.bareKeys (by decide +kernel)
  have hparse : parseSection .routing quotedSource =
      .ok (unwrap .routing quotedItems.statements) := parseSection_ok_iff.2 ⟨_, hspans, rfl⟩
  have hrouting : RoutingOptions.parse quotedSource = .ok quotedRouting := by
    rw [RoutingOptions.parse, hparse]
    rfl
  exact ⟨hrouting, hk, ((routing_round_trip_iff hrouting).2.1 hk).2 (by decide +kernel)⟩

/-- **A fallback that needs its quotes does not survive**: with a blank in its name the block is
refused, and with a semicolon it is read as another routing. -/
theorem unquoted_fallback_lost :
    (∃ routing, RoutingOptions.parse "fallback: 'my group'" = .ok routing ∧
      ∀ other, RoutingOptions.parse routing.block ≠ .ok other) ∧
    ∃ routing other, RoutingOptions.parse "fallback: 'x; fallback: y'" = .ok routing ∧
      RoutingOptions.parse routing.block = .ok other ∧ other ≠ routing := by
  have hread (name : String) (source : String)
      (h : (RoutingOptions.parse source).toOption = some (.only (.named name))) :
      RoutingOptions.parse source = .ok (.only (.named name)) := toOption_eq_some_iff.1 h
  refine ⟨⟨_, hread "my group" _ (by decide +kernel), fun other hother => ?_⟩,
    _, _, hread "x; fallback: y" _ (by decide +kernel), hread "y" _ (by decide +kernel),
    by decide +kernel⟩
  have hrefused : (RoutingOptions.parse
      (RoutingOptions.only (.named "my group")).block).isOk = false := by decide +kernel
  rw [hother] at hrefused
  cases hrefused

end Config
end ProxyPlane
