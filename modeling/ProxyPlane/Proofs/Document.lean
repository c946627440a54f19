import ProxyPlane.Proofs.Failures
import ProxyPlane.Proofs.Legible
import ProxyPlane.Proofs.Resolution

/-!
# The text of a snapshot as a document

The text of a snapshot is written to be read as one document of five blocks.  Most of it cannot go
wrong: the store takes identifiers only for the names of groups and no link that mixes quotes, the
policies are those of the house, and an outbound that resolves is an identifier too.  Three things
are left.  A key in a section or a parameter of a policy may be one that is written so that it is
not read back.  And the name of a node without a tag comes from its link and may be any text: where
it needs quotes it stands in quotes in front of a colon, and a quoted text begins no statement.

## What is here

* `word_of_isIdentifier`, `quoted_of_readLink` — what the store lets in.
* `Snapshot.document` — what the text of a snapshot should be read as.
* `Snapshot.render_eq` — the text is the one that is written for the document.
* `Snapshot.Legible`, `Snapshot.parse_render_iff` — when it is read so.
* `Sections.legible_of_parse` — sections whose sources have no key in quotes are legible.
* `Traffic.Reachable.document_read_iff` — the same for what any store compiles to.
-/

set_option autoImplicit false
namespace ProxyPlane

open Config

/-! ## What the store lets in -/

/-- A character that neither ends a word nor stands in one of the pairs that do. -/
def Inert (c : Char) : Prop :=
  ¬(Text.isBlank c = true ∨ isDelimiter c = true) ∧ c ≠ '>' ∧ c ≠ '&'

theorem splitWord_of_inert {w : List Char} (h : ∀ c ∈ w, Inert c) : splitWord w = (w, []) := by
  induction w with
  | nil => rfl
  | cons c w ih =>
    obtain ⟨⟨hc, -, hand⟩, hw⟩ := List.forall_mem_cons.1 h
    have hgoes : ¬endsWord (c :: w) = true := by
      rw [endsWord_cons_iff]
      rintro (hstop | ⟨-, harrow⟩ | ⟨rfl, -⟩)
      · exact hc hstop
      · exact (hw _ (List.mem_of_mem_head? harrow)).2.1 rfl
      · exact hand rfl
    rw [splitWord_cons hgoes, ih hw]

theorem isAlphanum_ranges {c : Char} (h : c.isAlphanum = true) :
    ((65 ≤ c.toNat ∧ c.toNat ≤ 90) ∨ 97 ≤ c.toNat ∧ c.toNat ≤ 122) ∨
      48 ≤ c.toNat ∧ c.toNat ≤ 57 := by
  change ((decide (65 ≤ c.val ∧ c.val ≤ 90) || decide (97 ≤ c.val) && decide (c.val ≤ 122)) ||
    decide (48 ≤ c.val) && decide (c.val ≤ 57)) = true at h
  simp only [Bool.or_eq_true, Bool.and_eq_true, decide_eq_true_eq, UInt32.le_iff_toNat_le] at h
  exact h

theorem not_isBlank_of_isAlphanum {c : Char} (h : c.isAlphanum = true) :
    Text.isBlank c = false := by
  have hranges := isAlphanum_ranges h
  rw [Text.isBlank]
  simp only [Bool.or_eq_false_iff, Bool.and_eq_false_iff, decide_eq_false_iff_not,
    beq_eq_false_iff_ne]
  omega

theorem inert_of_inIdentifier {c : Char} (h : inIdentifier c = true) : Inert c := by
  have hblank : Text.isBlank c = false := by
    rw [inIdentifier, Bool.or_eq_true, List.contains_iff_mem] at h
    obtain h | h := h
    · exact not_isBlank_of_isAlphanum h
    · have hsigns : ("-_/\\^*+.=@$!#%".toList.all fun d => !Text.isBlank d) = true := by decide
      simpa using List.all_eq_true.1 hsigns c h
  refine ⟨?_, ?_, ?_⟩
  · rintro (hb | hd)
    · rw [hblank] at hb
      cases hb
    · simp only [isDelimiter, Bool.or_eq_true, beq_iff_eq] at hd
      rcases hd with (((((((rfl | rfl) | rfl) | rfl) | rfl) | rfl) | rfl) | rfl) | rfl <;> cases h
  · rintro rfl
    cases h
  · rintro rfl
    cases h

theorem inIdentifier_of_begins {c : Char} (h : beginsIdentifier c = true) :
    inIdentifier c = true := by
  rw [beginsIdentifier, Bool.or_eq_true, beq_iff_eq] at h
  obtain h | rfl := h
  · rw [inIdentifier, Char.isAlphanum, h, Bool.true_or, Bool.true_or]
  · rfl

/-- **An identifier is a word.** -/
theorem word_of_isIdentifier {name : String} (h : isIdentifier name.toList = true) :
    (Lexeme.word name).Written := by
  change IsWord name.toList
  generalize name.toList = w at h
  cases w with
  | nil => cases h
  | cons c rest =>
    rw [isIdentifier, Bool.and_eq_true, List.all_eq_true] at h
    obtain ⟨hbegins, hrest⟩ := h
    have hinert : ∀ d ∈ c :: rest, Inert d := List.forall_mem_cons.2
      ⟨inert_of_inIdentifier (inIdentifier_of_begins hbegins),
        fun d hd => inert_of_inIdentifier (hrest d hd)⟩
    refine ⟨splitWord_of_inert hinert, List.cons_ne_nil _ _, fun d hd => ?_⟩
    cases hd
    refine ⟨?_, ?_, ?_⟩ <;> rintro rfl <;> cases hbegins

theorem isIdentifier_of_check {field : Field} {name : String} {u : Unit}
    (h : checkIdentifier field name = .ok u) : isIdentifier name.toList = true := by
  rw [checkIdentifier] at h
  split at h
  · assumption
  · cases h

/-- **A link leaves one kind of quotes to stand around it.** -/
theorem quoted_of_readLink {link : String} {endpoint : Endpoint}
    (h : readLink link = .ok endpoint) : (Lexeme.quoted link).Written := by
  have hquotes : ¬(link.toList.contains '\'' && link.toList.contains '"') = true := by
    intro hmixed
    rw [readLink, Endpoint.ofLink] at h
    cases hsplit : splitLink? link.toList with
    | none =>
      rw [hsplit] at h
      cases h
    | some parts =>
      simp only [hsplit, hmixed, if_true] at h
      cases h
  rw [Bool.and_eq_true, List.contains_iff_mem, List.contains_iff_mem] at hquotes
  exact not_and_or.1 hquotes

/-! ## Documents -/

/-- A literal in each argument with the quotes that it is written with. -/
def Config.Call.written (c : Call) : Call :=
  { c with arguments := c.arguments.map fun a => ⟨a.key, a.value.written⟩ }

/-- An outbound or a policy as a value: without arguments the name alone. -/
def Config.Call.value (c : Call) : Value :=
  if c.arguments.isEmpty && !c.negated then .scalar (.bare c.name) else .calls [c]

/-- The name of a node, and its link. -/
def NodeEntry.statement (node : NodeEntry) : Statement :=
  .assignment node.name (.scalar (.inQuotes node.link))

/-- The name of a group, and the calls that find its nodes and choose one. -/
def GroupEntry.statement (group : GroupEntry) : Statement :=
  .block group.name
    [.assignment "filter" (.calls [group.filter]),
      .assignment "policy" group.policy.written.value]

/-- Rules, other statements, fallback. -/
def Config.RoutingOptions.statements (routing : RoutingOptions) : List Statement :=
  routing.rules.map .rule ++ routing.extra ++ [.assignment "fallback" routing.fallback.value]

/-- What the text of a snapshot should be read as. -/
def Snapshot.document (s : Snapshot) : List Statement :=
  [.block "global" s.sections.global.statements,
    .block "node" (s.nodes.map NodeEntry.statement),
    .block "group" (s.groups.map GroupEntry.statement),
    .block "dns" s.sections.dns.statements,
    .block "routing" s.sections.routing.statements]

/-! ## The text of a document -/

theorem render_scalar_written (x : Scalar) : x.written.render = x.render := by
  obtain ⟨text, quoted⟩ := x
  cases quoted <;> cases hneeds : needsQuotes text.toList <;>
    simp [Scalar.written, Scalar.render, hneeds]

theorem render_written (c : Call) : c.written.render = c.render := by
  have harguments : c.written.arguments.map Argument.render = c.arguments.map Argument.render := by
    rw [Call.written, List.map_map]
    refine List.map_congr_left fun a _ => ?_
    simp only [Function.comp_apply, Argument.render, render_scalar_written]
  rw [Call.render, harguments]
  rfl

theorem render_bare_of_word {name : String} (h : (Lexeme.word name).Written) :
    (Scalar.bare name).render = name := by
  rw [Scalar.render, if_pos (by simp [Scalar.bare, IsWord.needsQuotes h])]
  rfl

theorem render_value {c : Call} (h : (Lexeme.word c.name).Written) :
    c.value.render = c.renderTarget := by
  rw [Call.value, Call.renderTarget]
  split
  · exact render_bare_of_word h
  · simp [Value.render, renderChain]

theorem renderTarget_written (c : Call) : c.written.renderTarget = c.renderTarget := by
  rw [Call.renderTarget, Call.renderTarget, render_written]
  simp [Call.written]

theorem renderStatements_append (depth : Nat) (a b : List Statement) :
    renderStatements depth (a ++ b) = renderStatements depth a ++ renderStatements depth b := by
  induction a with
  | nil => simp [renderStatements]
  | cons st a ih => simp [renderStatements, ih, String.append_assoc]

theorem renderStatements_map {α : Type} {f : α → Statement} {line : α → String} {depth : Nat}
    {rows : List α} (h : ∀ row ∈ rows, (f row).render depth = line row) :
    renderStatements depth (rows.map f) = String.join (rows.map line) := by
  induction rows with
  | nil => simp [renderStatements]
  | cons row rows ih =>
    obtain ⟨hrow, hrows⟩ := List.forall_mem_cons.1 h
    rw [List.map_cons, List.map_cons, renderStatements, String.join_cons, hrow, ih hrows]

theorem renderStatements_rules (depth : Nat) (rules : List Rule) :
    renderStatements depth (rules.map .rule) =
      String.join (rules.map fun rule => indent depth ++ rule.render ++ "\n") :=
  renderStatements_map fun _ _ => rfl

theorem renderBlock_eq (name : String) (body : List Statement) :
    Snapshot.renderBlock name (renderStatements 1 body) = (Statement.block name body).render 0 := by
  simp [Snapshot.renderBlock, Statement.render, indent]

/-- A routing is written as its statements are, where its fallback is a word. -/
theorem Config.RoutingOptions.renderStatements_statements {routing : RoutingOptions}
    (h : (Lexeme.word routing.fallback.name).Written) :
    renderStatements 1 routing.statements = Snapshot.renderRouting routing := by
  rw [statements, renderStatements_append, renderStatements_append, renderStatements_rules]
  simp [Snapshot.renderRouting, renderStatements, Statement.render, render_value h,
    String.append_assoc]

namespace Snapshot

/-- What is a word in every snapshot of a store, and the quotes that its links leave. -/
structure Proper (s : Snapshot) : Prop where
  links : ∀ n ∈ s.nodes, (Lexeme.quoted n.link).Written
  groups : ∀ g ∈ s.groups, (Lexeme.word g.name).Written
  policies : ∀ g ∈ s.groups, (Lexeme.word g.policy.name).Written
  fallback : (Lexeme.word s.sections.routing.fallback.name).Written
  /-- A group finds its nodes by their names. -/
  filters : ∀ g ∈ s.groups, ∃ names, g.filter = nameFilter names ∧
    ∀ name ∈ names, name ∈ s.nodes.map (·.name)

/-- **The text of a snapshot is the one of its document**, where the names of nodes are words. -/
theorem render_eq {s : Snapshot} (h : s.Proper)
    (hnames : ∀ n ∈ s.nodes, (Lexeme.word n.name).Written) :
    s.render = renderStatements 0 s.document := by
  have hnodes : renderStatements 1 (s.nodes.map NodeEntry.statement) =
      String.join (s.nodes.map renderNode) := by
    refine renderStatements_map fun n hn => ?_
    simp only [NodeEntry.statement, Statement.render, renderNode, Value.render,
      render_bare_of_word (hnames n hn)]
  have hgroups : renderStatements 1 (s.groups.map GroupEntry.statement) =
      String.join (s.groups.map renderGroup) := by
    refine renderStatements_map fun g hg => ?_
    have hpolicy : g.policy.written.value.render = g.policy.renderTarget := by
      rw [render_value (c := g.policy.written) (h.policies g hg), renderTarget_written]
    have hfilter : (Value.calls [g.filter]).render = g.filter.render := by
      simp [Value.render, renderChain]
    simp [GroupEntry.statement, Statement.render, renderStatements, renderGroup, hfilter, hpolicy,
      String.append_assoc]
  rw [render, ← hnodes, ← hgroups, ← RoutingOptions.renderStatements_statements h.fallback]
  simp only [renderBlock_eq, document, renderStatements, String.append_empty, String.append_assoc]

end Snapshot

/-! ## Legible documents -/

/-- The statements of all three sections are legible. -/
structure Config.Sections.Legible (s : Sections) : Prop where
  global : Config.Legible s.global.statements
  dns : Config.Legible s.dns.statements
  routing : Config.Legible s.routing.statements

instance (s : Sections) : Decidable s.Legible :=
  decidable_of_iff (Config.Legible s.global.statements ∧ Config.Legible s.dns.statements ∧
    Config.Legible s.routing.statements)
    ⟨fun ⟨hg, hd, hr⟩ => ⟨hg, hd, hr⟩, fun h => ⟨h.global, h.dns, h.routing⟩⟩

/-- What has to be legible in a snapshot. -/
structure Snapshot.Legible (s : Snapshot) : Prop where
  names : ∀ n ∈ s.nodes, (Lexeme.word n.name).Written
  policies : ∀ g ∈ s.groups, g.policy.written.Legible
  sections : s.sections.Legible

instance (s : Snapshot) : Decidable s.Legible :=
  decidable_of_iff ((∀ n ∈ s.nodes, (Lexeme.word n.name).Written) ∧
    (∀ g ∈ s.groups, g.policy.written.Legible) ∧ s.sections.Legible)
    ⟨fun ⟨hn, hp, hs⟩ => ⟨hn, hp, hs⟩, fun h => ⟨h.names, h.policies, h.sections⟩⟩

theorem legible_calls_iff {c : Call} : (Value.calls [c]).Legible ↔ c.Legible := by
  simp [Value.Legible, LegibleChain]

theorem legible_value_iff {c : Call} : c.value.Legible ↔ c.Legible := by
  rw [Call.value]
  split
  · next hbare =>
    rw [Bool.and_eq_true, List.isEmpty_iff] at hbare
    have hnone : ∀ a ∈ c.arguments, a.Legible := by simp [hbare.1]
    exact (and_iff_left hnone).symm
  · exact legible_calls_iff

theorem legible_nameFilter_iff {names : List String} :
    (nameFilter names).Legible ↔ ∀ name ∈ names, (Lexeme.word name).Written := by
  have hname : (Lexeme.word "name").Written := word_of_isIdentifier (by decide)
  have hargument (name : String) :
      Argument.Legible ⟨none, .bare name⟩ ↔ (Lexeme.word name).Written :=
    and_iff_right nofun
  simp only [nameFilter, Call.Legible, hname, true_and, List.forall_mem_map, hargument]

theorem legible_block_iff {name : String} (h : isIdentifier name.toList = true)
    {body : List Statement} : (Statement.block name body).Legible ↔ Legible body := by
  rw [Statement.Legible]
  exact and_iff_right (word_of_isIdentifier h)

theorem legible_assignment_iff {key : String} (h : isIdentifier key.toList = true) {value : Value} :
    (Statement.assignment key value).Legible ↔ value.Legible := by
  rw [Statement.Legible]
  exact and_iff_right (word_of_isIdentifier h)

namespace Snapshot

variable {s : Snapshot}

theorem legible_nodes_iff (h : s.Proper) :
    Config.Legible (s.nodes.map NodeEntry.statement) ↔
      ∀ n ∈ s.nodes, (Lexeme.word n.name).Written := by
  rw [legible_iff, List.forall_mem_map]
  refine forall₂_congr fun n hn => ?_
  rw [NodeEntry.statement, Statement.Legible]
  exact and_iff_left (h.links n hn)

/-- The filter of a group is legible where the names of nodes are. -/
theorem legible_groups_iff (h : s.Proper) (hnames : ∀ n ∈ s.nodes, (Lexeme.word n.name).Written) :
    Config.Legible (s.groups.map GroupEntry.statement) ↔
      ∀ g ∈ s.groups, g.policy.written.Legible := by
  rw [legible_iff, List.forall_mem_map]
  refine forall₂_congr fun g hg => ?_
  obtain ⟨names, hfilter, hsub⟩ := h.filters g hg
  have hf : (Statement.assignment "filter" (.calls [g.filter])).Legible := by
    rw [legible_assignment_iff (by decide), legible_calls_iff, hfilter, legible_nameFilter_iff]
    intro name hname
    obtain ⟨n, hn, rfl⟩ := List.mem_map.1 (hsub name hname)
    exact hnames n hn
  rw [GroupEntry.statement, Statement.Legible, and_iff_right (h.groups g hg), legible_iff,
    List.forall_mem_cons, and_iff_right hf, List.forall_mem_singleton,
    legible_assignment_iff (by decide), legible_value_iff]

theorem legible_document_iff (h : s.Proper) : Config.Legible s.document ↔ s.Legible := by
  have hblocks : Config.Legible s.document ↔ Config.Legible s.sections.global.statements ∧
      Config.Legible (s.nodes.map NodeEntry.statement) ∧
      Config.Legible (s.groups.map GroupEntry.statement) ∧
      Config.Legible s.sections.dns.statements ∧
      Config.Legible s.sections.routing.statements := by
    rw [document, legible_iff]
    simp only [List.forall_mem_cons, List.not_mem_nil, false_implies, implies_true, and_true]
    rw [legible_block_iff (by decide), legible_block_iff (by decide),
      legible_block_iff (by decide), legible_block_iff (by decide), legible_block_iff (by decide)]
  rw [hblocks, legible_nodes_iff h]
  constructor
  · rintro ⟨hglobal, hnames, hgroups, hdns, hrouting⟩
    exact ⟨hnames, (legible_groups_iff h hnames).1 hgroups, hglobal, hdns, hrouting⟩
  · rintro ⟨hnames, hpolicies, hglobal, hdns, hrouting⟩
    exact ⟨hglobal, hnames, (legible_groups_iff h hnames).2 hpolicies, hdns, hrouting⟩

end Snapshot

/-! ## Reading the document -/

namespace Snapshot

variable {s : Snapshot} {kind : SectionKind}

/-- Where the document is read, in whole or inside a block, the names of nodes are words. -/
theorem words_of_spans {items part : Grammar.Items} {source : String} (h : items.Spans source)
    (hpart : part.yield.Sublist items.yield) (hdocument : part.statements = s.document) :
    ∀ n ∈ s.nodes, (Lexeme.word n.name).Written := by
  obtain ⟨stream, ht, hd⟩ := h
  have hblock : Statement.block "node" (s.nodes.map NodeEntry.statement) ∈ part.statements := by
    rw [hdocument, document]
    exact List.mem_cons_of_mem _ List.mem_cons_self
  obtain ⟨b, hb, hsub⟩ := part.exists_block hblock
  intro n hn
  have hkey : Statement.assignment n.name (.scalar (.inQuotes n.link)) ∈ b.statements := by
    rw [hb]
    exact List.mem_map_of_mem (f := NodeEntry.statement) hn
  exact tokenizeFrom_written ht _ (hd.yield_eq ▸ hpart.subset (hsub _ (b.word_mem hkey)))

/-- **The text of a snapshot is read as its document just when the snapshot is legible.** -/
theorem parse_render_iff (h : s.Proper) : parse kind s.render = .ok s.document ↔ s.Legible := by
  rw [← legible_document_iff h]
  constructor
  · intro hp
    obtain ⟨items, hs, hd⟩ := parse_ok_iff.1 hp
    rw [render_eq h (words_of_spans hs (.refl _) hd)] at hp
    exact parse_renderStatements_iff.1 hp
  · intro hl
    rw [render_eq h ((legible_document_iff h).1 hl).names]
    exact parse_renderStatements_iff.2 hl

/-- No block is around a document, so it is also read so as any section. -/
theorem parseSection_render_iff (h : s.Proper) :
    parseSection kind s.render = .ok s.document ↔ s.Legible := by
  rw [← legible_document_iff h]
  constructor
  · intro hp
    obtain ⟨items, hs, hu⟩ := parseSection_ok_iff.1 hp
    obtain ⟨part, hpart, hsub, -⟩ := exists_unwrapped kind items
    rw [render_eq h (words_of_spans hs hsub (hpart.trans hu))] at hp
    exact (parseSection_renderStatements_iff.1 hp).1
  · intro hl
    rw [render_eq h ((legible_document_iff h).1 hl).names]
    exact parseSection_renderStatements_iff.2 ⟨hl, rfl⟩

end Snapshot

/-! ## Sections that were read -/

namespace Config

theorem legible_of_toCall? {value : Value} {call : Call} (h : value.toCall? = some call)
    (hl : value.Legible) (hname : (Lexeme.word call.name).Written) : call.Legible := by
  unfold Value.toCall? at h
  split at h
  · cases h
    exact ⟨hname, nofun⟩
  · cases h
    exact legible_calls_iff.1 hl
  · cases h

/-- A statement that is neither a rule nor a fallback. -/
def Statement.Aside : Statement → Prop
  | .rule _ => False
  | .assignment key _ => key ≠ "fallback"
  | .block _ _ => True

/-- **What statements are sorted into**: the rules, the other statements, each as they come, and
values for the fallback, of which one is taken. -/
theorem perm_of_sortRouting {statements extra : List Statement} {rules : List Rule}
    {fallback : Option Call} (h : sortRouting statements = .ok (rules, fallback, extra)) :
    (∀ st ∈ extra, st.Aside) ∧ ∃ values : List Value,
      statements.Perm (rules.map .rule ++ extra ++ values.map (.assignment "fallback")) ∧
        ∀ call ∈ fallback, ∃ value ∈ values, value.toCall? = some call := by
  induction statements generalizing rules fallback extra with
  | nil =>
    cases h
    exact ⟨nofun, [], .refl _, nofun⟩
  | cons st rest ih =>
    have aside (hst : st.Aside) {extra' : List Statement}
        (hsort : sortRouting rest = .ok (rules, fallback, extra')) (he : extra = st :: extra') :
        (∀ st ∈ extra, st.Aside) ∧ ∃ values : List Value,
          (st :: rest).Perm (rules.map .rule ++ extra ++ values.map (.assignment "fallback")) ∧
            ∀ call ∈ fallback, ∃ value ∈ values, value.toCall? = some call := by
      obtain ⟨hextra, values, hperm, hfallback⟩ := ih hsort
      refine ⟨he ▸ List.forall_mem_cons.2 ⟨hst, hextra⟩, values, ?_, hfallback⟩
      rw [he, List.append_assoc, List.cons_append]
      exact (hperm.cons st).trans (List.append_assoc _ _ _ ▸ List.perm_middle.symm)
    cases st with
    | rule rule =>
      obtain ⟨⟨rules', fallback', extra'⟩, hsort, heq⟩ := bind_eq_ok_iff.1 h
      cases heq
      obtain ⟨hextra, values, hperm, hfallback⟩ := ih hsort
      exact ⟨hextra, values, hperm.cons _, hfallback⟩
    | block name body =>
      obtain ⟨⟨rules', fallback', extra'⟩, hsort, heq⟩ := bind_eq_ok_iff.1 h
      cases heq
      exact aside trivial hsort rfl
    | assignment key value =>
      rw [sortRouting] at h
      split at h
      · next hkey =>
        split at h
        · cases h
        · next call hcall =>
          obtain ⟨⟨rules', fallback', extra'⟩, hsort, heq⟩ := bind_eq_ok_iff.1 h
          cases heq
          obtain ⟨hextra, values, hperm, hfallback⟩ := ih hsort
          refine ⟨hextra, value :: values, ?_, fun c hc => ?_⟩
          · rw [hkey, List.map_cons]
            exact (hperm.cons _).trans List.perm_middle.symm
          · cases fallback' with
            | none =>
              cases hc
              exact ⟨value, List.mem_cons_self, hcall⟩
            | some last =>
              obtain ⟨taken, htaken, heq⟩ := hfallback last rfl
              cases hc
              exact ⟨taken, List.mem_cons_of_mem _ htaken, heq⟩
      · next hkey =>
        obtain ⟨⟨rules', fallback', extra'⟩, hsort, heq⟩ := bind_eq_ok_iff.1 h
        cases heq
        exact aside hkey hsort rfl

/-- Legible statements are sorted into legible ones.  A fallback may have been in quotes that it is
written without, so it has to be a word. -/
theorem legible_of_sortRouting {statements extra : List Statement} {rules : List Rule}
    {fallback : Option Call} (h : sortRouting statements = .ok (rules, fallback, extra))
    (hl : Legible statements) :
    (∀ rule ∈ rules, rule.Legible) ∧ Legible extra ∧
      ∀ call, fallback = some call → (Lexeme.word call.name).Written → call.Legible := by
  obtain ⟨-, values, hperm, hfallback⟩ := perm_of_sortRouting h
  have hall := fun st hst => legible_iff.1 hl st (hperm.mem_iff.2 hst)
  rw [List.forall_mem_append, List.forall_mem_append, List.forall_mem_map,
    List.forall_mem_map] at hall
  obtain ⟨⟨hrules, hextra⟩, hvalues⟩ := hall
  refine ⟨hrules, legible_iff.2 hextra, fun call hcall hname => ?_⟩
  obtain ⟨value, hvalue, heq⟩ := hfallback call hcall
  exact legible_of_toCall? heq (hvalues value hvalue).2 hname

theorem RoutingOptions.legible_of_parse {source : String} {routing : RoutingOptions}
    (hk : BareKeys source) (h : RoutingOptions.parse source = .ok routing)
    (hname : (Lexeme.word routing.fallback.name).Written) : Legible routing.statements := by
  obtain ⟨statements, hparse, hof⟩ := bind_eq_ok_iff.1 h
  obtain ⟨⟨rules, fallback, extra⟩, hsort, hsorted⟩ := bind_eq_ok_iff.1 hof
  obtain ⟨hr, he, hf⟩ := legible_of_sortRouting hsort (legible_of_parseSection hk hparse)
  cases fallback with
  | none => cases hsorted
  | some call =>
    cases hsorted
    have hcall := hf call rfl hname
    rw [RoutingOptions.statements, legible_iff, List.forall_mem_append, List.forall_mem_append,
      List.forall_mem_singleton, legible_assignment_iff (by decide), legible_value_iff]
    exact ⟨⟨List.forall_mem_map.2 hr, legible_iff.1 he⟩, hcall⟩

/-- **Sections whose sources have no key in quotes are legible.** -/
theorem Sections.legible_of_parse {global dns routing : String} {s : Sections}
    (hglobal : BareKeys global) (hdns : BareKeys dns) (hrouting : BareKeys routing)
    (h : Sections.parse global dns routing = .ok s)
    (hname : (Lexeme.word s.routing.fallback.name).Written) : s.Legible := by
  obtain ⟨g, hg, h⟩ := bind_eq_ok_iff.1 h
  obtain ⟨d, hd, h⟩ := bind_eq_ok_iff.1 h
  obtain ⟨r, hr, h⟩ := bind_eq_ok_iff.1 h
  cases h
  obtain ⟨gs, hgparse, hgof⟩ := bind_eq_ok_iff.1 hg
  obtain ⟨ds, hdparse, hdof⟩ := bind_eq_ok_iff.1 hd
  refine ⟨?_, ?_, RoutingOptions.legible_of_parse hrouting hr hname⟩
  · rw [GlobalOptions.statements_of_ok hgof]
    exact legible_of_parseSection hglobal hgparse
  · rw [DnsOptions.statements_of_ok hdof]
    exact legible_of_parseSection hdns hdparse

end Config

/-! ## Snapshots of a store -/

theorem isIdentifier_of_isBuiltin {name : String} (h : isBuiltinOutbound name = true) :
    isIdentifier name.toList = true := by
  have hall : ∀ n ∈ builtinOutbounds, isIdentifier n.toList = true := by decide
  exact hall name (List.contains_iff_mem.1 h)

theorem isIdentifier_append {w rest : List Char} (h : isIdentifier w = true)
    (hrest : ∀ c ∈ rest, inIdentifier c = true) : isIdentifier (w ++ rest) = true := by
  cases w with
  | nil => cases h
  | cons c w =>
    rw [isIdentifier, Bool.and_eq_true] at h
    rw [List.cons_append, isIdentifier, List.all_append, h.1, h.2, List.all_eq_true.2 hrest]
    rfl

theorem inIdentifier_of_mem {w : List Char} (h : isIdentifier w = true) :
    ∀ c ∈ w, inIdentifier c = true := by
  cases w with
  | nil => exact nofun
  | cons c w =>
    rw [isIdentifier, Bool.and_eq_true, List.all_eq_true] at h
    exact List.forall_mem_cons.2 ⟨inIdentifier_of_begins h.1, h.2⟩

/-- An outbound is an identifier when the group that it stands for is called by one. -/
theorem isIdentifier_of_outboundGroup {name : String}
    (h : isIdentifier (outboundGroup name).toList = true) : isIdentifier name.toList = true := by
  rw [outboundGroup] at h
  split at h
  · exact h
  · split at h
    · next hmark =>
      obtain ⟨rest, hrest⟩ := List.isPrefixOf_iff_prefix.1 hmark
      rw [← hrest, List.drop_left, String.toList_ofList] at h
      rw [← hrest]
      exact isIdentifier_append (by decide) (inIdentifier_of_mem h)
    · exact h

/-- Where no name is missing, a routing refers to identifiers only. -/
theorem isIdentifier_of_mem_outbounds {routing : RoutingOptions} {members : List GroupMembers}
    (hmissing : missingNames routing members = [])
    (hgroups : ∀ m ∈ members, isIdentifier m.group.name.toList = true) {name : String}
    (hname : name ∈ routing.outbounds) : isIdentifier name.toList = true := by
  cases hbuiltin : isBuiltinOutbound name with
  | true => exact isIdentifier_of_isBuiltin hbuiltin
  | false =>
    obtain ⟨m, hm, rfl⟩ := missingNames_nil hmissing hname hbuiltin
    exact hgroups m hm

/-- **What is compiled is proper**, when it is compiled from what a store lets in. -/
theorem proper_of_compile {sections : Sections} {name : String} {members : List GroupMembers}
    {compiled : Compiled} (h : compile sections name members = .ok compiled)
    (hgroups : ∀ m ∈ members, isIdentifier m.group.name.toList = true)
    (hpolicies : ∀ m ∈ members, m.group.policy ∈ policies)
    (hlinks : ∀ row ∈ rowsOf members, (Lexeme.quoted row.link).Written) :
    compiled.snapshot.Proper := by
  obtain ⟨resolution, hresolve, rfl⟩ := compile_eq_ok_iff.1 h
  obtain ⟨hmissing, -, hnodes, hfound⟩ := resolve_eq_ok_iff.1 hresolve
  have hgroup : ∀ rg ∈ resolution.groups, ∃ m ∈ members, rg.group = m.group ∧
      rg.nodes = namesIn resolution.nodes m.group.name := by
    intro rg hrg
    rw [hfound] at hrg
    obtain ⟨m, hm, rfl⟩ := List.mem_map.1 hrg
    exact ⟨m, (mem_referenced.1 hm).1, rfl, rfl⟩
  refine ⟨?_, ?_, ?_, ?_, ?_⟩
  · refine List.forall_mem_map.2 fun node hnode => ?_
    have hlink := (hnodes ▸ resolves_resolvedNodes (referenced sections.routing members)).links
    obtain ⟨row, hrow, heq⟩ := List.mem_map.1 ((hlink _).1 (List.mem_map_of_mem hnode))
    rw [← heq]
    exact hlinks row (rowsOf_referenced_subset _ _ hrow)
  · refine List.forall_mem_map.2 fun rg hrg => ?_
    obtain ⟨m, hm, hgm, -⟩ := hgroup rg hrg
    rw [hgm]
    exact word_of_isIdentifier (hgroups m hm)
  · refine List.forall_mem_map.2 fun rg hrg => ?_
    obtain ⟨m, hm, hgm, -⟩ := hgroup rg hrg
    have hknown : ∀ policy ∈ policies, isIdentifier policy.toList = true := by decide
    rw [hgm]
    exact word_of_isIdentifier (hknown _ (hpolicies m hm))
  · refine word_of_isIdentifier (isIdentifier_of_outboundGroup ?_)
    refine isIdentifier_of_mem_outbounds hmissing (fun m hm => ?_) ?_
    · exact hgroups m (mem_referenced.1 hm).1
    · simp [RoutingOptions.outbounds, assemble]
  · refine List.forall_mem_map.2 fun rg hrg => ⟨rg.nodes, rfl, fun name hname => ?_⟩
    obtain ⟨m, -, -, hin⟩ := hgroup rg hrg
    rw [hin, namesIn] at hname
    obtain ⟨node, hnode, rfl⟩ := List.mem_map.1 hname
    exact List.mem_map.2 ⟨_, List.mem_map_of_mem (List.mem_filter.1 hnode).1, rfl⟩

namespace Store

variable {s : Store}

theorem mem_reached {g : Group} {n : Node} (h : n ∈ s.reached g) : n ∈ s.nodes.rows := by
  rw [reached] at h
  obtain h | h := List.mem_append.1 h
  · obtain ⟨id, -, hn⟩ := List.mem_flatMap.1 h
    exact (List.mem_filter.1 hn).1
  · obtain ⟨id, -, hn⟩ := List.mem_filterMap.1 h
    exact (Table.mem_of_find? hn).1

theorem proper_of_prepare (hvalid : s.Valid) (htidy : s.Tidy .house) {candidate : Option Section}
    {q : Prepared} (hq : s.prepare candidate = .ok q) : q.compiled.snapshot.Proper := by
  obtain ⟨-, sections, -, hcompiled⟩ := prepare_eq_ok_iff.1 hq
  have hmem := (membersOf_spec hvalid sections.routing.outbounds).2
  refine proper_of_compile hcompiled (fun m hm => ?_) (fun m hm => ?_) fun row hrow => ?_
  · exact isIdentifier_of_check (htidy.groups _ ((hmem m).1 hm).1).name
  · exact (htidy.groups _ ((hmem m).1 hm).1).policy
  · obtain ⟨m, hm, hrow⟩ := List.mem_flatMap.1 hrow
    rw [((hmem m).1 hm).2.2] at hrow
    exact quoted_of_readLink (htidy.nodes row (mem_reached hrow)).endpoint

end Store

namespace Traffic

variable {t : Traffic} {s : Store} {q : Prepared}

/-- **When the text of what a store compiles to is read as its document**: the five blocks, in which
every node stands with its name and its link, and every group with its name, its filter and its
policy.  That is so just when the names of the nodes are words and the policies and the sections are
legible, whether the text is read as it is or as a section; and sections whose sources have no key
in quotes are legible. -/
theorem Reachable.document_read_iff (h : t.Reachable) (hs : t.plane.store = some s)
    (hq : s.prepare none = .ok q) :
    (∀ kind, (parse kind q.compiled.snapshot.render = .ok q.compiled.snapshot.document ↔
        q.compiled.snapshot.Legible) ∧
      (parseSection kind q.compiled.snapshot.render = .ok q.compiled.snapshot.document ↔
        q.compiled.snapshot.Legible)) ∧
    ((∀ kind, BareKeys (q.row kind).body) → q.compiled.snapshot.sections.Legible) := by
  obtain ⟨s', hs', hvalid, htidy⟩ := h.kempt
  obtain rfl := Option.some.inj (hs'.symm.trans hs)
  have hproper := Store.proper_of_prepare hvalid htidy hq
  refine ⟨fun kind => ⟨Snapshot.parse_render_iff hproper, ?_⟩, fun hbare => ?_⟩
  · exact Snapshot.parseSection_render_iff hproper
  · obtain ⟨-, sections, hparsed, hcompiled⟩ := Store.prepare_eq_ok_iff.1 hq
    obtain ⟨-, rfl, -, -⟩ := compile_eq_ok hcompiled
    exact Sections.legible_of_parse (hbare .config) (hbare .dns) (hbare .routing) hparsed
      hproper.fallback

/-- One node, by its link, in the group that all traffic goes to, with parameters of its policy. -/
def linked (link : String) (params : List PolicyParam) : Traffic := fresh.asks
  [(.edit (.importNodes [⟨link, none⟩] false), 1),
    (.edit (.createGroup "proxy" "fixed" params), 1),
    (.edit (.attachNodes 1 [1]), 1),
    (.edit (.createSection .config "c" ""), 1),
    (.selectSection .config 1, 3),
    (.edit (.createSection .dns "d" ""), 1),
    (.selectSection .dns 1, 3),
    (.edit (.createSection .routing "r" "fallback: proxy"), 1),
    (.selectSection .routing 1, 3)]

theorem linked_reachable (link : String) (params : List PolicyParam) :
    (linked link params).Reachable := fresh_reachable.asks _

/-- The policy has a key and a value that are in quotes where they are written. -/
theorem document_read_quoted :
    let t := linked "socks5://h:1#N1" [⟨none, "0"⟩, ⟨some "a key", "it's"⟩]
    ∃ s q, t.plane.store = some s ∧ s.prepare none = .ok q ∧ q.compiled.snapshot.Legible ∧
      (∀ kind, parse kind q.compiled.snapshot.render = .ok q.compiled.snapshot.document ∧
        parseSection kind q.compiled.snapshot.render = .ok q.compiled.snapshot.document) ∧
      (∀ kind, BareKeys (q.row kind).body) ∧ q.compiled.snapshot.sections.Legible := by
  intro t
  obtain ⟨s, hs, hany⟩ := exists_of_any (o := t.plane.store) (P := fun s =>
    ((s.prepare none).toOption.any fun q => decide (q.compiled.snapshot.Legible ∧
      q.config.body = "" ∧ q.dns.body = "" ∧ q.routing.body = "fallback: proxy")) = true)
    (by decide +kernel)
  obtain ⟨q, hq, hfacts⟩ := (Option.any_eq_true _ _).1 hany
  obtain ⟨hlegible, hconfig, hdns, hrouting⟩ := of_decide_eq_true hfacts
  rw [toOption_eq_some_iff] at hq
  obtain ⟨hiff, hsections⟩ := (linked_reachable _ _).document_read_iff hs hq
  have hempty : BareKeys "" := by
    have hspans : Grammar.Items.nil.Spans "" := spans_of_yield (by decide +kernel)
    exact hspans.bareKeys nofun
  have hfallback : BareKeys "fallback: proxy" := by
    have hspans : (Grammar.Items.assignment "fallback" (.scalar (.bare "proxy")) .nil).Spans
        "fallback: proxy" := spans_of_yield (by decide +kernel)
    exact hspans.bareKeys nofun
  have hbare (kind : SectionKind) : BareKeys (q.row kind).body := by
    cases kind with
    | config => exact hconfig.symm ▸ hempty
    | dns => exact hdns.symm ▸ hempty
    | routing => exact hrouting.symm ▸ hfallback
  refine ⟨s, q, hs, hq, hlegible, fun kind => ?_, hbare, hsections hbare⟩
  exact ⟨(hiff kind).1.2 hlegible, (hiff kind).2.2 hlegible⟩

/-- **A name with a blank spoils the text**: all of it is refused, for nothing begins with a text in
quotes. -/
theorem spaced_not_read :
    let t := linked "socks5://h:1#my%20node" []
    t.Reachable ∧ ∃ s q, t.plane.store = some s ∧ s.prepare none = .ok q ∧
      q.compiled.snapshot.nodes.map (·.name) = ["my node"] ∧
      ∀ kind statements, parse kind q.compiled.snapshot.render ≠ .ok statements ∧
        parseSection kind q.compiled.snapshot.render ≠ .ok statements := by
  intro t
  obtain ⟨s, hs, hany⟩ := exists_of_any (o := t.plane.store) (P := fun s =>
    ((s.prepare none).toOption.any fun q =>
      decide (q.compiled.snapshot.nodes.map (·.name) = ["my node"] ∧
        (parse .config q.compiled.snapshot.render).isOk = false)) = true) (by decide +kernel)
  obtain ⟨q, hq, hfacts⟩ := (Option.any_eq_true _ _).1 hany
  obtain ⟨hname, hrefused⟩ := of_decide_eq_true hfacts
  have hnone (items : Grammar.Items) : ¬items.Spans q.compiled.snapshot.render := by
    intro hspans
    rw [parse_ok_iff.2 ⟨items, hspans, rfl⟩] at hrefused
    cases hrefused
  refine ⟨linked_reachable _ _, s, q, hs, toOption_eq_some_iff.1 hq, hname, ?_⟩
  refine fun kind statements => ⟨fun h => ?_, fun h => ?_⟩
  · obtain ⟨items, hspans, -⟩ := parse_ok_iff.1 h
    exact hnone items hspans
  · obtain ⟨items, hspans, -⟩ := parseSection_ok_iff.1 h
    exact hnone items hspans

end Traffic
end ProxyPlane
