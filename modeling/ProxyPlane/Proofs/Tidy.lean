import ProxyPlane.Proofs.Groups
import ProxyPlane.Proofs.Sections
import ProxyPlane.Proofs.Subscriptions

/-!
# Stores in good order

Most of what holds of the rows of a store is enforced nowhere but in the transactions that make and
change them: that tags and names are identifiers and belong to one row each, that a link occurs once
for each subscription, that an association is made once, and that what is kept of a node is what its
link says.  Policies and schedules are taken as they come; whoever uses the store may ask more of
them.

## What is here

* `Custom` — what is asked of policies and schedules.
* `Store.Tidy c` — the rules for rows, beside the rules of `Store.Valid` for tables.
* `Table.Grows`, `Store.Grows` — what is new has an identifier that was not issued before.
* `Store.Follows c` — what comes after a store in good order, with a rule for each small change.
* `Transaction.Tidies c` — a transaction that keeps stores in good order.
-/

set_option autoImplicit false
namespace ProxyPlane

/-- What is asked of values that the store takes as they come. -/
structure Custom where
  policy : String → Prop
  schedule : String → Prop
  initial : schedule Subscription.defaultSchedule

/-- Nothing is asked. -/
def Custom.free : Custom := ⟨fun _ => True, fun _ => True, trivial⟩

/-! ## Rows -/

/-- A node that is what its link says, with a tag that is an identifier. -/
structure Node.Tidy (n : Node) : Prop where
  tag : ∀ tag, n.tag = some tag → checkIdentifier .tag tag = .ok ()
  endpoint : readLink n.link = .ok ⟨n.name, n.address, n.protocol⟩

/-- A subscription with a tag that is an identifier. -/
structure Subscription.Tidy (c : Custom) (row : Subscription) : Prop where
  tag : ∀ tag, row.tag = some tag → checkIdentifier .tag tag = .ok ()
  schedule : c.schedule row.schedule

/-- A group with a name that is an identifier, and with no association made twice. -/
structure Group.Tidy (c : Custom) (g : Group) : Prop where
  name : checkIdentifier .name g.name = .ok ()
  policy : c.policy g.policy
  nodes : g.nodes.Nodup
  subscriptions : g.subscriptions.Nodup

/-- A group of which some associations were taken away. -/
theorem Group.Tidy.sublist {c : Custom} {g g' : Group} (h : g.Tidy c) (hname : g'.name = g.name)
    (hpolicy : g'.policy = g.policy) (hnodes : g'.nodes.Sublist g.nodes)
    (hsubscriptions : g'.subscriptions.Sublist g.subscriptions) : g'.Tidy c :=
  ⟨hname ▸ h.name, hpolicy ▸ h.policy, h.nodes.sublist hnodes,
    h.subscriptions.sublist hsubscriptions⟩

theorem nodup_attach {attached : List Id} (h : attached.Nodup) (id : Id) :
    (attach attached id).Nodup := by
  rw [attach]
  split
  · exact h
  · next hnew =>
    refine List.nodup_append.2 ⟨h, by simp, fun a ha b hb heq => hnew ?_⟩
    rw [List.contains_iff_mem, ← List.mem_singleton.1 hb, ← heq]
    exact ha

/-! ## Tables that grow -/

/-- The rows of the second table are rows of the first, or have identifiers that were not issued
then. -/
structure Table.Grows {α : Type} [Row α] (t t' : Table α) : Prop where
  issued : t.issued ≤ t'.issued
  new : ∀ row ∈ t'.rows, (∃ old ∈ t.rows, Row.id old = Row.id row) ∨ t.issued < Row.id row

namespace Table.Grows

variable {α : Type} [Row α] {t t' t'' : Table α}

theorem refl (t : Table α) : t.Grows t := ⟨Int.le_refl _, fun row hrow => .inl ⟨row, hrow, rfl⟩⟩

theorem trans (h : t.Grows t') (h' : t'.Grows t'') : t.Grows t'' := by
  refine ⟨Int.le_trans h.issued h'.issued, fun row hrow => ?_⟩
  obtain ⟨old, hold, hid⟩ | hlt := h'.new row hrow
  · rw [← hid]
    exact h.new old hold
  · exact .inr (Int.lt_of_le_of_lt h.issued hlt)

theorem push (t : Table α) {make : Id → α} (hmake : Row.id (make (t.issued + 1)) = t.issued + 1) :
    t.Grows (t.push make) := by
  refine ⟨Int.le_of_lt (Int.lt_succ _), fun row hrow => ?_⟩
  obtain hrow | rfl := mem_push.1 hrow
  · exact .inl ⟨row, hrow, rfl⟩
  · rw [hmake]
    exact .inr (Int.lt_succ _)

theorem map (t : Table α) {f : α → α} (hf : ∀ row, Row.id (f row) = Row.id row) :
    t.Grows (t.map f) := by
  refine ⟨Int.le_refl _, fun row hrow => ?_⟩
  obtain ⟨old, hold, rfl⟩ := mem_map.1 hrow
  exact .inl ⟨old, hold, (hf old).symm⟩

theorem modify (t : Table α) {id : Id} {f : α → α} (hf : ∀ row, Row.id (f row) = Row.id row) :
    t.Grows (t.modify id f) :=
  map t fun row => by split <;> simp [hf]

theorem retain (t : Table α) (keep : α → Bool) : t.Grows (t.retain keep) :=
  ⟨Int.le_refl _, fun row hrow => .inl ⟨row, (mem_retain.1 hrow).1, rfl⟩⟩

end Table.Grows

/-! ## Rows that share nothing -/

/-- Rows that share something are one row. -/
def Table.Distinct {α : Type} [Row α] (Shares : α → α → Prop) (t : Table α) : Prop :=
  ∀ a ∈ t.rows, ∀ b ∈ t.rows, Shares a b → Row.id a = Row.id b

namespace Table.Distinct

variable {α : Type} [Row α] {Shares : α → α → Prop} {t : Table α}

theorem push (h : t.Distinct Shares) (hsymm : ∀ a b, Shares a b → Shares b a) {make : Id → α}
    (hnew : ∀ a ∈ t.rows, ¬Shares a (make (t.issued + 1))) : (t.push make).Distinct Shares := by
  intro a ha b hb hab
  obtain ha | rfl := mem_push.1 ha <;> obtain hb | rfl := mem_push.1 hb
  · exact h a ha b hb hab
  · exact absurd hab (hnew a ha)
  · exact absurd (hsymm _ _ hab) (hnew b hb)
  · rfl

/-- If the first row that passes a test is the owner, no other row passes it. -/
theorem of_find? (h : t.Distinct Shares) {p : α → Bool}
    (hp : ∀ a b, p a = true → p b = true → Shares a b) {owner : Id}
    (howner : ∀ a, t.rows.find? p = some a → some (Row.id a) = some owner) :
    ∀ a ∈ t.rows, p a = true → Row.id a = owner := by
  intro a ha hpa
  obtain ⟨first, hfirst⟩ := Option.isSome_iff_exists.1 (List.find?_isSome.2 ⟨a, ha, hpa⟩)
  have hshares := hp a first hpa (List.find?_some hfirst)
  have hid := h a ha first (List.mem_of_find?_eq_some hfirst) hshares
  exact hid.trans (Option.some.inj (howner first hfirst))

theorem retain (h : t.Distinct Shares) (keep : α → Bool) : (t.retain keep).Distinct Shares :=
  fun a ha b hb => h a (mem_retain.1 ha).1 b (mem_retain.1 hb).1

/-- A row was changed, and shares what it has now with no other. -/
theorem modify (h : t.Distinct Shares) (hsymm : ∀ a b, Shares a b → Shares b a) {id : Id}
    {f : α → α} (hid : ∀ a, Row.id (f a) = Row.id a)
    (hf : ∀ a ∈ t.rows, Row.id a = id → ∀ b ∈ t.rows, Shares (f a) b → Row.id b = id) :
    (t.modify id f).Distinct Shares := by
  intro a ha b hb hab
  obtain ⟨row, hrow, ⟨hrowid, rfl⟩ | ⟨-, rfl⟩⟩ := mem_modify ha <;>
    obtain ⟨row', hrow', ⟨hrowid', rfl⟩ | ⟨-, rfl⟩⟩ := mem_modify hb
  · rw [hid, hid, hrowid, hrowid']
  · rw [hid, hrowid, hf row hrow hrowid _ hrow' hab]
  · rw [hid, hrowid', hf row' hrow' hrowid' _ hrow (hsymm _ _ hab)]
  · exact h _ hrow _ hrow' hab

end Table.Distinct

/-- Two nodes have the same tag. -/
def Node.SharesTag (n n' : Node) : Prop := ∃ tag, n.tag = some tag ∧ n'.tag = some tag

/-- Two nodes have the same link, of the same subscription or of none. -/
def Node.SharesLink (n n' : Node) : Prop := n.link = n'.link ∧ n.subscription = n'.subscription

/-- Two subscriptions have the same tag. -/
def Subscription.SharesTag (row row' : Subscription) : Prop :=
  ∃ tag, row.tag = some tag ∧ row'.tag = some tag

theorem Node.SharesTag.symm {n n' : Node} : n.SharesTag n' → n'.SharesTag n :=
  fun ⟨tag, h, h'⟩ => ⟨tag, h', h⟩

theorem Node.SharesLink.symm {n n' : Node} : n.SharesLink n' → n'.SharesLink n :=
  fun ⟨h, h'⟩ => ⟨h.symm, h'.symm⟩

theorem Subscription.SharesTag.symm {row row' : Subscription} :
    row.SharesTag row' → row'.SharesTag row :=
  fun ⟨tag, h, h'⟩ => ⟨tag, h', h⟩

namespace Store

/-- All tables grow. -/
structure Grows (s s' : Store) : Prop where
  sections : ∀ kind, (s.sections.get kind).Grows (s'.sections.get kind)
  nodes : s.nodes.Grows s'.nodes
  subscriptions : s.subscriptions.Grows s'.subscriptions
  groups : s.groups.Grows s'.groups

theorem Grows.refl (s : Store) : s.Grows s := ⟨fun _ => .refl _, .refl _, .refl _, .refl _⟩

theorem Grows.trans {s s' s'' : Store} (h : s.Grows s') (h' : s'.Grows s'') : s.Grows s'' :=
  ⟨fun kind => (h.sections kind).trans (h'.sections kind), h.nodes.trans h'.nodes,
    h.subscriptions.trans h'.subscriptions, h.groups.trans h'.groups⟩

theorem Grows.pushNode (s : Store) {make : Id → Node}
    (hmake : (make (s.nodes.issued + 1)).id = s.nodes.issued + 1) :
    s.Grows { s with nodes := s.nodes.push make } :=
  ⟨fun _ => .refl _, .push _ hmake, .refl _, .refl _⟩

theorem Grows.pushSubscription (s : Store) {make : Id → Subscription}
    (hmake : (make (s.subscriptions.issued + 1)).id = s.subscriptions.issued + 1) :
    s.Grows { s with subscriptions := s.subscriptions.push make } :=
  ⟨fun _ => .refl _, .refl _, .push _ hmake, .refl _⟩

theorem Grows.withGroups {s : Store} {t : Table Group} (h : s.groups.Grows t) :
    s.Grows { s with groups := t } :=
  ⟨fun _ => .refl _, .refl _, .refl _, h⟩

theorem Grows.modifyGroup (s : Store) {id : Id} {f : Group → Group} (hf : ∀ g, (f g).id = g.id) :
    s.Grows { s with groups := s.groups.modify id f } :=
  .withGroups (.modify _ hf)

theorem Grows.bumped (s : Store) (ids : List Id) : s.Grows (s.bumped ids) :=
  .withGroups (.map _ (bumpIn_id ids))

theorem Grows.dropNodes (s : Store) (gone : Node → Bool) : s.Grows (s.dropNodes gone) :=
  ⟨fun _ => .refl _, .retain _ _, .refl _, .map _ fun _ => rfl⟩

theorem Grows.dropSubscriptions (s : Store) (ids : List Id) : s.Grows (s.dropSubscriptions ids) :=
  ⟨fun _ => .refl _, .refl _, .retain _ _, .map _ fun _ => rfl⟩

theorem Grows.withSections {s : Store} {kind : SectionKind} {t : Table Section}
    (h : (s.sections.get kind).Grows t) : s.Grows (s.withSections kind t) := by
  refine ⟨fun kind' => ?_, .refl _, .refl _, .refl _⟩
  rw [sections_withSections]
  split
  · next heq => exact heq ▸ h
  · exact .refl _

/-! ## Stores -/

/-- The rows of a store are in good order. -/
structure Tidy (c : Custom) (s : Store) : Prop where
  nodes : ∀ n ∈ s.nodes.rows, n.Tidy
  nodeTags : s.nodes.Distinct Node.SharesTag
  links : s.nodes.Distinct Node.SharesLink
  subscriptions : ∀ row ∈ s.subscriptions.rows, row.Tidy c
  subscriptionTags : s.subscriptions.Distinct Subscription.SharesTag
  groups : ∀ g ∈ s.groups.rows, g.Tidy c

theorem tidy_empty (c : Custom) : Store.empty.Tidy c where
  nodes n hn := by cases hn
  nodeTags n hn := by cases hn
  links n hn := by cases hn
  subscriptions row hrow := by cases hrow
  subscriptionTags row hrow := by cases hrow
  groups g hg := by cases hg

/-- What comes after a store that is in good order: it is in good order too, and what is new has a
new identifier. -/
structure Follows (c : Custom) (s s' : Store) : Prop where
  valid : s'.Valid
  tidy : s'.Tidy c
  grows : s.Grows s'

variable {c : Custom} {s s' s'' : Store}

theorem Follows.refl (hs : s.Valid) (htidy : s.Tidy c) : s.Follows c s := ⟨hs, htidy, .refl s⟩

theorem Follows.trans (h : s.Follows c s') (h' : s'.Follows c s'') : s.Follows c s'' :=
  ⟨h'.valid, h'.tidy, h.grows.trans h'.grows⟩

namespace Tidy

theorem withSections (h : s.Tidy c) (kind : SectionKind) (t : Table Section) :
    (s.withSections kind t).Tidy c :=
  { h with }

/-- Groups that were changed one by one. -/
theorem mapGroups (h : s.Tidy c) {f : Group → Group} (hf : ∀ g, g.Tidy c → (f g).Tidy c) :
    ({ s with groups := s.groups.map f } : Store).Tidy c :=
  { h with
    groups := fun g hg => by
      obtain ⟨old, hold, rfl⟩ := Table.mem_map.1 hg
      exact hf old (h.groups old hold) }

theorem modifyGroup (h : s.Tidy c) {id : Id} {f : Group → Group}
    (hf : ∀ g, g.Tidy c → (f g).Tidy c) :
    ({ s with groups := s.groups.modify id f } : Store).Tidy c := by
  refine h.mapGroups fun g hg => ?_
  split
  · exact hf g hg
  · exact hg

theorem bumped (h : s.Tidy c) (ids : List Id) : (s.bumped ids).Tidy c := by
  refine h.mapGroups fun g hg => hg.sublist (bumpIn_name ids g) ?_ ?_ ?_
  · rw [bumpIn]; split <;> rfl
  · rw [bumpIn_nodes]
  · rw [bumpIn_subscriptions]

theorem dropNodes (h : s.Tidy c) (gone : Node → Bool) : (s.dropNodes gone).Tidy c := by
  refine { h with
    nodes := fun n hn => h.nodes n (Table.mem_retain.1 hn).1
    nodeTags := h.nodeTags.retain _
    links := h.links.retain _
    groups := (h.mapGroups fun g hg => ?_).groups }
  exact hg.sublist rfl rfl List.filter_sublist (.refl _)

theorem dropSubscriptions (h : s.Tidy c) (ids : List Id) : (s.dropSubscriptions ids).Tidy c := by
  refine { h with
    subscriptions := fun row hrow => h.subscriptions row (Table.mem_retain.1 hrow).1
    subscriptionTags := h.subscriptionTags.retain _
    groups := (h.mapGroups fun g hg => ?_).groups }
  exact hg.sublist rfl rfl (.refl _) List.filter_sublist

/-- A new node, with a tag and a link that no other node has. -/
theorem pushNode (h : s.Tidy c) {make : Id → Node} (hnew : (make (s.nodes.issued + 1)).Tidy)
    (htag : ∀ n ∈ s.nodes.rows, ¬n.SharesTag (make (s.nodes.issued + 1)))
    (hlink : ∀ n ∈ s.nodes.rows, ¬n.SharesLink (make (s.nodes.issued + 1))) :
    ({ s with nodes := s.nodes.push make } : Store).Tidy c := by
  refine { h with
    nodes := fun n hn => ?_
    nodeTags := h.nodeTags.push (fun _ _ => .symm) htag
    links := h.links.push (fun _ _ => .symm) hlink }
  obtain hn | rfl := Table.mem_push.1 hn
  · exact h.nodes n hn
  · exact hnew

/-- A node that has got a tag, which no other node has. -/
theorem tagged (h : s.Tidy c) {id : Id} {tag : String} (htag : checkIdentifier .tag tag = .ok ())
    (hfree : ∀ n ∈ s.nodes.rows, n.tag = some tag → n.id = id) : (s.tagged id tag).Tidy c := by
  refine { h with
    nodes := fun a ha => ?_
    nodeTags := h.nodeTags.modify (fun _ _ => .symm) (fun _ => rfl) ?_
    links := h.links.modify (fun _ _ => .symm) (fun _ => rfl) ?_ }
  · obtain ⟨n, hn, ⟨-, rfl⟩ | ⟨-, rfl⟩⟩ := Table.mem_modify ha
    · exact ⟨fun _ heq => Option.some.inj heq ▸ htag, (h.nodes n hn).endpoint⟩
    · exact h.nodes _ hn
  · rintro n hn - n' hn' ⟨tag', heq, htag'⟩
    exact hfree n' hn' (htag'.trans heq.symm)
  · exact fun n hn hid n' hn' hshares => (h.links n hn n' hn' hshares).symm.trans hid

/-- A new subscription, with a tag that no other has. -/
theorem pushSubscription (h : s.Tidy c) {make : Id → Subscription}
    (hnew : (make (s.subscriptions.issued + 1)).Tidy c)
    (htag : ∀ row ∈ s.subscriptions.rows, ¬row.SharesTag (make (s.subscriptions.issued + 1))) :
    ({ s with subscriptions := s.subscriptions.push make } : Store).Tidy c := by
  refine { h with
    subscriptions := fun row hrow => ?_
    subscriptionTags := h.subscriptionTags.push (fun _ _ => .symm) htag }
  obtain hrow | rfl := Table.mem_push.1 hrow
  · exact h.subscriptions row hrow
  · exact hnew

/-- A subscription that was changed, with the tag that it had or one that no other has. -/
theorem modifySubscription (h : s.Tidy c) {id : Id} {f : Subscription → Subscription}
    (hid : ∀ row, (f row).id = row.id) (hf : ∀ row, row.Tidy c → (f row).Tidy c)
    (htag : ∀ row tag, (f row).tag = some tag → row.tag = some tag ∨
      ∀ row' ∈ s.subscriptions.rows, row'.tag = some tag → row'.id = id) :
    ({ s with subscriptions := s.subscriptions.modify id f } : Store).Tidy c := by
  refine { h with
    subscriptions := fun a ha => ?_
    subscriptionTags := h.subscriptionTags.modify (fun _ _ => .symm) hid ?_ }
  · obtain ⟨row, hrow, ⟨-, rfl⟩ | ⟨-, rfl⟩⟩ := Table.mem_modify ha
    · exact hf row (h.subscriptions row hrow)
    · exact h.subscriptions _ hrow
  · rintro row hrow hrowid row' hrow' ⟨tag, heq, heq'⟩
    obtain hsame | hfree := htag row tag heq
    · exact (h.subscriptionTags row hrow row' hrow' ⟨tag, hsame, heq'⟩).symm.trans hrowid
    · exact hfree row' hrow' heq'

end Tidy

namespace Follows

theorem bumped (hs : s.Valid) (h : s.Tidy c) (ids : List Id) : s.Follows c (s.bumped ids) :=
  ⟨hs.bumped ids, h.bumped ids, .bumped s ids⟩

theorem dropNodes (hs : s.Valid) (h : s.Tidy c) (gone : Node → Bool) :
    s.Follows c (s.dropNodes gone) :=
  ⟨valid_dropNodes hs gone, h.dropNodes gone, .dropNodes s gone⟩

theorem running (hs : s.Valid) (h : s.Tidy c) (row : RunningRow) :
    s.Follows c { s with running := row } :=
  ⟨{ hs with }, { h with }, fun _ => .refl _, .refl _, .refl _, .refl _⟩

theorem tagged (hs : s.Valid) (h : s.Tidy c) {id : Id} {tag : String}
    (htag : checkIdentifier .tag tag = .ok ())
    (hfree : ∀ n, s.nodes.rows.find? (fun n => n.tag == some tag) = some n → some n.id = some id) :
    s.Follows c (s.tagged id tag) := by
  refine ⟨hs.tagged id tag, h.tagged htag fun n hn heq => ?_, fun _ => .refl _,
    .modify _ fun _ => rfl, .refl _, .refl _⟩
  refine h.nodeTags.of_find? (fun a b ha hb => ?_) hfree n hn (by simpa using heq)
  exact ⟨tag, by simpa using ha, by simpa using hb⟩

/-- An import that took a node. -/
theorem takes (hs : s.Valid) (h : s.Tidy c) {new : NewNode} {owner : Option Id}
    {endpoint : Endpoint} (ht : Takes new owner endpoint s s') : s.Follows c s' := by
  obtain ⟨htag, hread, hlink, hthere, rfl⟩ := ht
  refine ⟨(imports_push hs _ rfl rfl hthere).valid, h.pushNode ⟨?_, hread⟩ ?_ ?_,
    .pushNode s rfl⟩
  · exact fun tag heq => (htag tag heq).1
  · rintro n hn ⟨tag, hn', heq⟩
    exact (htag tag heq).2 n hn hn'
  · rintro n hn ⟨heq, howner⟩
    exact hlink n hn heq howner

end Follows

end Store

namespace Transaction

/-- A transaction that keeps stores in good order. -/
def Tidies {α : Type} (c : Custom) (t : Transaction α) : Prop :=
  ∀ s : Store, s.Valid → s.Tidy c → t.Ensures s fun _ s' => s.Follows c s'

end Transaction
end ProxyPlane
