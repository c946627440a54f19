import ProxyPlane.Proofs.Nodes
import ProxyPlane.Store.Subscription

/-!
# What the transactions on subscriptions do

A group reaches the nodes of its subscriptions without naming them, so what happens to a
subscription touches the groups that have it attached as well as those that have one of its nodes
attached.

## What is here

* `Store.Opens`, `createSubscription_opens` — all that making a subscription does;
  `createSubscription_ensures`, `newSubscription_does` — no group has it attached yet.
* `Store.touchedBy`, `replaceNodes_refills` — all that a refresh does.
* `replaceNodes_does`, `removeSubscriptions_does` — edits that move every group they touch, once.
* `editSubscription_does` — what a subscription says of itself is nothing that a group reaches.
-/

set_option autoImplicit false
namespace ProxyPlane

/-- A subscription as it is made. -/
def Subscription.made (link : String) (tag : Option String) (id : Id) : Subscription :=
  ⟨id, link, tag, Subscription.defaultSchedule, true, "", ""⟩

namespace Store

variable {s : Store}

/-- A group that has none of the given subscriptions attached. -/
theorem not_subscribed_of_notMem {ids : List Id} {g : Group} (hg : g ∈ s.groups.rows)
    (h : g.id ∉ s.groupsWith ids) {id : Id} (hid : id ∈ g.subscriptions) : id ∉ ids := by
  intro hmem
  refine h (List.mem_map.2 ⟨g, List.mem_filter.2 ⟨hg, List.any_eq_true.2 ⟨id, hid, ?_⟩⟩, rfl⟩)
  simpa using hmem

/-- A subscription was made, and its tag has passed every check. -/
structure Opens (link : String) (tag : Option String) (row : Subscription) (s s' : Store) :
    Prop where
  checked : ∀ t, tag = some t →
    checkIdentifier .tag t = .ok () ∧ ∀ row ∈ s.subscriptions.rows, row.tag ≠ some t
  made : row = .made link tag (s.subscriptions.issued + 1)
  store : s' = { s with subscriptions := s.subscriptions.push (.made link tag) }

/-- The groups that a refresh of a subscription moves. -/
def touchedBy (s : Store) (id : Id) : List Id :=
  s.groupsReaching ((s.nodesOf id).map (·.id)) ++ s.groupsWith [id]

/-- Every subscription is still there. -/
theorem valid_withSubscriptions (h : s.Valid) {t : Table Subscription} (hordered : t.Ordered)
    (hthere : ∀ row ∈ s.subscriptions.rows, ∃ row' ∈ t.rows, row'.id = row.id) :
    ({ s with subscriptions := t } : Store).Valid :=
  { h with
    subscriptions := hordered
    subscribed := fun g hg id hid => by
      obtain ⟨row, hrow, rfl⟩ := h.subscribed g hg id hid
      exact hthere row hrow
    owned := fun n hn id hid => by
      obtain ⟨row, hrow, rfl⟩ := h.owned n hn id hid
      exact hthere row hrow }

/-- Takes subscriptions out that own no nodes any more, also of the groups they are attached to. -/
def dropSubscriptions (s : Store) (ids : List Id) : Store :=
  { s with
    subscriptions := s.subscriptions.retain fun row => !ids.contains row.id
    groups := s.groups.map fun g =>
      { g with subscriptions := g.subscriptions.filter fun id => !ids.contains id } }

theorem valid_dropSubscriptions (h : s.Valid) {ids : List Id}
    (hbare : ∀ n ∈ s.nodes.rows, ∀ id, n.subscription = some id → id ∉ ids) :
    (s.dropSubscriptions ids).Valid :=
  { h with
    subscriptions := h.subscriptions.retain _
    groups := h.groups.map fun _ => rfl
    names := fun a ha b hb hab => by
      obtain ⟨g, hg, rfl⟩ := Table.mem_map.1 ha
      obtain ⟨g', hg', rfl⟩ := Table.mem_map.1 hb
      exact h.names g hg g' hg' hab
    attached := fun a ha => by
      obtain ⟨g, hg, rfl⟩ := Table.mem_map.1 ha
      exact h.attached g hg
    subscribed := fun a ha id hid => by
      obtain ⟨g, hg, rfl⟩ := Table.mem_map.1 ha
      obtain ⟨hid, hkept⟩ := List.mem_filter.1 hid
      obtain ⟨row, hrow, rfl⟩ := h.subscribed g hg id hid
      exact ⟨row, Table.mem_retain.2 ⟨hrow, hkept⟩, rfl⟩
    owned := fun n hn id hid => by
      obtain ⟨row, hrow, rfl⟩ := h.owned n hn id hid
      exact ⟨row, Table.mem_retain.2 ⟨hrow, by simpa using hbare n hn row.id hid⟩, rfl⟩ }

end Store

namespace Transaction
open Store

variable {id : Id} {s : Store}

/-- The first subscription that has the tag, if there is one, is the owner. -/
theorem ensures_freeSubscriptionTag (tag : String) (owner : Option Id) :
    (freeSubscriptionTag tag owner).Ensures s fun _ s' => s' = s ∧
      ∀ row, s.subscriptions.rows.find? (fun row => row.tag == some tag) = some row →
        some row.id = owner := by
  simp only [freeSubscriptionTag, ensures_bind, ensures_get]
  cases s.subscriptions.rows.find? fun row => row.tag == some tag with
  | none => simp
  | some row => simp

/-- A change of a subscription that leaves its identifier alone. -/
theorem editSubscription_does {f : Subscription → Subscription} (hf : ∀ row, (f row).id = row.id) :
    (editSubscription id f).Does (Edits KeepsGroups) := by
  intro s h
  simp only [editSubscription, ensures_bind, ensures_modify, ensures_subscription]
  intro _ _
  refine edits_of_eq (valid_withSubscriptions h (h.subscriptions.modify hf) fun row hrow => ?_)
    (keepsGroups_of_eq rfl rfl) rfl rfl
  refine ⟨_, Table.mem_map.2 ⟨row, hrow, rfl⟩, ?_⟩
  split
  · exact hf row
  · rfl

theorem setStatus_does (status : String) : (setStatus id status).Does (Edits KeepsGroups) := by
  intro s h
  simp only [setStatus, ensures_bind, ensures_pure]
  refine editSubscription_does ?_ s h
  exact fun _ => rfl

theorem setSchedule_does (schedule : Option String) (scheduled : Option Bool) :
    (setSchedule id schedule scheduled).Does (Edits KeepsGroups) :=
  editSubscription_does fun _ => rfl

theorem tagSubscription_does (tag : String) :
    (tagSubscription id tag).Does (Edits KeepsGroups) := by
  intro s h
  simp only [tagSubscription, ensures_bind, ensures_check]
  intro _ _
  refine (ensures_freeSubscriptionTag tag _).mono ?_
  rintro _ s ⟨rfl, -⟩
  rw [ensures_subscription]
  intro _ _
  refine editSubscription_does ?_ s h
  exact fun _ => rfl

/-- **What makes a subscription**: its tag has passed every check, and it is the last row. -/
theorem createSubscription_opens (h : s.Valid) (link : String) (tag : Option String) :
    (createSubscription link tag).Ensures s fun row s' => Opens link tag row s s' := by
  rw [createSubscription]
  refine ensures_bind.2 (ensures_check.2 fun _ _ => ?_)
  extract_lets rest
  have hrest (htag : ∀ t, tag = some t →
      checkIdentifier .tag t = .ok () ∧ ∀ row ∈ s.subscriptions.rows, row.tag ≠ some t) :
      ∀ u, (rest u).Ensures s fun row s' => Opens link tag row s s' := by
    intro _
    simp only [rest, ensures_bind, ensures_get, ensures_set, ensures_subscription]
    intro row hrow
    obtain ⟨hmem, hid⟩ := Table.mem_of_find? hrow
    have hordered : (s.subscriptions.push (.made link tag)).Ordered := h.subscriptions.push rfl
    exact ⟨htag, hordered.eq_of_id hmem (Table.mem_push.2 (.inr rfl)) hid, rfl⟩
  split
  · simp only [ensures_bind, ensures_check]
    intro _ hidentifier
    refine (ensures_freeSubscriptionTag _ none).mono ?_
    rintro _ _ ⟨rfl, hfree⟩
    refine hrest (fun t heq => ?_) ()
    obtain rfl := Option.some.inj heq
    refine ⟨hidentifier, fun row hrow htag => ?_⟩
    exact Table.not_of_find? hfree row hrow (by simpa using htag)
  · next hnone => exact hrest (fun t heq => absurd heq (hnone t)) ()

/-- A new subscription, which no group has attached. -/
theorem createSubscription_ensures (h : s.Valid) (link : String) (tag : Option String) :
    (createSubscription link tag).Ensures s fun row s' =>
      Edits KeepsGroups s s' ∧ ∀ g ∈ s'.groups.rows, row.id ∉ g.subscriptions := by
  refine (createSubscription_opens h link tag).mono ?_
  rintro _ _ ⟨-, rfl, rfl⟩
  refine ⟨edits_of_eq (valid_withSubscriptions h (h.subscriptions.push rfl) ?_)
    (keepsGroups_of_eq rfl rfl) rfl rfl, fun g hg hid => ?_⟩
  · exact fun row hrow => ⟨row, Table.mem_push.2 (.inl hrow), rfl⟩
  · exact Int.not_le.2 (Int.lt_succ _) (h.subscribed_le hg hid)

/-- A new subscription with new nodes of its own. -/
theorem newSubscription_does {α : Type} (link : String) (tag : Option String) (abort : Bool)
    (news : List NewNode) (f : Subscription → List Imported → α) :
    (do
      let row ← createSubscription link tag
      let results ← importNodes (some row.id) abort news
      return f row results).Does (Edits KeepsGroups) := by
  intro s h
  refine ensures_bind.2 ((createSubscription_ensures h link tag).mono ?_)
  rintro row s' ⟨hedit, hfree⟩
  refine ensures_bind.2 ((importNodes_ensures hedit.valid (some row.id) abort news).mono ?_)
  intro _ s'' hi
  have hkeeps : s'.KeepsGroups s'' := by
    refine hi.keepsGroups hedit.valid fun g hg id hid heq => ?_
    cases heq
    exact hfree g hg hid
  exact ensures_pure.2 (hedit.trans (edits_of_eq hi.valid hkeeps hi.sections hi.running)
    KeepsGroups.trans)

/-- **What a refresh does**: the nodes of a subscription are taken out, others are imported for it,
and the groups that are touched move. -/
theorem replaceNodes_refills (h : s.Valid) (links : List String) :
    (replaceNodes id links).Ensures s fun _ s' =>
      ∃ t, Imports (some id) (s.dropNodes fun n => n.subscription == some id) t ∧
        s' = t.bumped (s.touchedBy id) := by
  simp only [replaceNodes, ensures_bind, ensures_subscription, ensures_get, ensures_set]
  intro _ _
  refine (importNodes_ensures (valid_dropNodes h _) (some id) false _).mono fun _ t hi => ?_
  simp only [ensures_bump, ensures_pure]
  exact ⟨t, hi, rfl⟩

theorem replaceNodes_does (links : List String) :
    (replaceNodes id links).Does (Edits MovesGroups) := by
  intro s h
  refine (replaceNodes_refills h links).mono ?_
  rintro _ _ ⟨t, hi, rfl⟩
  refine edits_of_eq (hi.valid.bumped _) ?_ hi.sections hi.running
  refine movesGroups_of_bump hi.groups (fun _ => ⟨rfl, rfl⟩) fun g hg htouched => ?_
  rw [touchedBy, List.mem_append, not_or] at htouched
  -- nothing that goes is reached, and nothing that comes
  obtain ⟨hnodes, hreached⟩ := reached_dropNodes (fun n => n.subscription == some id)
    fun n hn hgone =>
    not_reaches_of_notMem hg htouched.1 hn (List.mem_map.2 ⟨n, List.mem_filter.2 ⟨hn, hgone⟩, rfl⟩)
  refine ⟨by rw [hnodes], Eq.trans (hi.reached_eq (fun _ => h.attached_le hg) ?_) hreached⟩
  rintro _ hid ⟨⟩
  exact not_subscribed_of_notMem hg htouched.2 hid (.head _)

theorem removeSubscriptions_does (ids : List Id) :
    (removeSubscriptions ids).Does (Edits MovesGroups) := by
  intro s h
  simp only [removeSubscriptions, ensures_bind, ensures_get, ensures_set, ensures_bump,
    ensures_pure]
  have hbare : ((s.dropNodes fun n => n.subscription.any ids.contains).dropSubscriptions
    ids).Valid := by
    refine valid_dropSubscriptions (valid_dropNodes h _) fun n hn id hid hmem => ?_
    have hkept := (Table.mem_retain.1 hn).2
    simp [hid, hmem] at hkept
  refine edits_of_eq (hbare.bumped _) ?_ rfl rfl
  refine movesGroups_of_bump (Table.map_map _ _ _) (fun _ => ⟨rfl, rfl⟩) fun g hg htouched => ?_
  rw [List.mem_append, not_or] at htouched
  obtain ⟨hnodes, hreached⟩ := reached_dropNodes (fun n => n.subscription.any ids.contains)
    fun n hn hgone =>
      not_reaches_of_notMem hg htouched.1 hn
      (List.mem_map.2 ⟨n, List.mem_filter.2 ⟨hn, hgone⟩, rfl⟩)
  have hsubscriptions : (g.subscriptions.filter fun id => !ids.contains id) = g.subscriptions :=
    List.filter_eq_self.2 fun id hid => by simpa using not_subscribed_of_notMem hg htouched.2 hid
  refine ⟨?_, hreached⟩
  simp only [Function.comp_apply, hnodes, hsubscriptions]

end Transaction
end ProxyPlane
