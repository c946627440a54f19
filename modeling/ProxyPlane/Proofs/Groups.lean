import ProxyPlane.Proofs.Store

/-!
# What the transactions on groups do

A group is created, removed, or changed and then moved by one version.  In all three cases nodes and
subscriptions stay, so every other group reaches what it reached.

## What is here

* `Store.valid_withGroups` — when the invariant survives a new table of groups.
* `Store.Retouches` — one group was changed, up to its version; `bumpGroup` makes that an edit.
* `createGroup_does`, `removeGroups_does` — edits that keep the groups that were there.
* `renameGroup_does`, `setPolicy_does`, `attachNodes_does`, … — edits that move a group.
-/

set_option autoImplicit false
namespace ProxyPlane

namespace Store

variable {s s' : Store}

theorem valid_withGroups (h : s.Valid) {t : Table Group} (hordered : t.Ordered)
    (hnames : ∀ g ∈ t.rows, ∀ g' ∈ t.rows, g.name = g'.name → g.id = g'.id)
    (hattached : ∀ g ∈ t.rows, ∀ id ∈ g.nodes, ∃ n ∈ s.nodes.rows, n.id = id)
    (hsubscribed : ∀ g ∈ t.rows, ∀ id ∈ g.subscriptions, ∃ row ∈ s.subscriptions.rows,
      row.id = id) :
    ({ s with groups := t } : Store).Valid :=
  { h with groups := hordered, names := hnames, attached := hattached, subscribed := hsubscribed }

/-- One group was changed, but not its identifier and not its version; all else is as it was. -/
structure Retouches (id : Id) (s s' : Store) : Prop where
  valid : s'.Valid
  sections : s'.sections = s.sections
  nodes : s'.nodes = s.nodes
  subscriptions : s'.subscriptions = s.subscriptions
  running : s'.running = s.running
  groups : ∃ f : Group → Group, s'.groups = s.groups.modify id f ∧
    ∀ g, (f g).id = g.id ∧ (f g).version = g.version

theorem Retouches.refl (h : s.Valid) (id : Id) : Retouches id s s :=
  ⟨h, rfl, rfl, rfl, rfl, fun g => g, by simp [Table.modify, Table.map], fun _ => ⟨rfl, rfl⟩⟩

/-- A change of the group that leaves its name unique and its associations to rows that exist. -/
theorem Retouches.edit {id : Id} (h : Retouches id s s') {f : Group → Group}
    (hf : ∀ g, (f g).id = g.id ∧ (f g).version = g.version)
    (hname : ∀ g ∈ s'.groups.rows, g.id = id →
      ∀ g' ∈ s'.groups.rows, g'.name = (f g).name → g'.id = id)
    (hnodes : ∀ g ∈ s'.groups.rows, ∀ n ∈ (f g).nodes, n ∈ g.nodes ∨
      ∃ row ∈ s'.nodes.rows, row.id = n)
    (hsubscriptions : ∀ g ∈ s'.groups.rows, ∀ n ∈ (f g).subscriptions,
      n ∈ g.subscriptions ∨ ∃ row ∈ s'.subscriptions.rows, row.id = n) :
    Retouches id s { s' with groups := s'.groups.modify id f } := by
  refine ⟨valid_withGroups h.valid (h.valid.groups.modify fun g => (hf g).1) ?_ ?_ ?_,
    h.sections, h.nodes, h.subscriptions, h.running, ?_⟩
  · intro a ha b hb hab
    obtain ⟨g, hg, ⟨hgid, rfl⟩ | ⟨hgid, rfl⟩⟩ := Table.mem_modify ha <;>
      obtain ⟨g', hg', ⟨hgid', rfl⟩ | ⟨hgid', rfl⟩⟩ := Table.mem_modify hb
    · rw [(hf g).1, (hf g').1]; exact hgid.trans hgid'.symm
    · rw [(hf g).1]; exact hgid.trans (hname g hg hgid _ hg' hab.symm).symm
    · rw [(hf g').1]; exact (hname g' hg' hgid' _ hg hab).trans hgid'.symm
    · exact h.valid.names _ hg _ hg' hab
  · intro a ha n hn
    obtain ⟨g, hg, ⟨-, rfl⟩ | ⟨-, rfl⟩⟩ := Table.mem_modify ha
    · exact (hnodes g hg n hn).elim (h.valid.attached g hg n) fun hrow => hrow
    · exact h.valid.attached _ hg n hn
  · intro a ha n hn
    obtain ⟨g, hg, ⟨-, rfl⟩ | ⟨-, rfl⟩⟩ := Table.mem_modify ha
    · exact (hsubscriptions g hg n hn).elim (h.valid.subscribed g hg n) fun hrow => hrow
    · exact h.valid.subscribed _ hg n hn
  · obtain ⟨f₀, hgroups, hf₀⟩ := h.groups
    refine ⟨fun g => f (f₀ g), ?_, fun g =>
      ⟨((hf _).1).trans (hf₀ g).1, ((hf _).2).trans (hf₀ g).2⟩⟩
    rw [hgroups]
    simp only [Table.modify, Table.map, List.map_map, Table.mk.injEq, and_true]
    refine List.map_congr_left fun g _ => ?_
    by_cases hid : g.id = id
    · simp [Row.id, hid, (hf₀ g).1]
    · simp [Row.id, hid]

/-- The same for a change that leaves the name alone. -/
theorem Retouches.edit_of_name {id : Id} (h : Retouches id s s') {f : Group → Group}
    (hf : ∀ g, (f g).id = g.id ∧ (f g).version = g.version) (hname : ∀ g, (f g).name = g.name)
    (hnodes : ∀ g ∈ s'.groups.rows, ∀ n ∈ (f g).nodes, n ∈ g.nodes ∨
      ∃ row ∈ s'.nodes.rows, row.id = n)
    (hsubscriptions : ∀ g ∈ s'.groups.rows, ∀ n ∈ (f g).subscriptions,
      n ∈ g.subscriptions ∨ ∃ row ∈ s'.subscriptions.rows, row.id = n) :
    Retouches id s { s' with groups := s'.groups.modify id f } :=
  h.edit hf (fun g hg hid g' hg' heq => (h.valid.names g' hg' g hg (heq.trans (hname g))).trans hid)
    hnodes hsubscriptions

end Store

namespace Transaction
open Store

variable {id : Id} {s s' : Store}

@[simp] theorem ensures_editGroup {f : Group → Group} {P : PUnit → Store → Prop} :
    (editGroup id f).Ensures s P ↔ P () { s with groups := s.groups.modify id f } :=
  ensures_modify

/-- No group but the owner has the name. -/
theorem ensures_freeGroupName (h : s.Valid) (name : String) (owner : Option Id) :
    (freeGroupName name owner).Ensures s fun _ s' =>
      s' = s ∧ ∀ g ∈ s.groups.rows, g.name = name → some g.id = owner := by
  simp only [freeGroupName, ensures_bind, ensures_get]
  split
  · next g hfound =>
    have hname : g.name = name := by simpa using List.find?_some hfound
    have hg := List.mem_of_find?_eq_some hfound
    refine ensures_ite.2 ⟨fun _ => ensures_throw.2 trivial, fun howner => ensures_pure.2 ⟨rfl, ?_⟩⟩
    intro g' hg' hname'
    rw [h.names g' hg' g hg (hname'.trans hname.symm)]
    simpa using howner
  · next hfound =>
    refine ensures_pure.2 ⟨rfl, fun g hg hname => ?_⟩
    exact absurd hname (by simpa using List.find?_eq_none.1 hfound g hg)

/-- A group that was changed and then moved by one version was edited. -/
theorem bumpGroup_does (h : Retouches id s s') :
    (bumpGroup id).Ensures s' fun _ s'' => Edits MovesGroups s s'' := by
  simp only [bumpGroup, ensures_bind, ensures_bump, ensures_group]
  intro _ _
  obtain ⟨f, hgroups, hf⟩ := h.groups
  refine edits_of_eq (h.valid.bumped _) ?_ h.sections h.running
  refine movesGroups_of_bump hgroups (fun g => ?_) fun g _ hid => ?_
  · split
    · exact hf g
    · exact ⟨rfl, rfl⟩
  · exact ⟨if_neg (by simpa [Row.id] using hid), reached_congr (by rw [h.nodes])⟩

theorem createGroup_does (name policy : String) (params : List PolicyParam) :
    (createGroup name policy params).Does (Edits KeepsGroups) := by
  intro s h
  simp only [createGroup, ensures_bind, ensures_check]
  intro _ _
  refine (ensures_freeGroupName h name none).mono ?_
  rintro _ s ⟨rfl, hfree⟩
  simp only [ensures_get, ensures_set, ensures_group]
  intro _ _
  have hnew : ∀ g ∈ s.groups.rows, g.name ≠ name := fun g hg hname => by cases hfree g hg hname
  refine edits_of_eq (valid_withGroups h (h.groups.push rfl) ?_ ?_ ?_) ⟨?_, ?_⟩ rfl rfl
  · intro a ha b hb hab
    rcases Table.mem_push.1 ha with ha | rfl <;> rcases Table.mem_push.1 hb with hb | rfl
    · exact h.names a ha b hb hab
    · exact absurd hab (hnew a ha)
    · exact absurd hab.symm (hnew b hb)
    · rfl
  · intro a ha n hn
    rcases Table.mem_push.1 ha with ha | rfl
    · exact h.attached a ha n hn
    · cases hn
  · intro a ha n hn
    rcases Table.mem_push.1 ha with ha | rfl
    · exact h.subscribed a ha n hn
    · cases hn
  · exact Int.le_of_lt (Int.lt_succ _)
  · intro g hg hle
    rcases Table.mem_push.1 hg with hg | rfl
    · exact ⟨hg, rfl⟩
    · exact absurd hle (Int.not_le.2 (Int.lt_succ _))

theorem removeGroups_does (ids : List Id) : (removeGroups ids).Does (Edits KeepsGroups) := by
  intro s h
  simp only [removeGroups, ensures_bind, ensures_get, ensures_set, ensures_pure]
  refine edits_of_eq (valid_withGroups h (h.groups.retain _) ?_ ?_ ?_) ⟨Int.le_refl _, ?_⟩ rfl rfl
  · exact fun a ha b hb => h.names a (Table.mem_retain.1 ha).1 b (Table.mem_retain.1 hb).1
  · exact fun a ha => h.attached a (Table.mem_retain.1 ha).1
  · exact fun a ha => h.subscribed a (Table.mem_retain.1 ha).1
  · exact fun g hg _ => ⟨(Table.mem_retain.1 hg).1, rfl⟩

theorem renameGroup_does (name : String) : (renameGroup id name).Does (Edits MovesGroups) := by
  intro s h
  simp only [renameGroup, ensures_bind, ensures_check, ensures_editGroup]
  intro _ _
  refine (ensures_freeGroupName h name (some id)).mono ?_
  rintro _ s ⟨rfl, hfree⟩
  refine bumpGroup_does ((Retouches.refl h id).edit (fun _ => ⟨rfl, rfl⟩) ?_ ?_ ?_)
  · exact fun _ _ _ g' hg' hname => Option.some.inj (hfree g' hg' hname)
  · exact fun _ _ _ hn => .inl hn
  · exact fun _ _ _ hn => .inl hn

/-- A change that leaves the name alone and takes at most associations away. -/
theorem editGroup_does {f : Group → Group}
    (hf : ∀ g, (f g).id = g.id ∧ (f g).version = g.version) (hname : ∀ g, (f g).name = g.name)
    (hnodes : ∀ g, ∀ n ∈ (f g).nodes, n ∈ g.nodes)
    (hsubscriptions : ∀ g, ∀ n ∈ (f g).subscriptions, n ∈ g.subscriptions) :
    (do editGroup id f; bumpGroup id : Transaction Group).Does (Edits MovesGroups) := by
  intro s h
  simp only [ensures_bind, ensures_editGroup]
  refine bumpGroup_does ((Retouches.refl h id).edit_of_name hf hname ?_ ?_)
  · exact fun g _ n hn => .inl (hnodes g n hn)
  · exact fun g _ n hn => .inl (hsubscriptions g n hn)

theorem setPolicy_does (policy : String) (params : List PolicyParam) :
    (setPolicy id policy params).Does (Edits MovesGroups) :=
  editGroup_does (fun _ => ⟨rfl, rfl⟩) (fun _ => rfl) (fun _ _ hn => hn) fun _ _ hn => hn

theorem detachNodes_does (nodes : List Id) : (detachNodes id nodes).Does (Edits MovesGroups) :=
  editGroup_does (fun _ => ⟨rfl, rfl⟩) (fun _ => rfl) (fun _ _ hn => (List.mem_filter.1 hn).1)
    fun _ _ hn => hn

theorem detachSubscriptions_does (subscriptions : List Id) :
    (detachSubscriptions id subscriptions).Does (Edits MovesGroups) :=
  editGroup_does (fun _ => ⟨rfl, rfl⟩) (fun _ => rfl) (fun _ _ hn => hn)
    fun _ _ hn => (List.mem_filter.1 hn).1

/-- Any number of rounds, each of which changes the group, and then one version. -/
theorem rounds_does {xs : List Id} {round : Id → Transaction PUnit}
    (h : ∀ x s s', Retouches id s s' → (round x).Ensures s' fun _ s'' => Retouches id s s'') :
    (do let _ ← group id; xs.forM round; bumpGroup id : Transaction Group).Does
      (Edits MovesGroups) := by
  intro s hs
  simp only [ensures_bind, ensures_group]
  intro _ _
  have hrounds : (xs.forM round).Ensures s fun _ s' => Retouches id s s' :=
    ensures_forM (Retouches.refl hs id) fun x _ s' => h x s s'
  exact hrounds.mono fun _ _ => bumpGroup_does

theorem mem_attach {attached : List Id} {id n : Id} (h : n ∈ attach attached id) :
    n ∈ attached ∨ n = id := by
  rw [attach] at h
  split at h
  · exact .inl h
  · simpa using h

theorem attachNodes_does (nodes : List Id) : (attachNodes id nodes).Does (Edits MovesGroups) := by
  -- each round attaches one node, which is there
  refine rounds_does fun n s s' h => ?_
  simp only [ensures_bind, ensures_node, ensures_editGroup]
  intro row hrow
  obtain ⟨hmem, hid⟩ := Table.mem_of_find? hrow
  refine h.edit_of_name (fun _ => ⟨rfl, rfl⟩) (fun _ => rfl) ?_ ?_
  · exact fun _ _ n hn => (mem_attach hn).imp_right fun heq => ⟨row, hmem, hid.trans heq.symm⟩
  · exact fun _ _ _ hn => .inl hn

theorem attachSubscriptions_does (subscriptions : List Id) :
    (attachSubscriptions id subscriptions).Does (Edits MovesGroups) := by
  refine rounds_does fun n s s' h => ?_
  simp only [ensures_bind, ensures_subscription, ensures_editGroup]
  intro row hrow
  obtain ⟨hmem, hid⟩ := Table.mem_of_find? hrow
  refine h.edit_of_name (fun _ => ⟨rfl, rfl⟩) (fun _ => rfl) ?_ ?_
  · exact fun _ _ _ hn => .inl hn
  · exact fun _ _ n hn => (mem_attach hn).imp_right fun heq => ⟨row, hmem, hid.trans heq.symm⟩

end Transaction
end ProxyPlane
