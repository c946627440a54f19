import ProxyPlane.Proofs.Store

/-!
# What the transactions on nodes do

Nodes are imported, removed and tagged.  New nodes belong to no group yet, unless their subscription
does; nodes that go or change are found by the groups that reach them before they go.

## What is here

* `Store.Imports owner` — some new nodes of one owner, and nothing else; kept by every import,
  whether or not it succeeds.
* `Store.Takes`, `importNode_takes` — all that one import does; `importNodes_keeps` carries it
  through any number of them.
* `Store.Imports.keepsGroups` — an import for an owner that no group has attached keeps all groups.
* `Store.valid_dropNodes`, `Store.reached_dropNodes` — taking nodes out of a store.
* `importNodes_does`, `removeNodes_does`, `tagNode_does` — the edits.
-/

set_option autoImplicit false
namespace ProxyPlane

namespace Store

variable {s s' s'' : Store} {owner : Option Id}

/-! ## New nodes -/

/-- Some new nodes were imported for an owner, and nothing else was done. -/
structure Imports (owner : Option Id) (s s' : Store) : Prop where
  valid : s'.Valid
  sections : s'.sections = s.sections
  subscriptions : s'.subscriptions = s.subscriptions
  groups : s'.groups = s.groups
  running : s'.running = s.running
  issued : s.nodes.issued ≤ s'.nodes.issued
  nodes : ∃ new, s'.nodes.rows = s.nodes.rows ++ new ∧
    ∀ n ∈ new, s.nodes.issued < n.id ∧ n.subscription = owner

theorem Imports.refl (h : s.Valid) (owner : Option Id) : Imports owner s s :=
  ⟨h, rfl, rfl, rfl, rfl, Int.le_refl _, [], by simp, by simp⟩

theorem Imports.trans (h : Imports owner s s') (h' : Imports owner s' s'') :
    Imports owner s s'' := by
  obtain ⟨new, hnodes, hnew⟩ := h.nodes
  obtain ⟨new', hnodes', hnew'⟩ := h'.nodes
  refine ⟨h'.valid, h'.sections.trans h.sections, h'.subscriptions.trans h.subscriptions,
    h'.groups.trans h.groups, h'.running.trans h.running, Int.le_trans h.issued h'.issued,
    new ++ new', by rw [hnodes', hnodes, List.append_assoc], ?_⟩
  intro n hn
  rcases List.mem_append.1 hn with hn | hn
  · exact hnew n hn
  · exact ⟨Int.lt_of_le_of_lt h.issued (hnew' n hn).1, (hnew' n hn).2⟩

/-- One new node, of an owner that is there. -/
theorem imports_push (h : s.Valid) (make : Id → Node)
    (hid : (make (s.nodes.issued + 1)).id = s.nodes.issued + 1)
    (howner : (make (s.nodes.issued + 1)).subscription = owner)
    (hthere : ∀ id, owner = some id → ∃ row ∈ s.subscriptions.rows, row.id = id) :
    Imports owner s { s with nodes := s.nodes.push make } where
  valid :=
    { h with
      nodes := h.nodes.push hid
      attached := fun g hg id hn => by
        obtain ⟨n, hn, hid⟩ := h.attached g hg id hn
        exact ⟨n, Table.mem_push.2 (.inl hn), hid⟩
      owned := fun n hn id hid => by
        rcases Table.mem_push.1 hn with hn | rfl
        · exact h.owned n hn id hid
        · exact hthere id (howner.symm.trans hid) }
  sections := rfl
  subscriptions := rfl
  groups := rfl
  running := rfl
  issued := Int.le_of_lt (Int.lt_succ _)
  nodes := by
    refine ⟨[make (s.nodes.issued + 1)], rfl, fun n hn => ?_⟩
    rw [List.mem_singleton.1 hn, hid]
    exact ⟨Int.lt_succ _, howner⟩

/-- A group that has not attached the owner reaches what it reached. -/
theorem Imports.reached_eq (hi : Imports owner s s') {g : Group}
    (hattached : ∀ id ∈ g.nodes, id ≤ s.nodes.issued)
    (howner : ∀ id ∈ g.subscriptions, owner ≠ some id) : s'.reached g = s.reached g := by
  obtain ⟨new, hnodes, hnew⟩ := hi.nodes
  refine reached_congr ?_
  suffices hnone : new.filter (reaches g) = [] by
    rw [hnodes, List.filter_append, hnone, List.append_nil]
  refine List.filter_eq_nil_iff.2 fun n hn hreaches => ?_
  obtain ⟨hlt, hown⟩ := hnew n hn
  rcases reaches_iff.1 hreaches with hid | ⟨id, hid, hsub⟩
  · exact Int.not_le.2 hlt (hattached _ hid)
  · exact howner id hid (hown.symm.trans hsub)

theorem Imports.keepsGroups (hi : Imports owner s s') (h : s.Valid)
    (howner : ∀ g ∈ s.groups.rows, ∀ id ∈ g.subscriptions, owner ≠ some id) : s.KeepsGroups s' := by
  refine ⟨Int.le_of_eq (by rw [hi.groups]), fun g hg _ => ?_⟩
  rw [hi.groups] at hg
  exact ⟨hg, hi.reached_eq (fun _ => h.attached_le hg) (howner g hg)⟩

/-- A node was imported for an owner, and has passed every check. -/
structure Takes (new : NewNode) (owner : Option Id) (endpoint : Endpoint) (s s' : Store) :
    Prop where
  tag : ∀ tag, new.tag = some tag →
    checkIdentifier .tag tag = .ok () ∧ ∀ n ∈ s.nodes.rows, n.tag ≠ some tag
  read : readLink new.link = .ok endpoint
  link : ∀ n ∈ s.nodes.rows, n.link = new.link → n.subscription ≠ owner
  there : ∀ id, owner = some id → ∃ row ∈ s.subscriptions.rows, row.id = id
  store : s' = { s with nodes := s.nodes.push fun id =>
    ⟨id, new.link, endpoint.name, endpoint.address, endpoint.protocol, new.tag, owner⟩ }

/-! ## Nodes that go -/

/-- A group that reaches none of the given nodes. -/
theorem not_reaches_of_notMem {ids : List Id} {g : Group} (hg : g ∈ s.groups.rows)
    (h : g.id ∉ s.groupsReaching ids) {n : Node} (hn : n ∈ s.nodes.rows) (hid : n.id ∈ ids) :
    ¬reaches g n = true := by
  intro hreaches
  refine h (List.mem_map.2 ⟨g, List.mem_filter.2 ⟨hg, List.any_eq_true.2 ⟨n, ?_, hreaches⟩⟩, rfl⟩)
  exact List.mem_filter.2 ⟨hn, by simpa using hid⟩

theorem valid_dropNodes (h : s.Valid) (gone : Node → Bool) : (s.dropNodes gone).Valid :=
  { h with
    nodes := h.nodes.retain _
    groups := h.groups.map fun _ => rfl
    names := fun a ha b hb hab => by
      obtain ⟨g, hg, rfl⟩ := Table.mem_map.1 ha
      obtain ⟨g', hg', rfl⟩ := Table.mem_map.1 hb
      exact h.names g hg g' hg' hab
    attached := fun a ha id hid => by
      obtain ⟨g, hg, rfl⟩ := Table.mem_map.1 ha
      obtain ⟨hid, hkept⟩ := List.mem_filter.1 hid
      obtain ⟨n, hn, rfl⟩ := h.attached g hg id hid
      refine ⟨n, Table.mem_retain.2 ⟨hn, ?_⟩, rfl⟩
      by_contra hgone
      refine absurd hkept ?_
      simp only [Bool.not_eq_true', Bool.not_eq_false, List.contains_iff_mem]
      exact List.mem_map.2 ⟨n, List.mem_filter.2 ⟨hn, by simpa using hgone⟩, rfl⟩
    subscribed := fun a ha => by
      obtain ⟨g, hg, rfl⟩ := Table.mem_map.1 ha
      exact h.subscribed g hg
    owned := fun n hn => h.owned n (Table.mem_retain.1 hn).1 }

/-- **A group that reaches none of the nodes that go** stays, and reaches what it reached. -/
theorem reached_dropNodes (gone : Node → Bool) {g : Group}
    (hkept : ∀ n ∈ s.nodes.rows, gone n = true → ¬reaches g n = true) :
    (g.nodes.filter fun id => !((s.nodes.rows.filter gone).map (·.id)).contains id) = g.nodes ∧
      (s.dropNodes gone).reached g = s.reached g := by
  constructor
  · refine List.filter_eq_self.2 fun id hid => ?_
    simp only [Bool.not_eq_true', ← Bool.not_eq_true, List.contains_iff_mem]
    intro hmem
    obtain ⟨n, hn, rfl⟩ := List.mem_map.1 hmem
    obtain ⟨hn, hgone⟩ := List.mem_filter.1 hn
    exact hkept n hn hgone (reaches_iff.2 (.inl hid))
  · refine reached_congr ?_
    rw [dropNodes, Table.retain, List.filter_filter]
    refine List.filter_congr fun n hn => ?_
    by_cases hreaches : reaches g n = true
    · have := mt (hkept n hn) (not_not.2 hreaches)
      simpa [hreaches] using this
    · simp [hreaches]

/-! ## Tags -/

/-- A store in which a node has got a tag. -/
def tagged (s : Store) (id : Id) (tag : String) : Store :=
  { s with nodes := s.nodes.modify id fun n => { n with tag := some tag } }

/-- A node, with the tag if it is the given one. -/
def retag (id : Id) (tag : String) (n : Node) : Node :=
  if n.id == id then { n with tag := some tag } else n

theorem nodes_tagged (id : Id) (tag : String) :
    (s.tagged id tag).nodes.rows = s.nodes.rows.map (retag id tag) := rfl

theorem reaches_retag {id : Id} {tag : String} {g : Group} {n : Node} :
    reaches g (retag id tag n) = reaches g n := by
  rw [retag]
  split <;> rfl

theorem Valid.tagged (h : s.Valid) (id : Id) (tag : String) : (s.tagged id tag).Valid :=
  { h with
    nodes := h.nodes.modify fun _ => rfl
    attached := fun g hg n hn => by
      obtain ⟨row, hrow, hid⟩ := h.attached g hg n hn
      refine ⟨_, Table.mem_map.2 ⟨row, hrow, rfl⟩, ?_⟩
      split <;> exact hid
    owned := fun n hn owner howner => by
      obtain ⟨row, hrow, ⟨-, rfl⟩ | ⟨-, rfl⟩⟩ := Table.mem_modify hn
      · exact h.owned row hrow owner howner
      · exact h.owned _ hrow owner howner }

/-- A group that does not reach the node reaches what it reached. -/
theorem reached_tagged {id : Id} {tag : String} {g : Group} (hg : g ∈ s.groups.rows)
    (htouched : g.id ∉ (s.tagged id tag).groupsReaching [id]) :
    (s.tagged id tag).reached g = s.reached g := by
  -- a tag changes neither what identifies a node nor whose it is
  have hkept : ∀ n ∈ s.nodes.rows, n.id = id → ¬reaches g n = true := by
    intro n hn hid hreaches
    have hn' : { n with tag := some tag } ∈ (s.tagged id tag).nodes.rows :=
      Table.mem_map.2 ⟨n, hn, by simp [Row.id, hid]⟩
    exact not_reaches_of_notMem (s := s.tagged id tag) hg htouched hn' (by simp [hid]) hreaches
  refine reached_congr ?_
  have hreaches : reaches g ∘ retag id tag = reaches g := funext fun _ => reaches_retag
  rw [nodes_tagged, List.filter_map, hreaches]
  refine (List.map_congr_left fun n hn => ?_).trans (List.map_id _)
  obtain ⟨hn, hreach⟩ := List.mem_filter.1 hn
  have hid : n.id ≠ id := fun hid => hkept n hn hid hreach
  simp [retag, hid]

end Store

namespace Transaction
open Store

variable {id : Id} {s : Store}

theorem leaves_node (id : Id) {P : Store → Prop} (hs : P s) : (node id).Leaves s P :=
  Leaves.bind (leaves_get.2 hs) (ensures_get.2 (leaves_require.2 hs))

/-- The first node that has the tag, if there is one, is the owner. -/
theorem ensures_freeNodeTag (tag : String) (owner : Option Id) :
    (freeNodeTag tag owner).Ensures s fun _ s' => s' = s ∧
      ∀ n, s.nodes.rows.find? (fun n => n.tag == some tag) = some n → some n.id = owner := by
  simp only [freeNodeTag, ensures_bind, ensures_get]
  cases s.nodes.rows.find? fun n => n.tag == some tag with
  | none => simp
  | some n => simp

theorem leaves_freeNodeTag (tag : String) (owner : Option Id) {P : Store → Prop} (hs : P s) :
    (freeNodeTag tag owner).Leaves s P := by
  refine Leaves.bind (leaves_get.2 hs) (ensures_get.2 ?_)
  split
  · split <;> exact hs
  · exact hs

/-- **What an import does**: nothing, or it takes the node, which has passed every check. -/
theorem importNode_takes (new : NewNode) (owner : Option Id) :
    (importNode new owner).Leaves s fun s' => s' = s ∨ ∃ endpoint, Takes new owner endpoint s s' := by
  have hrefl : s = s ∨ ∃ endpoint, Takes new owner endpoint s s := .inl rfl
  unfold importNode
  extract_lets rest
  have hrest (htag : ∀ tag, new.tag = some tag →
      checkIdentifier .tag tag = .ok () ∧ ∀ n ∈ s.nodes.rows, n.tag ≠ some tag) :
      ∀ u, (rest u).Leaves s fun s' => s' = s ∨ ∃ endpoint, Takes new owner endpoint s s' := by
    intro _
    refine Leaves.bind (leaves_check.2 hrefl) (ensures_check.2 fun endpoint hendpoint => ?_)
    refine Leaves.bind (leaves_get.2 hrefl) (ensures_get.2 ?_)
    extract_lets push known
    refine leaves_ite.2 ⟨fun _ => hrefl, fun hlink => ?_⟩
    -- the node of an owner is imported only if the owner is there
    have hpush (hthere : ∀ id, owner = some id → ∃ row ∈ s.subscriptions.rows, row.id = id) :
        ∀ u, (push u).Leaves s fun s' => s' = s ∨ ∃ endpoint, Takes new owner endpoint s s' := by
      intro _
      have hnew : ∀ n ∈ s.nodes.rows, n.link = new.link → n.subscription ≠ owner := by
        simpa using hlink
      have htakes : Takes new owner endpoint s _ := ⟨htag, hendpoint, hnew, hthere, rfl⟩
      refine Leaves.bind (leaves_set.2 (.inr ⟨endpoint, htakes⟩)) (ensures_set.2 ?_)
      exact leaves_node _ (.inr ⟨endpoint, htakes⟩)
    simp only [known]
    split
    · refine leaves_ite.2 ⟨fun _ => hrefl, fun hfound => hpush ?_ ()⟩
      rintro _ ⟨⟩
      obtain ⟨row, hrow⟩ := Option.ne_none_iff_exists'.1 (by simpa using hfound)
      exact ⟨row, Table.mem_of_find? hrow⟩
    · next hnone => exact hpush (fun id hid => absurd hid (hnone id)) ()
  split
  · next tag heq =>
    refine Leaves.bind (leaves_check.2 hrefl) (ensures_check.2 fun _ hidentifier => ?_)
    refine Leaves.bind (leaves_freeNodeTag tag none hrefl) ((ensures_freeNodeTag tag none).mono ?_)
    rintro _ _ ⟨rfl, hfree⟩
    refine hrest (fun tag' htag' => ?_) ()
    obtain rfl := Option.some.inj (heq.symm.trans htag')
    refine ⟨hidentifier, fun n hn htag => ?_⟩
    exact Table.not_of_find? hfree n hn (by simpa using htag)
  · next hnone => exact hrest (fun tag htag => absurd htag (hnone tag)) ()

/-- An import leaves new nodes of its owner behind, or nothing. -/
theorem importNode_leaves (h : s.Valid) (new : NewNode) (owner : Option Id) :
    (importNode new owner).Leaves s (Imports owner s) := by
  obtain heq | ⟨endpoint, htakes⟩ := importNode_takes (s := s) new owner
  · rw [Leaves, heq]
    exact Imports.refl h owner
  · rw [Leaves, htakes.store]
    exact imports_push h _ rfl rfl htakes.there

/-- What every import keeps, whether or not it succeeds, is kept by any number of them. -/
theorem importNodes_keeps {P : Store → Prop} {owner : Option Id} {abort : Bool}
    (hP : ∀ new s, P s → (importNode new owner).Leaves s P) (news : List NewNode) (hs : P s) :
    (importNodes owner abort news).Ensures s fun _ s' => P s' := by
  induction news generalizing s with
  | nil => exact ensures_pure.2 hs
  | cons new rest ih =>
    simp only [importNodes, ensures_bind, ensures_caught]
    have hrest := ih (hP new s hs)
    split
    · refine ensures_ite.2 ⟨fun _ => ?_, fun _ => ?_⟩
      · simp only [ensures_bind, ensures_throw]
      · exact ensures_bind.2 (hrest.mono fun _ _ hs' => ensures_pure.2 hs')
    · exact ensures_bind.2 (hrest.mono fun _ _ hs' => ensures_pure.2 hs')

theorem importNodes_ensures (h : s.Valid) (owner : Option Id) (abort : Bool) (news : List NewNode) :
    (importNodes owner abort news).Ensures s fun _ s' => Imports owner s s' :=
  importNodes_keeps (fun new _ hi => hi.trans (importNode_leaves hi.valid new owner)) news
    (Imports.refl h owner)

/-- Nodes without an owner are edits that no group notices. -/
theorem importNodes_does (abort : Bool) (news : List NewNode) :
    (importNodes none abort news).Does (Edits KeepsGroups) := by
  intro s h
  refine (importNodes_ensures h none abort news).mono fun _ s' hi => ?_
  exact edits_of_eq hi.valid (hi.keepsGroups h fun _ _ _ _ => nofun) hi.sections hi.running

theorem removeNodes_does (ids : List Id) : (removeNodes ids).Does (Edits MovesGroups) := by
  intro s h
  simp only [removeNodes, ensures_bind, ensures_get, ensures_set, ensures_bump, ensures_pure]
  refine edits_of_eq ((valid_dropNodes h _).bumped _) ?_ rfl rfl
  refine movesGroups_of_bump rfl (fun _ => ⟨rfl, rfl⟩) fun g hg htouched => ?_
  obtain ⟨hnodes, hreached⟩ := reached_dropNodes (fun n => ids.contains n.id) fun n hn hgone =>
    not_reaches_of_notMem hg htouched hn (by simpa using hgone)
  exact ⟨by rw [hnodes], hreached⟩

theorem tagNode_does (tag : String) : (tagNode id tag).Does (Edits MovesGroups) := by
  intro s h
  simp only [tagNode, ensures_bind, ensures_check]
  intro _ _
  refine (ensures_freeNodeTag tag _).mono ?_
  rintro _ _ ⟨rfl, -⟩
  simp only [ensures_node, ensures_ite, ensures_pure, ensures_bind, ensures_modify, ensures_get,
    ensures_bump]
  intro row _
  refine ⟨fun _ => edits_of_eq h (KeepsGroups.refl _).moves rfl rfl, fun _ _ _ => ?_⟩
  refine edits_of_eq ((h.tagged id tag).bumped _) ?_ rfl rfl
  exact movesGroups_of_bump (f := fun g => g) (by simp [Table.map]) (fun _ => ⟨rfl, rfl⟩)
    fun g hg htouched => ⟨rfl, reached_tagged hg htouched⟩

end Transaction
end ProxyPlane
