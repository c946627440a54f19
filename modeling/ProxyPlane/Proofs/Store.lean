import Mathlib.Data.List.Basic
import ProxyPlane.Proofs.Table
import ProxyPlane.Proofs.Transaction
import ProxyPlane.Store.Group

/-!
# What transactions keep and what they move

Rows are told apart by identifiers that are never issued again, and what a row compiles to changes
only together with its version.  For a section that is its body; for a group it is the row with the
nodes that the group reaches, which depend on the nodes and the subscriptions as much as on the
group.

## What is here

* `Store.Valid` — the invariant: tables in order, group names unique, associations to rows that
  exist.
* `Store.KeepsGroups`, `Store.MovesGroups` — groups that were there are as they were, or have moved
  by exactly one version.
* `Store.Advances` — over any number of transactions: whatever has changed has a greater version.
* `Store.Changes`, `Store.Edits` — what one transaction does, and what one does that concerns
  neither the selection nor the record of what runs.
* `Store.bumped` — a store in which some groups have moved; `movesGroups_of_bump` — that it is
  enough to bump the groups that are touched.
* `Store.reached_congr` — the nodes that a group reaches depend only on the rows that it reaches.
-/

set_option autoImplicit false
namespace ProxyPlane
namespace Store

/-! ## The invariant -/

/-- What holds of every store that transactions leave behind. -/
structure Valid (s : Store) : Prop where
  sections : ∀ kind, (s.sections.get kind).Ordered
  kinds : ∀ kind, ∀ row ∈ s.sectionsOf kind, row.kind = kind
  nodes : s.nodes.Ordered
  subscriptions : s.subscriptions.Ordered
  groups : s.groups.Ordered
  names : ∀ g ∈ s.groups.rows, ∀ g' ∈ s.groups.rows, g.name = g'.name → g.id = g'.id
  attached : ∀ g ∈ s.groups.rows, ∀ id ∈ g.nodes, ∃ n ∈ s.nodes.rows, n.id = id
  subscribed : ∀ g ∈ s.groups.rows, ∀ id ∈ g.subscriptions,
    ∃ row ∈ s.subscriptions.rows, row.id = id
  owned : ∀ n ∈ s.nodes.rows, ∀ id, n.subscription = some id →
    ∃ row ∈ s.subscriptions.rows, row.id = id

theorem valid_empty : Store.empty.Valid where
  sections kind := by cases kind <;> exact Table.Ordered.empty
  kinds kind row hrow := by cases kind <;> cases hrow
  nodes := Table.Ordered.empty
  subscriptions := Table.Ordered.empty
  groups := Table.Ordered.empty
  names g hg := by cases hg
  attached g hg := by cases hg
  subscribed g hg := by cases hg
  owned n hn := by cases hn

namespace Valid
variable {s : Store}

theorem group_eq (h : s.Valid) {g g' : Group} (hg : g ∈ s.groups.rows) (hg' : g' ∈ s.groups.rows)
    (hid : g.id = g'.id) : g = g' :=
  h.groups.eq_of_id hg hg' hid

theorem group_le (h : s.Valid) {g : Group} (hg : g ∈ s.groups.rows) : g.id ≤ s.groups.issued :=
  h.groups.issued g hg

theorem section_eq (h : s.Valid) {kind : SectionKind} {row row' : Section}
    (hrow : row ∈ s.sectionsOf kind) (hrow' : row' ∈ s.sectionsOf kind) (hid : row.id = row'.id) :
    row = row' :=
  (h.sections kind).eq_of_id hrow hrow' hid

/-- A node that is attached to a group was issued. -/
theorem attached_le (h : s.Valid) {g : Group} (hg : g ∈ s.groups.rows) {id : Id}
    (hid : id ∈ g.nodes) : id ≤ s.nodes.issued := by
  obtain ⟨n, hn, rfl⟩ := h.attached g hg id hid
  exact h.nodes.issued n hn

/-- A subscription that is attached to a group was issued. -/
theorem subscribed_le (h : s.Valid) {g : Group} (hg : g ∈ s.groups.rows) {id : Id}
    (hid : id ∈ g.subscriptions) : id ≤ s.subscriptions.issued := by
  obtain ⟨row, hrow, rfl⟩ := h.subscribed g hg id hid
  exact h.subscriptions.issued row hrow

end Valid

/-! ## What a group reaches -/

theorem reaches_iff {g : Group} {n : Node} :
    reaches g n = true ↔ n.id ∈ g.nodes ∨ ∃ id ∈ g.subscriptions, n.subscription = some id := by
  simp [reaches, Option.any_eq_true, and_comm]

/-- **What a group reaches depends only on the rows that it reaches.** -/
theorem reached_congr {s s' : Store} {g : Group}
    (h : s'.nodes.rows.filter (reaches g) = s.nodes.rows.filter (reaches g)) :
    s'.reached g = s.reached g := by
  have howned : ∀ s : Store, ∀ id ∈ g.subscriptions,
      s.nodesOf id = (s.nodes.rows.filter (reaches g)).filter fun n =>
      n.subscription == some id := by
    intro s id hid
    rw [List.filter_filter, nodesOf]
    refine List.filter_congr fun n _ => ?_
    by_cases hn : n.subscription = some id
    · simp [hn, reaches_iff.2 (.inr ⟨id, hid, hn⟩)]
    · simp [hn]
  have hdirect : ∀ s : Store, ∀ id ∈ g.nodes,
      s.nodes.find? id = (s.nodes.rows.filter (reaches g)).find? fun n => n.id == id := by
    intro s id hid
    rw [List.find?_filter, Table.find?]
    congr 1
    funext n
    by_cases hn : n.id = id
    · simp [Row.id, hn, reaches_iff.2 (.inl (hn ▸ hid))]
    · simp [Row.id, hn]
  rw [reached]
  congr 1
  · refine List.flatMap_congr fun id hid => ?_
    rw [howned s' id hid, howned s id hid, h]
  · refine List.filterMap_congr fun id hid => ?_
    rw [hdirect s' id hid, hdirect s id hid, h]

/-! ## What one transaction does -/

/-- Every group that was there before is as it was. -/
structure KeepsGroups (s s' : Store) : Prop where
  issued : s.groups.issued ≤ s'.groups.issued
  kept : ∀ g ∈ s'.groups.rows, g.id ≤ s.groups.issued → g ∈ s.groups.rows ∧
    s'.reached g = s.reached g

/-- Every group that was there before is as it was, or has moved by one version. -/
structure MovesGroups (s s' : Store) : Prop where
  issued : s.groups.issued ≤ s'.groups.issued
  moved : ∀ g' ∈ s'.groups.rows, g'.id ≤ s.groups.issued → ∃ g ∈ s.groups.rows, g.id = g'.id ∧
    (g'.version = g.version + 1 ∨ (g' = g ∧ s'.reached g = s.reached g))

/-- Every section that was there before has its body, or a greater version. -/
structure MovesSections (s s' : Store) : Prop where
  issued : ∀ kind, (s.sections.get kind).issued ≤ (s'.sections.get kind).issued
  moved : ∀ kind, ∀ row' ∈ s'.sectionsOf kind, row'.id ≤ (s.sections.get kind).issued →
    ∃ row ∈ s.sectionsOf kind, row.id = row'.id ∧
      (row.version < row'.version ∨ (row'.version = row.version ∧ row'.body = row.body))

variable {s s' s'' : Store}

theorem KeepsGroups.refl (s : Store) : s.KeepsGroups s := ⟨Int.le_refl _, fun _ hg _ => ⟨hg, rfl⟩⟩

theorem KeepsGroups.trans (h : s.KeepsGroups s') (h' : s'.KeepsGroups s'') : s.KeepsGroups s'' := by
  refine ⟨Int.le_trans h.issued h'.issued, fun g hg hle => ?_⟩
  obtain ⟨hg', hreached'⟩ := h'.kept g hg (Int.le_trans hle h.issued)
  obtain ⟨hg'', hreached⟩ := h.kept g hg' hle
  exact ⟨hg'', hreached'.trans hreached⟩

theorem KeepsGroups.moves (h : s.KeepsGroups s') : s.MovesGroups s' := by
  refine ⟨h.issued, fun g hg hle => ?_⟩
  obtain ⟨hold, hreached⟩ := h.kept g hg hle
  exact ⟨g, hold, rfl, .inr ⟨rfl, hreached⟩⟩

theorem KeepsGroups.then_moves (h : s.KeepsGroups s') (h' : s'.MovesGroups s'') :
    s.MovesGroups s'' := by
  refine ⟨Int.le_trans h.issued h'.issued, fun g'' hg'' hle => ?_⟩
  obtain ⟨g', hg', hid, hmoved⟩ := h'.moved g'' hg'' (Int.le_trans hle h.issued)
  obtain ⟨hg, hreached⟩ := h.kept g' hg' (hid ▸ hle)
  refine ⟨g', hg, hid, hmoved.imp_right fun ⟨heq, hsame⟩ => ⟨heq, hsame.trans hreached⟩⟩

theorem MovesGroups.then_keeps (h : s.MovesGroups s') (h' : s'.KeepsGroups s'') :
    s.MovesGroups s'' := by
  refine ⟨Int.le_trans h.issued h'.issued, fun g hg hle => ?_⟩
  obtain ⟨hg', hreached⟩ := h'.kept g hg (Int.le_trans hle h.issued)
  obtain ⟨old, hold, hid, hmoved⟩ := h.moved g hg' hle
  refine ⟨old, hold, hid, hmoved.imp_right fun ⟨heq, hsame⟩ => ⟨heq, ?_⟩⟩
  rw [← heq] at hsame ⊢
  exact hreached.trans hsame

/-- Groups and nodes that are not touched are kept. -/
theorem keepsGroups_of_eq (hgroups : s'.groups = s.groups) (hnodes : s'.nodes = s.nodes) :
    s.KeepsGroups s' := by
  refine ⟨Int.le_of_eq (by rw [hgroups]), fun g hg _ => ⟨hgroups ▸ hg, reached_congr ?_⟩⟩
  rw [hnodes]

/-- A change of all groups moves them, if each of them either moves by one version or stays and
reaches what it reached. -/
theorem movesGroups_of_map {f : Group → Group} (hgroups : s'.groups = s.groups.map f)
    (hf : ∀ g ∈ s.groups.rows, (f g).id = g.id ∧
      ((f g).version = g.version + 1 ∨ (f g = g ∧ s'.reached g = s.reached g))) :
    s.MovesGroups s' := by
  refine ⟨Int.le_of_eq (by rw [hgroups]; rfl), fun g' hg' _ => ?_⟩
  rw [hgroups] at hg'
  obtain ⟨g, hg, rfl⟩ := Table.mem_map.1 hg'
  exact ⟨g, hg, (hf g hg).1.symm, (hf g hg).2⟩

theorem movesSections_of_eq (h : s'.sections = s.sections) : s.MovesSections s' := by
  refine ⟨fun kind => Int.le_of_eq (by rw [h]), fun kind row hrow _ => ?_⟩
  rw [sectionsOf, h] at hrow
  exact ⟨row, hrow, rfl, .inr ⟨rfl, rfl⟩⟩

theorem MovesSections.trans (h : s.MovesSections s') (h' : s'.MovesSections s'') :
    s.MovesSections s'' := by
  refine ⟨fun kind => Int.le_trans (h.issued kind) (h'.issued kind),
    fun kind row'' hrow'' hle => ?_⟩
  obtain ⟨row', hrow', hid', hmoved'⟩ := h'.moved kind row'' hrow''
    (Int.le_trans hle (h.issued kind))
  obtain ⟨row, hrow, hid, hmoved⟩ := h.moved kind row' hrow' (hid' ▸ hle)
  refine ⟨row, hrow, hid.trans hid', ?_⟩
  grind

/-! ## What any number of transactions do -/

/-- Over any number of transactions: whatever has changed in what a row compiles to has a greater
version, and identifiers are not issued again. -/
structure Advances (s s' : Store) : Prop where
  sections : s.MovesSections s'
  issued : s.groups.issued ≤ s'.groups.issued
  groups : ∀ g' ∈ s'.groups.rows, g'.id ≤ s.groups.issued → ∃ g ∈ s.groups.rows, g.id = g'.id ∧
    (g.version < g'.version ∨ (g' = g ∧ s'.reached g = s.reached g))

theorem Advances.refl (s : Store) : s.Advances s :=
  ⟨movesSections_of_eq rfl, Int.le_refl _, fun g hg _ => ⟨g, hg, rfl, .inr ⟨rfl, rfl⟩⟩⟩

theorem Advances.trans (h : s.Advances s') (h' : s'.Advances s'') : s.Advances s'' := by
  refine ⟨h.sections.trans h'.sections, Int.le_trans h.issued h'.issued, fun g'' hg'' hle => ?_⟩
  obtain ⟨g', hg', hid', hmoved'⟩ := h'.groups g'' hg'' (Int.le_trans hle h.issued)
  obtain ⟨g, hg, hid, hmoved⟩ := h.groups g' hg' (hid' ▸ hle)
  refine ⟨g, hg, hid.trans hid', ?_⟩
  rcases hmoved' with hlt' | ⟨rfl, hreached'⟩
  · rcases hmoved with hlt | ⟨rfl, -⟩
    · exact .inl (Int.lt_trans hlt hlt')
    · exact .inl hlt'
  · rcases hmoved with hlt | ⟨rfl, hreached⟩
    · exact .inl hlt
    · exact .inr ⟨rfl, hreached'.trans hreached⟩

/-- What one transaction does: the invariant stays, groups change within `G`, and sections move. -/
structure Changes (G : Store → Store → Prop) (s s' : Store) : Prop where
  valid : s'.Valid
  groups : G s s'
  sections : s.MovesSections s'

theorem Changes.advances (h : Changes MovesGroups s s') : s.Advances s' := by
  refine ⟨h.sections, h.groups.issued, fun g' hg' hle => ?_⟩
  obtain ⟨g, hg, hid, hmoved⟩ := h.groups.moved g' hg' hle
  refine ⟨g, hg, hid, hmoved.imp_left fun hv => ?_⟩
  rw [hv]
  exact Int.lt_succ _

theorem Changes.loosen (h : Changes KeepsGroups s s') : Changes MovesGroups s s' :=
  ⟨h.valid, h.groups.moves, h.sections⟩

/-- What one transaction does that concerns neither the selection nor the record of what runs: no
section is gone, none is selected or unselected, what is new is not selected, and the record stays.
-/
structure Edits (G : Store → Store → Prop) (s s' : Store) : Prop extends Changes G s s' where
  running : s'.running = s.running
  kept : ∀ kind, ∀ row ∈ s.sectionsOf kind, ∃ row' ∈ s'.sectionsOf kind,
    row'.id = row.id ∧ row'.selected = row.selected
  chosen : ∀ kind, ∀ row' ∈ s'.sectionsOf kind, row'.selected = true → ∃ row ∈ s.sectionsOf kind,
    row.id = row'.id ∧ row.selected = true

theorem Edits.loosen (h : Edits KeepsGroups s s') : Edits MovesGroups s s' :=
  { h with toChanges := h.toChanges.loosen }

/-- Of two edits, the second moves no group: together they are an edit like the first. -/
theorem Edits.trans {G : Store → Store → Prop} (h : Edits G s s') (h' : Edits KeepsGroups s' s'')
    (hG : G s s' → s'.KeepsGroups s'' → G s s'') : Edits G s s'' where
  valid := h'.valid
  groups := hG h.groups h'.groups
  sections := h.sections.trans h'.sections
  running := h'.running.trans h.running
  kept kind row hrow := by
    obtain ⟨row', hrow', hid, hselected⟩ := h.kept kind row hrow
    obtain ⟨row'', hrow'', hid', hselected'⟩ := h'.kept kind row' hrow'
    exact ⟨row'', hrow'', hid'.trans hid, hselected'.trans hselected⟩
  chosen kind row'' hrow'' hselected := by
    obtain ⟨row', hrow', hid', hselected'⟩ := h'.chosen kind row'' hrow'' hselected
    obtain ⟨row, hrow, hid, hselected''⟩ := h.chosen kind row' hrow' hselected'
    exact ⟨row, hrow, hid.trans hid', hselected''⟩

/-- A transaction that touches neither sections nor the record is an edit. -/
theorem edits_of_eq {G : Store → Store → Prop} (hvalid : s'.Valid) (hgroups : G s s')
    (hsections : s'.sections = s.sections) (hrunning : s'.running = s.running) : Edits G s s' where
  valid := hvalid
  groups := hgroups
  sections := movesSections_of_eq hsections
  running := hrunning
  kept kind row hrow := ⟨row, by rw [sectionsOf, hsections]; exact hrow, rfl, rfl⟩
  chosen kind row hrow hselected :=
    ⟨row, by rw [sectionsOf, hsections] at hrow; exact hrow, rfl, hselected⟩

/-! ## Moving versions -/

/-- A group that is moved if it is among the given ones. -/
def bumpIn (ids : List Id) (g : Group) : Group :=
  if ids.contains g.id then { g with version := g.version + 1 } else g

/-- A store in which the given groups have moved by one version. -/
def bumped (s : Store) (ids : List Id) : Store := { s with groups := s.groups.map (bumpIn ids) }

@[simp] theorem bumpIn_id (ids : List Id) (g : Group) : (bumpIn ids g).id = g.id := by
  rw [bumpIn]; split <;> rfl

@[simp] theorem bumpIn_name (ids : List Id) (g : Group) : (bumpIn ids g).name = g.name := by
  rw [bumpIn]; split <;> rfl

@[simp] theorem bumpIn_nodes (ids : List Id) (g : Group) : (bumpIn ids g).nodes = g.nodes := by
  rw [bumpIn]; split <;> rfl

@[simp] theorem bumpIn_subscriptions (ids : List Id) (g : Group) :
    (bumpIn ids g).subscriptions = g.subscriptions := by
  rw [bumpIn]; split <;> rfl

theorem bumpIn_of_mem {ids : List Id} {g : Group} (h : g.id ∈ ids) :
    (bumpIn ids g).version = g.version + 1 := by
  simp [bumpIn, h]

theorem bumpIn_of_notMem {ids : List Id} {g : Group} (h : g.id ∉ ids) : bumpIn ids g = g := by
  simp [bumpIn, h]

theorem Valid.bumped (h : s.Valid) (ids : List Id) : (s.bumped ids).Valid :=
  { h with
    groups := h.groups.map (bumpIn_id ids)
    names := fun a ha b hb hab => by
      obtain ⟨g, hg, rfl⟩ := Table.mem_map.1 ha
      obtain ⟨g', hg', rfl⟩ := Table.mem_map.1 hb
      simpa using h.names g hg g' hg' (by simpa using hab)
    attached := fun a ha n hn => by
      obtain ⟨g, hg, rfl⟩ := Table.mem_map.1 ha
      exact h.attached g hg n (by simpa using hn)
    subscribed := fun a ha n hn => by
      obtain ⟨g, hg, rfl⟩ := Table.mem_map.1 ha
      exact h.subscribed g hg n (by simpa using hn) }

/-- Groups are moved by a bump of those that are touched, if the others are kept until then. -/
theorem movesGroups_of_bump {f : Group → Group} {touched : List Id}
    (hgroups : s'.groups = s.groups.map f) (hf : ∀ g, (f g).id = g.id ∧ (f g).version = g.version)
    (hkept : ∀ g ∈ s.groups.rows, g.id ∉ touched → f g = g ∧ s'.reached g = s.reached g) :
    s.MovesGroups (s'.bumped touched) := by
  refine movesGroups_of_map (f := fun g => bumpIn touched (f g)) ?_ fun g hg => ⟨?_, ?_⟩
  · simp [Store.bumped, hgroups, Table.map]
  · simp [(hf g).1]
  · by_cases htouched : g.id ∈ touched
    · exact .inl ((bumpIn_of_mem (by rwa [(hf g).1])).trans (by rw [(hf g).2]))
    · obtain ⟨hsame, hreached⟩ := hkept g hg htouched
      exact .inr ⟨by rw [hsame, bumpIn_of_notMem htouched], hreached⟩

end Store

namespace Transaction

variable {s : Store} {id : Id}

@[simp] theorem ensures_bump {ids : List Id} {P : Unit → Store → Prop} :
    (bump ids).Ensures s P ↔ P () (s.bumped ids) :=
  ensures_modify

@[simp] theorem ensures_group {P : Group → Store → Prop} :
    (group id).Ensures s P ↔ ∀ g, s.groups.find? id = some g → P g s := by
  simp [group]

@[simp] theorem ensures_node {P : Node → Store → Prop} :
    (node id).Ensures s P ↔ ∀ n, s.nodes.find? id = some n → P n s := by
  simp [node]

@[simp] theorem ensures_subscription {P : Subscription → Store → Prop} :
    (subscription id).Ensures s P ↔ ∀ row, s.subscriptions.find? id = some row → P row s := by
  simp [subscription]

/-- From every valid store, a transaction that succeeds changes the store within `R`. -/
def Does {α : Type} (t : Transaction α) (R : Store → Store → Prop) : Prop :=
  ∀ s : Store, s.Valid → t.Ensures s fun _ s' => R s s'

end Transaction
end ProxyPlane
