import ProxyPlane.Control.Run
import ProxyPlane.Proofs.Resolution
import ProxyPlane.Proofs.Store

/-!
# What a compile has read

A snapshot is compiled from rows of the store, and while the engine is being built the rows may
change. What can still be said of them is that a row either is what was read or has a greater
version; that survives everything that transactions do.

## What is here

* `Store.RecallsSection`, `Store.RecallsGroup` — a row that was read earlier, as a later store knows
  it.
* `Store.SectionMoved`, `Store.GroupMoved` — it is gone or has a greater version.
* `Prepared.CompiledFrom`, `Prepared.Recalled q s` — what `q` was compiled from, and that `s`
  recalls it.
* `Store.recalled_prepare` — a compile has read what it has read.
-/

set_option autoImplicit false
namespace ProxyPlane

open Config

namespace Store

variable {s s' : Store} {kind : SectionKind}

/-! ## Sections -/

/-- A section of a kind that was read earlier: if it is still there, it has the body that it had, or
a greater version. -/
structure RecallsSection (s : Store) (kind : SectionKind) (row : Section) : Prop where
  issued : row.id ≤ (s.sections.get kind).issued
  recalled : ∀ row' ∈ s.sectionsOf kind, row'.id = row.id →
    row.version < row'.version ∨ (row'.version = row.version ∧ row'.body = row.body)

/-- A section that was read earlier is gone or has a greater version. -/
structure SectionMoved (s : Store) (kind : SectionKind) (row : Section) : Prop where
  issued : row.id ≤ (s.sections.get kind).issued
  moved : ∀ row' ∈ s.sectionsOf kind, row'.id = row.id → row.version < row'.version

theorem recallsSection_self (h : s.Valid) {row : Section} (hrow : row ∈ s.sectionsOf kind) :
    s.RecallsSection kind row := by
  refine ⟨(h.sections kind).issued row hrow, fun row' hrow' hid => .inr ?_⟩
  rw [h.section_eq hrow' hrow hid]
  exact ⟨rfl, rfl⟩

theorem RecallsSection.advance {row : Section} (h : s.RecallsSection kind row)
    (ha : s.Advances s') : s'.RecallsSection kind row := by
  refine ⟨Int.le_trans h.issued (ha.sections.issued kind), fun row'' hrow'' hid => ?_⟩
  obtain ⟨row', hrow', hid', hmoved⟩ := ha.sections.moved kind row'' hrow'' (hid ▸ h.issued)
  have hold := h.recalled row' hrow' (hid'.trans hid)
  grind

theorem SectionMoved.advance {row : Section} (h : s.SectionMoved kind row) (ha : s.Advances s') :
    s'.SectionMoved kind row := by
  refine ⟨Int.le_trans h.issued (ha.sections.issued kind), fun row'' hrow'' hid => ?_⟩
  obtain ⟨row', hrow', hid', hmoved⟩ := ha.sections.moved kind row'' hrow'' (hid ▸ h.issued)
  have hold := h.moved row' hrow' (hid'.trans hid)
  grind

/-! ## Groups -/

/-- A group that was read earlier with the nodes that it reached: if it is still there, it is what
it was and reaches what it reached, or it has a greater version. -/
structure RecallsGroup (s : Store) (m : GroupMembers) : Prop where
  issued : m.group.id ≤ s.groups.issued
  recalled : ∀ g ∈ s.groups.rows, g.id = m.group.id →
    m.group.version < g.version ∨ (g = m.group ∧ s.reached g = m.nodes)

/-- A group that was read earlier is gone or has a greater version. -/
structure GroupMoved (s : Store) (old : Group) : Prop where
  issued : old.id ≤ s.groups.issued
  moved : ∀ g ∈ s.groups.rows, g.id = old.id → old.version < g.version

theorem recallsGroup_self (h : s.Valid) {g : Group} (hg : g ∈ s.groups.rows) :
    s.RecallsGroup ⟨g, s.reached g⟩ := by
  refine ⟨h.group_le hg, fun g' hg' hid => .inr ?_⟩
  rw [h.group_eq hg' hg hid]
  exact ⟨rfl, rfl⟩

theorem RecallsGroup.advance {m : GroupMembers} (h : s.RecallsGroup m) (ha : s.Advances s') :
    s'.RecallsGroup m := by
  refine ⟨Int.le_trans h.issued ha.issued, fun g' hg' hid' => ?_⟩
  obtain ⟨g, hg, hid, hmoved⟩ := ha.groups g' hg' (hid' ▸ h.issued)
  have hold := h.recalled g hg (hid.trans hid')
  rcases hmoved with hlt | ⟨rfl, hreached⟩
  · grind
  · exact hold.imp_right fun ⟨heq, hnodes⟩ => ⟨heq, hreached.trans hnodes⟩

theorem GroupMoved.advance {old : Group} (h : s.GroupMoved old) (ha : s.Advances s') :
    s'.GroupMoved old := by
  refine ⟨Int.le_trans h.issued ha.issued, fun g' hg' hid' => ?_⟩
  obtain ⟨g, hg, hid, hmoved⟩ := ha.groups g' hg' (hid' ▸ h.issued)
  have hold := h.moved g hg (hid.trans hid')
  grind

/-! ## Compiling -/

theorem selected?_mem {row : Section} (h : s.selected? kind = some row) :
    row ∈ s.sectionsOf kind ∧ row.selected = true :=
  List.mem_filter.1 (List.mem_of_getLast? h)

/-- The groups that have one of some names, with what they reach, by identifier. -/
theorem membersOf_spec (h : s.Valid) (names : List String) :
    (s.membersOf names).Pairwise (fun m m' => m.group.id < m'.group.id) ∧
      ∀ m, m ∈ s.membersOf names ↔
        m.group ∈ s.groups.rows ∧ m.group.name ∈ names ∧ m.nodes = s.reached m.group := by
  constructor
  · refine List.pairwise_map.2 ?_
    exact h.groups.increasing.filter _
  · intro m
    simp only [membersOf, groupsNamed, List.mem_map, List.mem_filter, List.contains_iff_mem]
    constructor
    · rintro ⟨g, ⟨hg, hname⟩, rfl⟩
      exact ⟨hg, hname, rfl⟩
    · rintro ⟨hg, hname, hnodes⟩
      refine ⟨m.group, ⟨hg, hname⟩, ?_⟩
      rw [← hnodes]

end Store

/-! ## Snapshots -/

namespace Prepared

/-- The section of a kind that was compiled. -/
def row (q : Prepared) : SectionKind → Section
  | .config => q.config
  | .dns => q.dns
  | .routing => q.routing

/-- A snapshot was compiled from the texts of its sections and from groups as they were read, in the
order of their identifiers. -/
structure CompiledFrom (q : Prepared) (sections : Sections) (members : List GroupMembers) :
    Prop where
  parsed : Sections.parse q.config.body q.dns.body q.routing.body = .ok sections
  compiled : compile sections q.routing.name members = .ok q.compiled
  sorted : members.Pairwise fun m m' => m.group.id < m'.group.id
  named : ∀ m ∈ members, m.group.name ∈ sections.routing.outbounds

/-- A snapshot was compiled from groups that a store recalls. -/
def GroupsRecalled (q : Prepared) (s : Store) : Prop :=
  ∃ sections members, q.CompiledFrom sections members ∧ ∀ m ∈ members, s.RecallsGroup m

/-- A snapshot was compiled from rows that a store recalls. -/
structure Recalled (q : Prepared) (s : Store) : Prop where
  sections : ∀ kind, s.RecallsSection kind (q.row kind)
  groups : q.GroupsRecalled s

variable {q : Prepared} {s s' : Store}

theorem CompiledFrom.groups_eq {sections : Sections} {members : List GroupMembers}
    (h : q.CompiledFrom sections members) : q.compiled.groups = members.map (·.group) := by
  rw [compile_groups h.compiled, referenced_eq h.sorted h.named]

theorem GroupsRecalled.advance (h : q.GroupsRecalled s) (ha : s.Advances s') :
    q.GroupsRecalled s' := by
  obtain ⟨sections, members, hfrom, hmembers⟩ := h
  exact ⟨sections, members, hfrom, fun m hm => (hmembers m hm).advance ha⟩

theorem Recalled.advance (h : q.Recalled s) (ha : s.Advances s') : q.Recalled s' :=
  ⟨fun kind => (h.sections kind).advance ha, h.groups.advance ha⟩

/-- Every group that was compiled is one that the store recalls. -/
theorem GroupsRecalled.group (h : q.GroupsRecalled s) {g : Group} (hg : g ∈ q.compiled.groups) :
    ∃ nodes, s.RecallsGroup ⟨g, nodes⟩ := by
  obtain ⟨sections, members, hfrom, hmembers⟩ := h
  rw [hfrom.groups_eq] at hg
  obtain ⟨m, hm, rfl⟩ := List.mem_map.1 hg
  exact ⟨m.nodes, hmembers m hm⟩

end Prepared

namespace Store

variable {s : Store} {candidate : Option Section} {q : Prepared}

/-- The section to compile is the candidate or the one that is selected. -/
theorem chosen_eq_ok {kind : SectionKind} {row : Section} (h : s.chosen candidate kind = .ok row) :
    (candidate = some row ∧ row.kind = kind) ∨ s.selected? kind = some row := by
  rw [chosen] at h
  split at h
  · next found hfound =>
    cases h
    exact .inl (by simpa using hfound)
  · split at h
    · next hselected => cases h; exact .inr hselected
    · cases h

/-- **What a compile consists of**: the sections that are chosen, their parts, and the snapshot. -/
theorem prepare_eq_ok_iff : s.prepare candidate = .ok q ↔
    (∀ kind, s.chosen candidate kind = .ok (q.row kind)) ∧ ∃ sections,
      Sections.parse q.config.body q.dns.body q.routing.body = .ok sections ∧
        compile sections q.routing.name (s.membersOf sections.routing.outbounds) =
          .ok q.compiled := by
  simp only [prepare, bind_eq_ok_iff, mapError_eq_ok_iff]
  constructor
  · rintro ⟨config, hconfig, dns, hdns, routing, hrouting, sections, hparsed, _, hcompiled, ⟨⟩⟩
    refine ⟨fun kind => ?_, sections, hparsed, hcompiled⟩
    cases kind with
    | config => exact hconfig
    | dns => exact hdns
    | routing => exact hrouting
  · rintro ⟨hchosen, sections, hparsed, hcompiled⟩
    exact ⟨_, hchosen .config, _, hchosen .dns, _, hchosen .routing, sections, hparsed,
      _, hcompiled, rfl⟩

/-- A compile has read the section that it has found selected. -/
theorem recallsSection_prepare (h : s.Valid) (hq : s.prepare candidate = .ok q) (kind : SectionKind)
    (hcandidate : ∀ row, candidate = some row → row.kind = kind → s.RecallsSection kind row) :
    s.RecallsSection kind (q.row kind) := by
  rcases chosen_eq_ok ((prepare_eq_ok_iff.1 hq).1 kind) with ⟨hrow, hkind⟩ | hselected
  · exact hcandidate _ hrow hkind
  · exact recallsSection_self h (selected?_mem hselected).1

/-- A compile has read the groups that it was compiled from. -/
theorem groupsRecalled_prepare (h : s.Valid) (hq : s.prepare candidate = .ok q) :
    q.GroupsRecalled s := by
  obtain ⟨-, sections, hparsed, hcompiled⟩ := prepare_eq_ok_iff.1 hq
  obtain ⟨hsorted, hmem⟩ := membersOf_spec h sections.routing.outbounds
  refine ⟨sections, s.membersOf sections.routing.outbounds,
    ⟨hparsed, hcompiled, hsorted, fun m hm => ((hmem m).1 hm).2.1⟩, fun m hm => ?_⟩
  obtain ⟨hg, -, hnodes⟩ := (hmem m).1 hm
  have hself := recallsGroup_self h hg
  rwa [← hnodes] at hself

/-- **A compile has read what it has read**: the store that it read recalls all of it. -/
theorem recalled_prepare (h : s.Valid) (hcandidate : ∀ row, candidate = some row →
    s.RecallsSection row.kind row)
    (hq : s.prepare candidate = .ok q) : q.Recalled s :=
  ⟨fun kind => recallsSection_prepare h hq kind fun row hrow hkind => hkind ▸ hcandidate row hrow,
    groupsRecalled_prepare h hq⟩

end Store
end ProxyPlane
