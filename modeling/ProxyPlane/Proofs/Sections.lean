import ProxyPlane.Proofs.Store

/-!
# What the transactions on sections do

Each of them replaces the table of one kind and leaves groups and nodes alone.

## What is here

* `Store.withSections` — a store with the table of one kind replaced, and when that is a change.
* `createSection_does`, `updateSection_does`, `renameSection_does` — edits.
* `selectSection_does`, `removeSection_does` — changes that leave the record of what runs alone.
* `selectSection_succeeds`, `removeSection_succeeds` — they fail only if the section is not there.
-/

set_option autoImplicit false
namespace ProxyPlane

namespace Store

/-- A store with the table of one kind of section replaced. -/
def withSections (s : Store) (kind : SectionKind) (t : Table Section) : Store :=
  { s with sections := s.sections.set kind t }

variable {s : Store} {kind : SectionKind} {t : Table Section}

theorem sections_withSections (kind' : SectionKind) :
    (s.withSections kind t).sections.get kind' = if kind' = kind then t else s.sections.get kind' :=
  PerKind.get_set _ _ _ _

/-- A table that is in order and in which rows move is a change of the store. -/
theorem changes_withSections (h : s.Valid) (hordered : t.Ordered)
    (hkind : ∀ row ∈ t.rows, row.kind = kind) (hissued : (s.sections.get kind).issued ≤ t.issued)
    (hmoved : ∀ row' ∈ t.rows, row'.id ≤ (s.sections.get kind).issued →
      ∃ row ∈ s.sectionsOf kind, row.id = row'.id ∧
        (row.version < row'.version ∨ (row'.version = row.version ∧ row'.body = row.body))) :
    Changes KeepsGroups s (s.withSections kind t) where
  valid :=
    { h with
      sections := fun kind' => by
        rw [sections_withSections]
        split
        · exact hordered
        · exact h.sections kind'
      kinds := fun kind' row hrow => by
        rw [sectionsOf, sections_withSections] at hrow
        split at hrow
        · next heq => rw [heq]; exact hkind row hrow
        · exact h.kinds kind' row hrow }
  groups := keepsGroups_of_eq rfl rfl
  sections :=
    { issued := fun kind' => by
        rw [sections_withSections]
        split
        · next heq => rw [heq]; exact hissued
        · exact Int.le_refl _
      moved := fun kind' row' hrow' hle => by
        rw [sectionsOf, sections_withSections] at hrow'
        split at hrow'
        · next heq => rw [heq] at hle ⊢; exact hmoved row' hrow' hle
        · exact ⟨row', hrow', rfl, .inr ⟨rfl, rfl⟩⟩ }

/-- The same for an edit: every row is still there, selected or not as it was, and no new one is
selected. -/
theorem edits_withSections (h : Changes KeepsGroups s (s.withSections kind t))
    (hkept : ∀ row ∈ s.sectionsOf kind, ∃ row' ∈ t.rows,
      row'.id = row.id ∧ row'.selected = row.selected)
    (hchosen : ∀ row' ∈ t.rows, row'.selected = true → ∃ row ∈ s.sectionsOf kind,
      row.id = row'.id ∧ row.selected = true) :
    Edits KeepsGroups s (s.withSections kind t) where
  toChanges := h
  running := rfl
  kept kind' row hrow := by
    rw [sectionsOf, sections_withSections]
    split
    · next heq => rw [heq] at hrow; exact hkept row hrow
    · exact ⟨row, hrow, rfl, rfl⟩
  chosen kind' row hrow hselected := by
    rw [sectionsOf, sections_withSections] at hrow
    split at hrow
    · next heq => rw [heq]; exact hchosen row hrow hselected
    · exact ⟨row, hrow, rfl, hselected⟩

end Store

namespace Transaction
open Store

variable {kind : SectionKind} {id : Id}

@[simp] theorem ensures_putSections {s : Store} {t : Table Section} {P : Unit → Store → Prop} :
    (putSections kind t).Ensures s P ↔ P () (s.withSections kind t) :=
  ensures_modify

@[simp] theorem ensures_loadSection {s : Store} {P : Section → Store → Prop} :
    (loadSection kind id).Ensures s P ↔
      ∀ row, (s.sections.get kind).find? id = some row → P row s := by
  simp [loadSection]

theorem createSection_does (name body : String) :
    (createSection kind name body).Does (Edits KeepsGroups) := by
  intro s h
  simp only [createSection, ensures_bind, ensures_get, ensures_putSections, ensures_loadSection]
  intro _ _
  refine edits_withSections (changes_withSections h ((h.sections kind).push rfl) ?_ ?_ ?_) ?_ ?_
  · intro row hrow
    rcases Table.mem_push.1 hrow with hrow | rfl
    · exact h.kinds kind row hrow
    · rfl
  · exact Int.le_of_lt (Int.lt_succ _)
  · intro row hrow hle
    rcases Table.mem_push.1 hrow with hrow | rfl
    · exact ⟨row, hrow, rfl, .inr ⟨rfl, rfl⟩⟩
    · exact absurd hle (Int.not_le.2 (Int.lt_succ _))
  · exact fun row hrow => ⟨row, Table.mem_push.2 (.inl hrow), rfl, rfl⟩
  · intro row hrow hselected
    rcases Table.mem_push.1 hrow with hrow | rfl
    · exact ⟨row, hrow, rfl, hselected⟩
    · cases hselected

/-- A change of one row that keeps what identifies it and moves its version with its body is an
edit. -/
theorem editSection_does {f : Section → Section} (hid : ∀ row, (f row).id = row.id)
    (hkind : ∀ row, (f row).kind = row.kind) (hselected : ∀ row, (f row).selected = row.selected)
    (hmoved : ∀ row, row.version < (f row).version ∨
      ((f row).version = row.version ∧ (f row).body = row.body)) :
    (editSection kind id f).Does (Edits KeepsGroups) := by
  intro s h
  simp only [editSection, ensures_bind, ensures_get, ensures_putSections, ensures_loadSection]
  intro _ _
  refine edits_withSections (changes_withSections h ((h.sections kind).modify hid) ?_ ?_ ?_) ?_ ?_
  · intro row hrow
    obtain ⟨old, hold, ⟨-, rfl⟩ | ⟨-, rfl⟩⟩ := Table.mem_modify hrow
    · rw [hkind]; exact h.kinds kind old hold
    · exact h.kinds kind _ hold
  · exact Int.le_refl _
  · intro row hrow _
    obtain ⟨old, hold, ⟨-, rfl⟩ | ⟨-, rfl⟩⟩ := Table.mem_modify hrow
    · exact ⟨old, hold, (hid old).symm, hmoved old⟩
    · exact ⟨_, hold, rfl, .inr ⟨rfl, rfl⟩⟩
  · intro row hrow
    refine ⟨_, Table.mem_map.2 ⟨row, hrow, rfl⟩, ?_⟩
    split
    · exact ⟨hid row, hselected row⟩
    · exact ⟨rfl, rfl⟩
  · intro row hrow htrue
    obtain ⟨old, hold, ⟨-, rfl⟩ | ⟨-, rfl⟩⟩ := Table.mem_modify hrow
    · exact ⟨old, hold, (hid old).symm, (hselected old).symm.trans htrue⟩
    · exact ⟨_, hold, rfl, htrue⟩

theorem updateSection_does (body : String) :
    (updateSection kind id body).Does (Edits KeepsGroups) :=
  editSection_does (fun _ => rfl) (fun _ => rfl) (fun _ => rfl) fun _ => .inl (Int.lt_succ _)

theorem renameSection_does (name : String) :
    (renameSection kind id name).Does (Edits KeepsGroups) :=
  editSection_does (fun _ => rfl) (fun _ => rfl) (fun _ => rfl) fun _ => .inr ⟨rfl, rfl⟩

/-- Selecting a section leaves the record alone and every section where it is. -/
theorem selectSection_does :
    (selectSection kind id).Does fun s s' => Changes KeepsGroups s s' ∧ s'.running = s.running := by
  intro s h
  simp only [selectSection, ensures_bind, ensures_get, ensures_putSections, ensures_loadSection,
    ensures_pure]
  intro _ _
  refine ⟨changes_withSections h ((h.sections kind).map fun _ => rfl) ?_ ?_ ?_, rfl⟩
  · intro row hrow
    obtain ⟨old, hold, rfl⟩ := Table.mem_map.1 hrow
    exact h.kinds kind old hold
  · exact Int.le_refl _
  · intro row hrow _
    obtain ⟨old, hold, rfl⟩ := Table.mem_map.1 hrow
    exact ⟨old, hold, rfl, .inr ⟨rfl, rfl⟩⟩

/-- Removing a section leaves the record alone. -/
theorem removeSection_does :
    (removeSection kind id).Does fun s s' => Changes KeepsGroups s s' ∧ s'.running = s.running := by
  intro s h
  simp only [removeSection, ensures_bind, ensures_get, ensures_putSections, ensures_loadSection,
    ensures_pure]
  intro _ _
  refine ⟨changes_withSections h ((h.sections kind).retain _) ?_ ?_ ?_, rfl⟩
  · exact fun row hrow => h.kinds kind row (Table.mem_retain.1 hrow).1
  · exact Int.le_refl _
  · exact fun row hrow _ => ⟨row, (Table.mem_retain.1 hrow).1, rfl, .inr ⟨rfl, rfl⟩⟩

/-! ## Transactions that are sure to succeed -/

/-- A section that is there can be selected. -/
theorem selectSection_succeeds {s : Store} (h : ∃ row ∈ s.sectionsOf kind, row.id = id) :
    ∃ a s', (selectSection kind id).on s = (.ok a, s') := by
  obtain ⟨row, hrow, rfl⟩ := h
  obtain ⟨row', hfound⟩ := Table.exists_find? hrow
  change (s.sections.get kind).find? row.id = some row' at hfound
  simp [selectSection, loadSection, putSections, on_bind, on_map, require, hfound]

/-- A section that is there can be removed. -/
theorem removeSection_succeeds {s : Store} (h : ∃ row ∈ s.sectionsOf kind, row.id = id) :
    ∃ a s', (removeSection kind id).on s = (.ok a, s') := by
  obtain ⟨row, hrow, rfl⟩ := h
  obtain ⟨row', hfound⟩ := Table.exists_find? hrow
  change (s.sections.get kind).find? row.id = some row' at hfound
  simp [removeSection, loadSection, putSections, on_bind, on_map, require, hfound]

end Transaction
end ProxyPlane
