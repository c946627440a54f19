import ProxyPlane.Proofs.Gate

/-!
# What is selected

Of each kind one section is selected at most, and what runs was compiled from the sections that are
selected.  Neither is in the tables: a row is selected or not by itself, and the record of what runs
names identifiers that nothing ties to rows.  Both are kept by the transactions, together.

## What is here

* `Store.Single` — of each kind one section is selected at most.
* `Store.SameSelection` — no section is gone, and none is selected or unselected.
* `Store.Stands q s` — `q` is recorded to run, and its sections are there and selected.
* `Store.Coherent` — the invariant: `Single`, and what is recorded to run stands.
* `Store.Spares` — what is done to the store without the gate: the selection is the same, and the
  record is the same or says that nothing runs.
* `Coherent.spares`, `coherent_selecting`, `coherent_without`, `Ready.coherent` — the invariant is
  kept by what is done without the gate, by selecting, by removing and by recording what runs.
-/

set_option autoImplicit false
namespace ProxyPlane
namespace Store

open Operation (Marked)

variable {s s' s'' : Store} {kind : SectionKind} {id : Id} {q : Prepared}

/-! ## One section of each kind -/

/-- Of each kind one section is selected at most. -/
def Single (s : Store) : Prop :=
  ∀ kind, ∀ row ∈ s.sectionsOf kind, ∀ row' ∈ s.sectionsOf kind,
    row.selected = true → row'.selected = true → row.id = row'.id

/-- There is one selected section of each kind at most. -/
theorem Single.length_le (h : s.Single) (hvalid : s.Valid) (kind : SectionKind) :
    ((s.sectionsOf kind).filter (·.selected)).length ≤ 1 := by
  have hincreasing := (hvalid.sections kind).increasing.filter (·.selected)
  have hsame : ∀ a ∈ (s.sectionsOf kind).filter (·.selected),
      ∀ b ∈ (s.sectionsOf kind).filter (·.selected), a.id = b.id := by
    intro a ha b hb
    obtain ⟨ha, hselected⟩ := List.mem_filter.1 ha
    obtain ⟨hb, hselected'⟩ := List.mem_filter.1 hb
    exact h kind a ha b hb hselected hselected'
  change ((s.sectionsOf kind).filter (·.selected)).Pairwise _ at hincreasing
  generalize (s.sectionsOf kind).filter (·.selected) = rows at hincreasing hsame ⊢
  match rows with
  | [] => exact Nat.zero_le 1
  | [_] => exact Nat.le_refl 1
  | a :: b :: rest =>
    have hlt : a.id < b.id := (List.pairwise_cons.1 hincreasing).1 b (.head _)
    exact absurd (hsame a (.head _) b (.tail _ (.head _))) (Int.ne_of_lt hlt)

/-- The selected sections of a kind are the one that is selected. -/
theorem Single.filter_eq (h : s.Single) (hvalid : s.Valid) {row : Section}
    (hrow : row ∈ s.sectionsOf kind) (hselected : row.selected = true) :
    (s.sectionsOf kind).filter (·.selected) = [row] := by
  have hmem : row ∈ (s.sectionsOf kind).filter (·.selected) := List.mem_filter.2 ⟨hrow, hselected⟩
  have hlength := h.length_le hvalid kind
  obtain ⟨row', hrows⟩ := List.length_eq_one_iff.1
    (Nat.le_antisymm hlength (List.length_pos_of_mem hmem))
  rw [hrows] at hmem ⊢
  rw [List.mem_singleton.1 hmem]

theorem Single.selected?_eq (h : s.Single) (hvalid : s.Valid) {row : Section}
    (hrow : row ∈ s.sectionsOf kind) (hselected : row.selected = true) :
    s.selected? kind = some row := by
  rw [selected?, h.filter_eq hvalid hrow hselected]
  rfl

theorem single_empty : Store.empty.Single := by
  intro kind row hrow
  cases kind <;> cases hrow

/-! ## The same selection -/

/-- Nothing is selected that was not. -/
def SelectsNoMore (s s' : Store) : Prop :=
  ∀ kind, ∀ row' ∈ s'.sectionsOf kind, row'.selected = true →
    ∃ row ∈ s.sectionsOf kind, row.id = row'.id ∧ row.selected = true

/-- No section is gone, none is selected or unselected, and what is new is not selected. -/
structure SameSelection (s s' : Store) : Prop where
  kept : ∀ kind, ∀ row ∈ s.sectionsOf kind, ∃ row' ∈ s'.sectionsOf kind,
    row'.id = row.id ∧ row'.selected = row.selected
  chosen : s.SelectsNoMore s'

theorem SameSelection.refl (s : Store) : s.SameSelection s :=
  ⟨fun _ row hrow => ⟨row, hrow, rfl, rfl⟩, fun _ row hrow hselected => ⟨row, hrow, rfl, hselected⟩⟩

theorem SelectsNoMore.single (h : s.SelectsNoMore s') (hs : s.Single) : s'.Single := by
  intro kind a' ha' b' hb' hselected hselected'
  obtain ⟨a, ha, haid, haselected⟩ := h kind a' ha' hselected
  obtain ⟨b, hb, hbid, hbselected⟩ := h kind b' hb' hselected'
  rw [← haid, ← hbid]
  exact hs kind a ha b hb haselected hbselected

/-- What is done to the store without the gate. -/
structure Spares (s s' : Store) : Prop where
  valid : s'.Valid
  advances : s.Advances s'
  selection : s.SameSelection s'
  running : s'.running = s.running ∨ s'.running.running = false

theorem spares_refl (h : s.Valid) : s.Spares s := ⟨h, .refl s, .refl s, .inl rfl⟩

theorem spares_of_edits (h : Edits MovesGroups s s') : s.Spares s' :=
  ⟨h.valid, h.advances, ⟨h.kept, h.chosen⟩, .inl h.running⟩

/-- To record that nothing runs. -/
theorem spares_stopped (h : s.Valid) :
    s.Spares { s with running := { s.running with running := false } } where
  valid := Operation.valid_running h _
  advances := Operation.advances_running s _
  selection := ⟨(SameSelection.refl s).kept, (SameSelection.refl s).chosen⟩
  running := .inr rfl

/-! ## What runs is selected -/

/-- The sections that a snapshot was compiled from are there and selected. -/
def Selects (q : Prepared) (s : Store) : Prop :=
  ∀ kind, ∃ row ∈ s.sectionsOf kind, row.id = (q.row kind).id ∧ row.selected = true

/-- A snapshot runs: the record is about it, the store recalls what it was compiled from, and its
sections are selected. -/
structure Stands (q : Prepared) (s : Store) : Prop extends Marked q s where
  selects : s.Selects q

/-- **The invariant**: of each kind one section is selected at most, and what is recorded to run was
compiled from the selected ones. -/
structure Coherent (s : Store) : Prop where
  single : s.Single
  running : s.running.running = true → ∃ q, s.Stands q

theorem coherent_empty : Store.empty.Coherent := ⟨single_empty, fun h => by cases h⟩

theorem coherent_of_stopped (h : s.Single) (hstopped : s.running.running = false) : s.Coherent :=
  ⟨h, fun hrunning => by rw [hstopped] at hrunning; cases hrunning⟩

theorem SameSelection.selects (h : s.SameSelection s') (hs : s.Selects q) : s'.Selects q := by
  intro kind
  obtain ⟨row, hrow, hid, hselected⟩ := hs kind
  obtain ⟨row', hrow', hid', hselected'⟩ := h.kept kind row hrow
  exact ⟨row', hrow', hid'.trans hid, hselected'.trans hselected⟩

/-- What stands goes on to stand as long as the record is the same. -/
theorem Stands.spares (h : s.Stands q) (hs : s.Spares s') (hsame : s'.running = s.running) :
    s'.Stands q :=
  ⟨⟨hsame.trans h.running, h.recalled.advance hs.advances⟩, hs.selection.selects h.selects⟩

/-- **What is done without the gate keeps the invariant.** -/
theorem Coherent.spares (h : s.Coherent) (hs : s.Spares s') : s'.Coherent := by
  have hsingle := hs.selection.chosen.single h.single
  rcases hs.running with hsame | hstopped
  · refine ⟨hsingle, fun hrunning => ?_⟩
    obtain ⟨q, hq⟩ := h.running (hsame ▸ hrunning)
    exact ⟨q, hq.spares hs hsame⟩
  · exact coherent_of_stopped hsingle hstopped

/-- While something runs, of each kind the section that was compiled is the one that is selected. -/
theorem Stands.filter_eq (h : s.Stands q) (hsingle : s.Single) (hvalid : s.Valid)
    (kind : SectionKind) :
    ∃ row, (s.sectionsOf kind).filter (·.selected) = [row] ∧ row.id = (q.row kind).id := by
  obtain ⟨row, hrow, hid, hselected⟩ := h.selects kind
  exact ⟨row, hsingle.filter_eq hvalid hrow hselected, hid⟩

/-! ## Selecting -/

/-- A store in which a section is selected instead of the others of its kind. -/
def selecting (s : Store) (kind : SectionKind) (id : Id) : Store :=
  s.withSections kind ((s.sections.get kind).map fun row => { row with selected := row.id == id })

theorem mem_selecting_self {row' : Section} :
    row' ∈ (s.selecting kind id).sectionsOf kind ↔
      ∃ row ∈ s.sectionsOf kind, { row with selected := row.id == id } = row' := by
  rw [sectionsOf, selecting, sections_withSections, if_pos rfl]
  exact Table.mem_map

theorem sectionsOf_selecting_of_ne {kind' : SectionKind} (h : kind' ≠ kind) :
    (s.selecting kind id).sectionsOf kind' = s.sectionsOf kind' := by
  rw [sectionsOf, selecting, sections_withSections, if_neg h, sectionsOf]

theorem single_selecting (h : s.Single) : (s.selecting kind id).Single := by
  intro kind' a' ha' b' hb' hselected hselected'
  by_cases hkind : kind' = kind
  · subst hkind
    obtain ⟨a, -, rfl⟩ := mem_selecting_self.1 ha'
    obtain ⟨b, -, rfl⟩ := mem_selecting_self.1 hb'
    exact (eq_of_beq hselected).trans (eq_of_beq hselected').symm
  · rw [sectionsOf_selecting_of_ne hkind] at ha' hb'
    exact h kind' a' ha' b' hb' hselected hselected'

/-- To select what is selected changes nothing. -/
theorem selecting_eq_self (h : s.Single) (hvalid : s.Valid) {row : Section}
    (hrow : row ∈ s.sectionsOf kind) (hselected : row.selected = true) :
    s.selecting kind row.id = s := by
  have hsame : ∀ row' ∈ s.sectionsOf kind, { row' with selected := row'.id == row.id } = row' := by
    intro row' hrow'
    have hflag : (row'.id == row.id) = row'.selected := by
      by_cases hid : row'.id = row.id
      · rw [hvalid.section_eq hrow' hrow hid, hselected, beq_self_eq_true]
      · rw [beq_eq_false_iff_ne.2 hid]
        by_contra hne
        exact hid (h kind row' hrow' row hrow (by simpa using hne) hselected)
    rw [hflag]
  have hrows : ((s.sections.get kind).map fun row' => { row' with selected := row'.id == row.id })
      = s.sections.get kind := by
    rw [Table.map]
    congr 1
    exact (List.map_congr_left hsame).trans (List.map_id _)
  rw [selecting, hrows, withSections]
  cases kind <;> rfl

/-- What selecting a section comes to, if the section is there. -/
theorem selectSection_selects (h : s.Valid) : (Transaction.selectSection kind id).Ensures s
    fun _ s' => s' = s.selecting kind id ∧ Operation.HasSection kind id s ∧
      Changes KeepsGroups s (s.selecting kind id) := by
  intro previous s' hon
  have hdoes := (Transaction.selectSection_does s h previous s' hon).1
  have hresult : (Transaction.selectSection kind id).Ensures s fun _ s' =>
      s' = s.selecting kind id ∧ Operation.HasSection kind id s := by
    simp only [Transaction.selectSection, Transaction.ensures_bind, Transaction.ensures_get,
      Transaction.ensures_loadSection, Transaction.ensures_putSections, Transaction.ensures_pure]
    exact fun row hrow => ⟨rfl, row, Table.mem_of_find? hrow⟩
  obtain ⟨rfl, hthere⟩ := hresult previous s' hon
  exact ⟨rfl, hthere, hdoes⟩

/-- **To select a section** while nothing runs keeps the invariant. -/
theorem coherent_selecting (h : s.Coherent) (hstopped : s.running.running = false) :
    (s.selecting kind id).Coherent :=
  coherent_of_stopped (single_selecting h.single) hstopped

/-! ## Removing -/

/-- A store without a section. -/
def without (s : Store) (kind : SectionKind) (id : Id) : Store :=
  s.withSections kind ((s.sections.get kind).retain fun row => row.id != id)

theorem mem_without {kind' : SectionKind} {row : Section} :
    row ∈ (s.without kind id).sectionsOf kind' ↔
      row ∈ s.sectionsOf kind' ∧ ¬ (kind' = kind ∧ row.id = id) := by
  rw [sectionsOf, without, sections_withSections]
  split
  · next hkind =>
    subst hkind
    rw [Table.mem_retain, sectionsOf]
    simp
  · next hkind => simp [hkind, sectionsOf]

/-- What removing a section comes to. -/
theorem removeSection_removes (h : s.Valid) : (Transaction.removeSection kind id).Ensures s
    fun _ s' => s' = s.without kind id ∧ Changes KeepsGroups s (s.without kind id) := by
  intro removed s' hon
  have hdoes := (Transaction.removeSection_does s h removed s' hon).1
  have hresult : (Transaction.removeSection kind id).Ensures s fun _ s' =>
      s' = s.without kind id := by
    simp only [Transaction.removeSection, Transaction.ensures_bind, Transaction.ensures_get,
      Transaction.ensures_loadSection, Transaction.ensures_putSections, Transaction.ensures_pure]
    exact fun _ _ => rfl
  obtain rfl := hresult removed s' hon
  exact ⟨rfl, hdoes⟩

theorem selectsNoMore_without : s.SelectsNoMore (s.without kind id) :=
  fun _ row hrow hselected => ⟨row, (mem_without.1 hrow).1, rfl, hselected⟩

/-- **To remove a section** keeps the invariant if the section is not selected. -/
theorem coherent_without (h : s.Coherent) (hvalid : s.Valid) (ha : s.Advances (s.without kind id))
    {row : Section} (hrow : row ∈ s.sectionsOf kind) (hid : row.id = id)
    (hselected : row.selected = false) : (s.without kind id).Coherent := by
  refine ⟨selectsNoMore_without.single h.single, fun hrunning => ?_⟩
  obtain ⟨q, hq⟩ := h.running hrunning
  refine ⟨q, ⟨hq.running, hq.recalled.advance ha⟩, fun kind' => ?_⟩
  obtain ⟨row', hrow', hid', hselected'⟩ := hq.selects kind'
  refine ⟨row', mem_without.2 ⟨hrow', ?_⟩, hid', hselected'⟩
  rintro ⟨rfl, rfl⟩
  rw [hvalid.section_eq hrow hrow' hid, hselected'] at hselected
  cases hselected

/-! ## Recording what runs -/

/-- A snapshot can be recorded to run: the store recalls what it was compiled from, which is the
candidate and, of the other kinds, sections that are selected. -/
structure Ready (candidate : Option Section) (q : Prepared) (s : Store) : Prop where
  recalled : q.Recalled s
  taken : ∀ row, candidate = some row → q.row row.kind = row
  selected : ∀ kind, (∀ row, candidate = some row → row.kind ≠ kind) →
    ∃ row ∈ s.sectionsOf kind, row.id = (q.row kind).id ∧ row.selected = true

variable {candidate : Option Section} {row : Section}

theorem Ready.spares (h : s.Ready candidate q) (hs : s.Spares s') : s'.Ready candidate q := by
  refine ⟨h.recalled.advance hs.advances, h.taken, fun kind hkind => ?_⟩
  obtain ⟨row, hrow, hid, hselected⟩ := h.selected kind hkind
  obtain ⟨row', hrow', hid', hselected'⟩ := hs.selection.kept kind row hrow
  exact ⟨row', hrow', hid'.trans hid, hselected'.trans hselected⟩

/-- A compile takes the candidate of its kind. -/
theorem row_of_candidate (hq : s.prepare (some row) = .ok q) : q.row row.kind = row := by
  have hchosen := (prepare_eq_ok_iff.1 hq).1 row.kind
  simp only [chosen, Option.filter_some, decide_true, if_true] at hchosen
  exact (Except.ok.inj hchosen).symm

/-- A compile takes the selected sections of the kinds that have no candidate. -/
theorem selected?_of_prepare (hq : s.prepare candidate = .ok q)
    (hkind : ∀ row, candidate = some row → row.kind ≠ kind) :
    s.selected? kind = some (q.row kind) := by
  rcases chosen_eq_ok ((prepare_eq_ok_iff.1 hq).1 kind) with ⟨hrow, hsame⟩ | hselected
  · exact absurd hsame (hkind _ hrow)
  · exact hselected

theorem ready_prepare (hvalid : s.Valid)
    (hcandidate : ∀ row, candidate = some row → s.RecallsSection row.kind row)
    (hq : s.prepare candidate = .ok q) : s.Ready candidate q where
  recalled := recalled_prepare hvalid hcandidate hq
  taken row hrow := by subst hrow; exact row_of_candidate hq
  selected kind hkind := by
    obtain ⟨hrow, hselected⟩ := selected?_mem (selected?_of_prepare hq hkind)
    exact ⟨q.row kind, hrow, rfl, hselected⟩

/-- **To record what was compiled from the selected sections** establishes the invariant. -/
theorem Ready.coherent (h : s.Ready none q) (hsingle : s.Single) :
    ({ s with running := q.record.row } : Store).Coherent := by
  have hrecalled := h.recalled.advance (Operation.advances_running s q.record.row)
  exact ⟨hsingle, fun _ => ⟨q, ⟨rfl, hrecalled⟩, fun kind => h.selected kind fun _ hnone => by
    cases hnone⟩⟩

/-- The same with a candidate, which is selected together with the record. -/
theorem Ready.coherent_selecting (h : s.Ready (some row) q) (hsingle : s.Single)
    (ha : s.Advances (s.selecting row.kind row.id))
    (hthere : Operation.HasSection row.kind row.id s) :
    ({ s.selecting row.kind row.id with running := q.record.row } : Store).Coherent := by
  have hrecalled := (h.recalled.advance ha).advance (Operation.advances_running _ q.record.row)
  refine ⟨single_selecting hsingle, fun _ => ⟨q, ⟨rfl, hrecalled⟩, fun kind => ?_⟩⟩
  by_cases hkind : kind = row.kind
  · subst hkind
    obtain ⟨old, hold, hid⟩ := hthere
    refine ⟨_, mem_selecting_self.2 ⟨old, hold, rfl⟩, ?_, beq_iff_eq.2 hid⟩
    rw [h.taken row rfl]
    exact hid
  · obtain ⟨row', hrow', hid, hselected⟩ := h.selected kind fun _ hrow => by
      cases hrow
      exact Ne.symm hkind
    refine ⟨row', ?_, hid, hselected⟩
    show row' ∈ (s.selecting row.kind row.id).sectionsOf kind
    rwa [sectionsOf_selecting_of_ne hkind]

end Store
end ProxyPlane
