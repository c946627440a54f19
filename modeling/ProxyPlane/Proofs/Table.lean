import ProxyPlane.Store.Section
import ProxyPlane.Store.Table

/-!
# Tables that are in order

The rows of a table stand in the order of their identifiers, and none of them has an identifier that
was not issued.  So an identifier belongs to one row at most, and the next one is new.

## What is here

* `Table.Ordered` — the invariant; kept by `push`, `map`, `modify` and `retain`.
* `Table.Ordered.find?_eq_some` — the row with an identifier is the one that `find?` gives.
* `PerKind.get_set` — the tables of the kinds of section are apart from each other.
-/

set_option autoImplicit false
namespace ProxyPlane
namespace Table

variable {α : Type}

/-! ## What stands in a changed table -/

theorem map_map (t : Table α) (f g : α → α) : (t.map f).map g = t.map (g ∘ f) := by
  simp [map]

@[simp] theorem mem_push {t : Table α} {make : Id → α} {row : α} :
    row ∈ (t.push make).rows ↔ row ∈ t.rows ∨ row = make (t.issued + 1) := by
  simp [push]

@[simp] theorem mem_map {t : Table α} {f : α → α} {row : α} :
    row ∈ (t.map f).rows ↔ ∃ old ∈ t.rows, f old = row := by
  simp [map]

@[simp] theorem mem_retain {t : Table α} {keep : α → Bool} {row : α} :
    row ∈ (t.retain keep).rows ↔ row ∈ t.rows ∧ keep row = true := by
  simp [retain]

/-! ## Order -/

variable [Row α]

/-- Rows in the order of their identifiers, all of which were issued. -/
structure Ordered (t : Table α) : Prop where
  increasing : t.rows.Pairwise fun a b => Row.id a < Row.id b
  issued : ∀ row ∈ t.rows, Row.id row ≤ t.issued

/-- If the first row that passes a test were nobody, no row passes it. -/
theorem not_of_find? {t : Table α} {p : α → Bool}
    (h : ∀ row, t.rows.find? p = some row → some (Row.id row) = none) :
    ∀ row ∈ t.rows, ¬p row = true := by
  refine List.find?_eq_none.1 (Option.eq_none_iff_forall_ne_some.2 fun row hfound => ?_)
  exact absurd (h row hfound) (Option.some_ne_none _)

theorem mem_of_find? {t : Table α} {id : Id} {row : α} (h : t.find? id = some row) :
    row ∈ t.rows ∧ Row.id row = id := by
  have hid := List.find?_some h
  exact ⟨List.mem_of_find?_eq_some h, by simpa using hid⟩

theorem exists_find? {t : Table α} {row : α} (h : row ∈ t.rows) :
    ∃ row', t.find? (Row.id row) = some row' := by
  rw [← Option.isSome_iff_exists, find?, List.find?_isSome]
  exact ⟨row, h, by simp⟩

namespace Ordered
variable {t : Table α}

theorem eq_of_id (h : t.Ordered) {a b : α} (ha : a ∈ t.rows) (hb : b ∈ t.rows)
    (hid : Row.id a = Row.id b) : a = b := by
  have hinc := h.increasing
  clear h
  generalize t.rows = rows at ha hb hinc
  induction rows with
  | nil => cases ha
  | cons first rest ih =>
    obtain ⟨hfirst, hrest⟩ := List.pairwise_cons.1 hinc
    rcases List.mem_cons.1 ha with hae | ha <;> rcases List.mem_cons.1 hb with hbe | hb
    · rw [hae, hbe]
    · exact absurd hid (Int.ne_of_lt (hae ▸ hfirst b hb))
    · exact absurd hid.symm (Int.ne_of_lt (hbe ▸ hfirst a ha))
    · exact ih ha hb hrest

theorem find?_eq_some (h : t.Ordered) {id : Id} {row : α} :
    t.find? id = some row ↔ row ∈ t.rows ∧ Row.id row = id := by
  refine ⟨mem_of_find?, fun ⟨hrow, hid⟩ => ?_⟩
  obtain ⟨row', hfound⟩ := exists_find? hrow
  obtain ⟨hrow', hid'⟩ := mem_of_find? hfound
  rw [← hid, hfound, h.eq_of_id hrow' hrow hid']

theorem empty : (Table.empty : Table α).Ordered := ⟨.nil, fun _ h => nomatch h⟩

theorem push (h : t.Ordered) {make : Id → α} (hmake : Row.id (make (t.issued + 1)) = t.issued + 1) :
    (t.push make).Ordered := by
  constructor
  · refine List.pairwise_append.2 ⟨h.increasing, List.pairwise_singleton _ _, ?_⟩
    intro a ha b hb
    rw [List.mem_singleton.1 hb, hmake]
    exact Int.lt_add_one_of_le (h.issued a ha)
  · intro row hrow
    rcases List.mem_append.1 hrow with hrow | hrow
    · exact Int.le_trans (h.issued row hrow) (Int.le_of_lt (Int.lt_succ _))
    · rw [List.mem_singleton.1 hrow, hmake]
      exact Int.le_refl _

theorem map (h : t.Ordered) {f : α → α} (hf : ∀ row, Row.id (f row) = Row.id row) :
    (t.map f).Ordered := by
  constructor
  · refine List.pairwise_map.2 (h.increasing.imp fun {a b} hab => ?_)
    rw [hf a, hf b]
    exact hab
  · intro row' hrow'
    obtain ⟨row, hrow, rfl⟩ := List.mem_map.1 hrow'
    rw [hf row]
    exact h.issued row hrow

theorem modify (h : t.Ordered) {id : Id} {f : α → α} (hf : ∀ row, Row.id (f row) = Row.id row) :
    (t.modify id f).Ordered :=
  h.map fun row => by split <;> simp [hf]

theorem retain (h : t.Ordered) (keep : α → Bool) : (t.retain keep).Ordered :=
  ⟨h.increasing.filter _, fun row hrow => h.issued row (List.mem_filter.1 hrow).1⟩

end Ordered

/-- A row of a table in which one row was changed is the changed row or another one. -/
theorem mem_modify {t : Table α} {id : Id} {f : α → α} {row : α} (h : row ∈ (t.modify id f).rows) :
    ∃ old ∈ t.rows, (Row.id old = id ∧ row = f old) ∨ (Row.id old ≠ id ∧ row = old) := by
  obtain ⟨old, hold, rfl⟩ := mem_map.1 h
  refine ⟨old, hold, ?_⟩
  by_cases hid : Row.id old = id
  · exact .inl ⟨hid, by simp [hid]⟩
  · exact .inr ⟨hid, by simp [hid]⟩

/-- The row with an identifier, once it was changed. -/
theorem find?_modify {t : Table α} {id : Id} {f : α → α} (hf : ∀ row, Row.id (f row) = Row.id row) :
    (t.modify id f).find? id = (t.find? id).map f := by
  have hid (row : α) : Row.id (if Row.id row == id then f row else row) = Row.id row := by
    split <;> simp [hf]
  simp only [find?, modify, map, List.find?_map, Function.comp_def, hid]
  refine Option.map_congr fun row hrow => ?_
  rw [if_pos (List.find?_some hrow)]

end Table

/-! ## One table for each kind of section -/

namespace PerKind
variable {α : Type}

@[simp] theorem get_set_self (p : PerKind α) (kind : SectionKind) (a : α) :
    (p.set kind a).get kind = a := by
  cases kind <;> rfl

theorem get_set_of_ne {kind kind' : SectionKind} (h : kind' ≠ kind) (p : PerKind α) (a : α) :
    (p.set kind a).get kind' = p.get kind' := by
  cases kind <;> cases kind' <;> first | rfl | exact absurd rfl h

/-- Replacing the table of one kind replaces no other. -/
theorem get_set (p : PerKind α) (kind kind' : SectionKind) (a : α) :
    (p.set kind a).get kind' = if kind' = kind then a else p.get kind' := by
  split
  · next h => rw [h, get_set_self]
  · next h => exact get_set_of_ne h p a

end PerKind
end ProxyPlane
