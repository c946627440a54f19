import ProxyPlane.Proofs.Codecs
import ProxyPlane.Proofs.Record
import ProxyPlane.Proofs.Selection

/-!
# Drift comes and stays

The record of what runs is frozen, and the stamps in the store only grow.  So a store that is out of
step with the record does not fall into step again, whatever is edited back; and right after the
record was written the store is in step.

## What is here

* `Prepared.stamps` — the stamps of what was compiled; `InStep.liveStamps` — a store that is in step
  has just these.
* `Store.Coherent.drift_sustained` — drift does not go away as long as nothing is selected and the
  record is not written anew.
* `Store.Worded` — the groups of a store have identifiers and versions that are 64-bit words, as all
  numbers that are kept have.
* `Store.drift_of_prepare`, `drift_of_prepare_selecting` — no drift is found once what was compiled
  from a store is recorded in it.
-/

set_option autoImplicit false
namespace ProxyPlane

open Store

variable {s s' : Store} {q : Prepared}

/-! ## The stamps of what was compiled -/

/-- The stamps of what was compiled. -/
def Prepared.stamps (q : Prepared) : LiveStamps where
  config := some ⟨q.config.id, q.config.version⟩
  dns := some ⟨q.dns.id, q.dns.version⟩
  routing := some ⟨q.routing.id, q.routing.version⟩
  groups := q.compiled.groups.map fun g => (g.id, g.version)

/-- **A store that is in step** has the stamps of what was compiled. -/
theorem Store.InStep.liveStamps (h : s.InStep q) : s.liveStamps = q.stamps := by
  have hstamp (kind : SectionKind) :
      ((s.selected? kind).map fun row => Stamp.mk row.id row.version) =
        some ⟨(q.row kind).id, (q.row kind).version⟩ := by
    obtain ⟨row, hrow, hid, hversion⟩ := h.sections kind
    rw [hrow, Option.map_some, hid, hversion]
  have hgroups : (s.running.state.groups.filterMap fun id =>
      (s.groups.find? id).map fun g => (id, g.version)) =
        q.compiled.groups.map fun g => (g.id, g.version) := by
    rw [h.frozen, List.filterMap_map, ← List.filterMap_eq_map]
    refine List.filterMap_congr fun g hg => ?_
    obtain ⟨g', hfound, hversion⟩ := h.groups g hg
    show (s.groups.find? g.id).map _ = _
    rw [hfound, Option.map_some, hversion]
    rfl
  rw [Store.liveStamps, Prepared.stamps, LiveStamps.mk.injEq]
  exact ⟨hstamp .config, hstamp .dns, hstamp .routing, hgroups⟩

/-! ## Drift does not go away -/

theorem Store.drift_of_stopped (h : s.running.running = false) : s.drift = some .notRunning := by
  rw [Store.drift, Drift.detect, RunningRow.state, h]
  rfl

/-- A store in which what runs stands and which is in step later was in step before: versions that
have moved do not come back, and neither do rows that are gone. -/
theorem Store.Stands.inStep_of_advances (h : s.Stands q) (hsingle : s.Single) (hvalid : s.Valid)
    (ha : s.Advances s') (hchosen : s.SelectsNoMore s') (hsame : s'.running = s.running)
    (hstep : s'.InStep q) : s.InStep q := by
  refine ⟨fun kind => ?_, fun g hg => ?_, hsame ▸ hstep.frozen⟩
  · obtain ⟨row', hrow', hid', hversion'⟩ := hstep.sections kind
    obtain ⟨hrow', hselected'⟩ := selected?_mem hrow'
    obtain ⟨row, hrow, hid, hselected⟩ := hchosen kind row' hrow' hselected'
    have hle := (hvalid.sections kind).issued row hrow
    obtain ⟨old, hold, hsameid, hmoved⟩ := ha.sections.moved kind row' hrow' (hid ▸ hle)
    obtain rfl : old = row := hvalid.section_eq hold hrow (hsameid.trans hid.symm)
    have hrecalled := (h.recalled.sections kind).recalled old hold (hid.trans hid')
    refine ⟨old, hsingle.selected?_eq hvalid hold hselected, hid.trans hid', ?_⟩
    grind
  · obtain ⟨g', hfound, hversion⟩ := hstep.groups g hg
    obtain ⟨nodes, hrecalls⟩ := h.recalled.groups.group hg
    obtain ⟨hg', hid'⟩ := Table.mem_of_find? hfound
    have hle : g'.id ≤ s.groups.issued := by
      rw [show g'.id = g.id from hid']
      exact hrecalls.issued
    obtain ⟨old, hold, hid, hmoved⟩ := ha.groups g' hg' hle
    have hrecalled := hrecalls.recalled old hold (hid.trans hid')
    refine ⟨old, hvalid.groups.find?_eq_some.2 ⟨hold, hid.trans hid'⟩, ?_⟩
    grind

/-- **Drift does not go away** as long as nothing is selected and the record is not written anew,
whatever is edited, removed or made again. -/
theorem Store.Coherent.drift_sustained (h : s.Coherent) (hvalid : s.Valid) (ha : s.Advances s')
    (hchosen : s.SelectsNoMore s')
    (hrunning : s'.running = s.running ∨ s'.running.running = false)
    (hdrift : s.drift.isSome) : s'.drift.isSome := by
  rcases hrunning with hsame | hstopped
  · by_contra hnone
    have hnone : s'.drift = none := by simpa using hnone
    cases hrunning : s.running.running with
    | false =>
      rw [drift_of_stopped (hsame ▸ hrunning)] at hnone
      cases hnone
    | true =>
      obtain ⟨q, hq⟩ := h.running hrunning
      have hstep' := inStep_of_drift_eq_none (hsame.trans hq.running) hnone
      have hstep := hq.inStep_of_advances h.single hvalid ha hchosen hsame hstep'
      have heq : s.drift = s'.drift := by
        rw [Store.drift, Store.drift, hstep.liveStamps, hstep'.liveStamps, hsame]
      rw [heq, hnone] at hdrift
      cases hdrift
  · rw [drift_of_stopped hstopped]
    rfl

/-! ## Right after the record was written -/

/-- A number that a column holds, which is a signed 64-bit word. -/
def Word (n : Int) : Prop := -(Text.maxInt64 + 1 : Int) ≤ n ∧ n ≤ Text.maxInt64

/-- The groups of a store have identifiers and versions that are 64-bit words. -/
def Store.Worded (s : Store) : Prop := ∀ g ∈ s.groups.rows, Word g.id ∧ Word g.version

instance : DecidablePred Word := fun _ => inferInstanceAs (Decidable (_ ∧ _))

instance : DecidablePred Store.Worded := fun s =>
  inferInstanceAs (Decidable (∀ g ∈ s.groups.rows, Word g.id ∧ Word g.version))

theorem readBack_of_word {n : Int} (h : Word n) : readBack n = some n := if_pos h

theorem isSome_readBack_iff {n : Int} : (readBack n).isSome = true ↔ Word n := by
  rw [readBack]
  split
  · next hword => exact iff_of_true rfl hword
  · next hword => exact iff_of_false Bool.false_ne_true hword

/-- Words are read back from a text as they were. -/
theorem frozenVersions?_of_words {state : RunningState} {versions : List Version}
    (htext : state.groupVersions = joinNumbers versions) (h : ∀ n ∈ versions, Word n) :
    state.frozenVersions? = some versions := by
  rw [RunningState.frozenVersions?]
  rw [htext]
  cases versions with
  | nil => rfl
  | cons n rest =>
    rw [isEmpty_joinNumbers_cons, if_neg Bool.false_ne_true,
      readNumbers_joinNumbers (List.cons_ne_nil _ _),
      List.map_congr_left fun m hm => readBack_of_word (h m hm), mapM_eq_some_iff, List.map_id]

/-- Identifiers are read back from a text as they were exactly if they are words. -/
theorem readIds_joinNumbers_eq_iff {ids : List Id} :
    readIds (joinNumbers ids) = ids ↔ ∀ id ∈ ids, Word id := by
  rw [readIds_joinNumbers, List.filter_eq_self]
  exact forall₂_congr fun id _ => isSome_readBack_iff

/-- A group is found under its identifier, if identifiers tell groups apart. -/
theorem lookup_versions {groups : List Group} {g : Group}
    (h : groups.Pairwise fun a b => a.id < b.id) (hg : g ∈ groups) :
    (groups.map fun g => (g.id, g.version)).lookup g.id = some g.version := by
  induction groups with
  | nil => cases hg
  | cons first rest ih =>
    obtain ⟨hfirst, hrest⟩ := List.pairwise_cons.1 h
    rw [List.map_cons, List.lookup_cons]
    rcases List.mem_cons.1 hg with rfl | hg
    · rw [beq_self_eq_true]
    · rw [beq_eq_false_iff_ne.2 (Int.ne_of_gt (hfirst g hg))]
      exact ih hrest hg

/-- **The stamps of what was compiled are those of its record**, as far as the record can be read
back. -/
theorem Prepared.detect_stamps (h : q.compiled.groups.Pairwise fun a b => a.id < b.id)
    (hwords : ∀ g ∈ q.compiled.groups, Word g.id ∧ Word g.version) :
    Drift.detect q.record.row.state q.stamps = none := by
  have hversions : q.record.row.state.frozenVersions? =
      some (q.compiled.groups.map (·.version)) :=
    frozenVersions?_of_words rfl fun n hn => by
      obtain ⟨g, hg, rfl⟩ := List.mem_map.1 hn
      exact (hwords g hg).2
  have hids : q.record.row.state.groups = q.compiled.groups.map (·.id) :=
    readIds_joinNumbers_eq_iff.2 fun n hn => by
      obtain ⟨g, hg, rfl⟩ := List.mem_map.1 hn
      exact (hwords g hg).1
  have hsections :
      SectionKind.all.findSome? (Drift.ofSection q.record.row.state q.stamps) = none := by
    refine List.findSome?_eq_none_iff.2 fun kind _ => ?_
    cases kind <;> simp [Drift.ofSection, Prepared.stamps, LiveStamps.stamp, RunningState.stamp,
      RunningRow.state, RunningState.row, Prepared.record, Stamp.ofColumns?]
  have hgroups : Drift.ofGroups q.record.row.state q.stamps = none := by
    rw [Drift.ofGroups, hversions, hids]
    simp only [List.length_map, if_true]
    rw [List.zip_map']
    refine List.findSome?_eq_none_iff.2 fun p hp => ?_
    obtain ⟨g, hg, rfl⟩ := List.mem_map.1 hp
    simp only [Drift.ofGroup, Prepared.stamps, lookup_versions h hg, if_true]
  rw [Drift.detect, hsections, hgroups]
  rfl

/-- The groups that were compiled are in the store, in the order of their identifiers. -/
theorem Store.groups_of_prepare {candidate : Option Section} (hvalid : s.Valid)
    (hq : s.prepare candidate = .ok q) :
    q.compiled.groups.Pairwise (fun a b => a.id < b.id) ∧ ∀ g ∈ q.compiled.groups,
      g ∈ s.groups.rows := by
  obtain ⟨-, sections, hparsed, hcompiled⟩ := prepare_eq_ok_iff.1 hq
  obtain ⟨hsorted, hmem⟩ := membersOf_spec hvalid sections.routing.outbounds
  have hgroups := compile_groups hcompiled
  rw [referenced_eq hsorted fun m hm => ((hmem m).1 hm).2.1] at hgroups
  rw [hgroups]
  refine ⟨List.pairwise_map.2 hsorted, fun g hg => ?_⟩
  obtain ⟨m, hm, rfl⟩ := List.mem_map.1 hg
  exact ((hmem m).1 hm).1

/-- No drift is found in a store that is in step with what was compiled from its groups. -/
theorem Store.drift_of_selected {candidate : Option Section} (hvalid : s.Valid)
    (hq : s.prepare candidate = .ok q) (hrunning : s'.running = q.record.row)
    (hgroups : s'.groups = s.groups) (hselected : ∀ kind, ∃ row, s'.selected? kind = some row ∧
      row.id = (q.row kind).id ∧ row.version = (q.row kind).version) (hwords : s'.Worded) :
    s'.drift = none := by
  obtain ⟨hsorted, hmem⟩ := groups_of_prepare hvalid hq
  have hwords : ∀ g ∈ q.compiled.groups, Word g.id ∧ Word g.version := by
    intro g hg
    exact hwords g (hgroups ▸ hmem g hg)
  have hstep : s'.InStep q := by
    refine ⟨hselected, fun g hg => ⟨g, ?_, rfl⟩, ?_⟩
    · rw [hgroups]
      exact hvalid.groups.find?_eq_some.2 ⟨hmem g hg, rfl⟩
    · rw [hrunning]
      exact readIds_joinNumbers_eq_iff.2 fun n hn => by
        obtain ⟨g, hg, rfl⟩ := List.mem_map.1 hn
        exact (hwords g hg).1
  rw [Store.drift, hstep.liveStamps, hrunning]
  exact Prepared.detect_stamps hsorted hwords

/-- **Right after what was compiled is recorded**, no drift is found. -/
theorem Store.drift_of_prepare (hvalid : s.Valid) (hq : s.prepare none = .ok q)
    (hwords : s.Worded) : ({ s with running := q.record.row } : Store).drift = none := by
  refine drift_of_selected hvalid hq rfl rfl (fun kind => ⟨q.row kind, ?_, rfl, rfl⟩) hwords
  have hselected : s.selected? kind = some (q.row kind) :=
    selected?_of_prepare hq fun _ hnone => by cases hnone
  exact hselected

/-- The same with a candidate, which is selected together with the record. -/
theorem Store.drift_of_prepare_selecting {row : Section} (hvalid : s.Valid) (hsingle : s.Single)
    (hrow : row ∈ s.sectionsOf row.kind) (hvalid' : (s.selecting row.kind row.id).Valid)
    (hq : s.prepare (some row) = .ok q) (hwords : s.Worded) :
    ({ s.selecting row.kind row.id with running := q.record.row } : Store).drift = none := by
  refine drift_of_selected hvalid hq rfl rfl (fun kind => ?_) hwords
  show ∃ row', (s.selecting row.kind row.id).selected? kind = some row' ∧ _
  by_cases hkind : kind = row.kind
  · subst hkind
    refine ⟨{ row with selected := row.id == row.id }, ?_, ?_, ?_⟩
    · exact (single_selecting hsingle).selected?_eq hvalid' (mem_selecting_self.2 ⟨row, hrow, rfl⟩)
        (beq_self_eq_true row.id)
    · rw [row_of_candidate hq]
    · rw [row_of_candidate hq]
  · refine ⟨q.row kind, ?_, rfl, rfl⟩
    rw [selected?, sectionsOf_selecting_of_ne hkind, ← selected?]
    exact selected?_of_prepare hq fun _ hrow => by cases hrow; exact Ne.symm hkind

end ProxyPlane
