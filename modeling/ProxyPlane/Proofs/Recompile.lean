import Mathlib.Data.List.Sort
import ProxyPlane.Proofs.Agreement
import ProxyPlane.Proofs.Record

/-!
# What the absence of drift says

While no drift is found, the rows that were compiled are still there and are what they were.  A
compile reads more than these rows: it looks groups up by name, and finds a group that has come
since.  Such a group cannot have a name that was missing before, but it can have one that is built
in.

## What is here

* `Store.Unshadowed` — no group that has come since has a built-in name that the routing refers to.
* `Store.prepare_of_inStep` — without drift and shadows, what was compiled is compiled again.
* `Traffic.Reachable.recompiles_iff` — without drift, the store compiles to what serves exactly if
  nothing built in is shadowed.
-/

set_option autoImplicit false
namespace ProxyPlane

open Config Store

/-! ## What is still there -/

theorem Store.chosen_none {s : Store} {kind : SectionKind} {row : Section}
    (h : s.selected? kind = some row) : s.chosen none kind = .ok row := by
  simp [chosen, h]

/-- No group that has come since has a built-in name that the routing refers to. -/
def Store.Unshadowed (snapshot : Snapshot) (s : Store) : Prop :=
  ∀ g ∈ s.groups.rows, g.name ∈ snapshot.sections.routing.outbounds →
    isBuiltinOutbound g.name = true → g.id ∈ s.running.state.groups

namespace Prepared

variable {q : Prepared} {s : Store}

/-- Without drift, the selected sections have the texts that were compiled. -/
theorem Recalled.selected (h : q.Recalled s) (hstep : s.InStep q) (kind : SectionKind) :
    ∃ row, s.selected? kind = some row ∧ row.body = (q.row kind).body := by
  obtain ⟨row, hselected, hid, hversion⟩ := hstep.sections kind
  refine ⟨row, hselected, ?_⟩
  rcases (h.sections kind).recalled row (selected?_mem hselected).1 hid with hlt | ⟨-, hbody⟩
  · rw [hversion] at hlt
    exact absurd hlt (Int.lt_irrefl _)
  · exact hbody

/-- Without drift, a group that was compiled is there as it was and reaches what it reached. -/
theorem kept_of_inStep (hstep : s.InStep q) {m : GroupMembers} (hm : m.group ∈ q.compiled.groups)
    (hrecalls : s.RecallsGroup m) : m.group ∈ s.groups.rows ∧ s.reached m.group = m.nodes := by
  obtain ⟨g, hfind, hversion⟩ := hstep.groups m.group hm
  obtain ⟨hmem, hid⟩ := Table.mem_of_find? hfind
  rcases hrecalls.recalled g hmem hid with hlt | ⟨rfl, hnodes⟩
  · rw [hversion] at hlt
    exact absurd hlt (Int.lt_irrefl _)
  · exact ⟨hmem, hnodes⟩

/-- **Without drift and shadows, a compile reads what was read**: the same groups in the same order.
-/
theorem CompiledFrom.members_eq (hvalid : s.Valid) (hstep : s.InStep q) {sections : Sections}
    {members : List GroupMembers} (hfrom : q.CompiledFrom sections members)
    (hmembers : ∀ m ∈ members, s.RecallsGroup m) (hshadow : s.Unshadowed q.compiled.snapshot) :
    s.membersOf sections.routing.outbounds = members := by
  have hgroups := hfrom.groups_eq
  obtain ⟨hmissing, hsections, -, -⟩ := compile_eq_ok hfrom.compiled
  rw [referenced_eq hfrom.sorted hfrom.named] at hmissing
  obtain ⟨hsorted, hmem⟩ := membersOf_spec hvalid sections.routing.outbounds
  have hkept : ∀ m ∈ members, m.group ∈ s.groups.rows ∧ s.reached m.group = m.nodes := fun m hm =>
    kept_of_inStep hstep (hgroups ▸ List.mem_map_of_mem hm) (hmembers m hm)
  -- a group of the store with a name that is referred to is one of those that were compiled
  have hfound : ∀ g ∈ s.groups.rows, g.name ∈ sections.routing.outbounds →
    ∃ m ∈ members, m.group.id = g.id := by
    intro g hg hname
    cases hbuiltin : isBuiltinOutbound g.name with
    | true =>
      have hfrozen := hshadow g hg (by rwa [hsections]) hbuiltin
      rw [hstep.frozen, hgroups, List.map_map] at hfrozen
      exact List.mem_map.1 hfrozen
    | false =>
      obtain ⟨m, hm, hsame⟩ := missingNames_nil hmissing hname hbuiltin
      exact ⟨m, hm, hvalid.names m.group (hkept m hm).1 g hg hsame⟩
  let before : GroupMembers → GroupMembers → Prop := fun m m' => m.group.id < m'.group.id
  have : Std.Irrefl before := ⟨fun _ => Int.lt_irrefl _⟩
  have : Std.Antisymm before := ⟨fun _ _ h h' => absurd (Int.lt_trans h h') (Int.lt_irrefl _)⟩
  refine List.Pairwise.eq_of_mem_iff (r := before) hsorted hfrom.sorted fun m => ?_
  rw [hmem m]
  constructor
  · rintro ⟨hg, hname, hnodes⟩
    obtain ⟨m', hm', hid⟩ := hfound m.group hg hname
    obtain ⟨hg', hreached⟩ := hkept m' hm'
    have hsame : m'.group = m.group := hvalid.group_eq hg' hg hid
    have heq : m = m' := by
      rw [hsame, ← hnodes] at hreached
      cases m
      cases m'
      cases hsame
      cases hreached
      rfl
    rwa [heq]
  · intro hm
    obtain ⟨hg, hreached⟩ := hkept m hm
    exact ⟨hg, hfrom.named m hm, hreached.symm⟩

end Prepared

namespace Store

variable {s : Store} {q : Prepared}

/-- **Without drift and shadows, the same is compiled again.** -/
theorem prepare_of_inStep (hvalid : s.Valid) (hrecalled : q.Recalled s) (hstep : s.InStep q)
    (hshadow : s.Unshadowed q.compiled.snapshot) :
    ∃ q', s.prepare none = .ok q' ∧ q'.compiled = q.compiled := by
  obtain ⟨sections, members, hfrom, hmembers⟩ := hrecalled.groups
  obtain ⟨config, hconfig, hconfig'⟩ := hrecalled.selected hstep .config
  obtain ⟨dns, hdns, hdns'⟩ := hrecalled.selected hstep .dns
  obtain ⟨routing, hrouting, hrouting'⟩ := hrecalled.selected hstep .routing
  have hparsed : Sections.parse config.body dns.body routing.body = .ok sections := by
    rw [hconfig', hdns', hrouting']
    exact hfrom.parsed
  have hcompiled : compile sections routing.name (s.membersOf sections.routing.outbounds) =
      .ok q.compiled := by
    rw [hfrom.members_eq hvalid hstep hmembers hshadow]
    exact (compile_eq_ok hfrom.compiled).2.2.2 routing.name
  refine ⟨⟨q.compiled, config, dns, routing⟩, prepare_eq_ok_iff.2 ⟨fun kind => ?_, ?_⟩, rfl⟩
  · cases kind with
    | config => exact chosen_none hconfig
    | dns => exact chosen_none hdns
    | routing => exact chosen_none hrouting
  · exact ⟨sections, hparsed, hcompiled⟩

/-- **A store that compiles to the same is not shadowed**: all groups that it finds were compiled
before. -/
theorem unshadowed_of_prepare (hvalid : s.Valid) (hrecalled : q.Recalled s) (hstep : s.InStep q)
    {q' : Prepared}
    (hq' : s.prepare none = .ok q') (hsame : q'.compiled.snapshot = q.compiled.snapshot) :
    s.Unshadowed q.compiled.snapshot := by
  intro g hg hname _
  obtain ⟨sections, members, hfrom, hmembers⟩ := hrecalled.groups
  obtain ⟨-, -, hnames, -⟩ := compile_eq_ok hfrom.compiled
  obtain ⟨-, sections', hparsed', hcompiled'⟩ := prepare_eq_ok_iff.1 hq'
  obtain ⟨-, hsections', hnames', -⟩ := compile_eq_ok hcompiled'
  obtain ⟨hsorted', hmem'⟩ := membersOf_spec hvalid sections'.routing.outbounds
  -- the group is found, so it is in the snapshot that was compiled again, so its name is in the
  -- one before
  have hfound : (⟨g, s.reached g⟩ : GroupMembers) ∈ s.membersOf sections'.routing.outbounds := by
    refine (hmem' _).2 ⟨hg, ?_, rfl⟩
    rwa [← hsections', hsame]
  have hcompiled : g.name ∈ q.compiled.groups.map (·.name) := by
    rw [← hnames, ← hsame, hnames', compile_groups hcompiled',
      referenced_eq hsorted' fun m hm => ((hmem' m).1 hm).2.1, List.map_map]
    exact List.mem_map.2 ⟨_, hfound, rfl⟩
  obtain ⟨old, hold, hnamed⟩ := List.mem_map.1 hcompiled
  obtain ⟨nodes, hrecalls⟩ := hrecalled.groups.group hold
  have hkept := Prepared.kept_of_inStep hstep (m := ⟨old, nodes⟩) hold hrecalls
  rw [hstep.frozen, ← hvalid.names old hkept.1 g hg hnamed]
  exact List.mem_map_of_mem hold

end Store

/-- **What the absence of drift says.** In all traffic, whenever no command behind the gate is under
way and the worker has not ended: if something is recorded to run and no drift is found, then the
store compiles to what serves if and only if no group that has come since has a built-in name that
the routing refers to. -/
theorem Traffic.Reachable.recompiles_iff {t : Traffic} (h : t.Reachable) (hquiet : t.Quiescent)
    (hopen : t.plane.worker.state ≠ .closed) {s : Store} (hs : t.plane.store = some s)
    (hrunning : s.running.running = true) (hdrift : s.drift = none) :
    ∃ engine, t.plane.worker.live = some engine ∧
      ((∃ q, s.prepare none = .ok q ∧ q.compiled.snapshot = engine.snapshot) ↔
        s.Unshadowed engine.snapshot) := by
  obtain ⟨snapshot, hserves, s', hs', hvalid, hagrees⟩ := h.settled hquiet
  cases hs'.symm.trans hs
  obtain ⟨-, -, engine, hlive, rfl⟩ := hserves.listens hopen
  obtain ⟨q, -, hsnapshot, hmarked⟩ := hagrees.running hrunning
  have hstep := inStep_of_drift_eq_none hmarked.running hdrift
  refine ⟨engine, hlive, ?_, fun hshadow => ?_⟩
  · rintro ⟨q', hq', hsame⟩
    rw [← hsnapshot] at hsame ⊢
    exact unshadowed_of_prepare hvalid hmarked.recalled hstep hq' hsame
  · rw [← hsnapshot] at hshadow
    obtain ⟨q', hq', hcompiled⟩ := prepare_of_inStep hvalid hmarked.recalled hstep hshadow
    exact ⟨q', hq', by rw [hcompiled, hsnapshot]⟩

namespace Traffic

/-- A group that runs compiles again to what serves. -/
theorem recompiles_serving :
    serving.Quiescent ∧ serving.plane.worker.state ≠ .closed ∧
      ∃ s engine q, serving.plane.store = some s ∧ s.running.running = true ∧ s.drift = none ∧
        serving.plane.worker.live = some engine ∧ s.prepare none = .ok q ∧
          q.compiled.snapshot = engine.snapshot := by
  have hquiet : serving.Quiescent := by decide +kernel
  have hopen : serving.plane.worker.state ≠ .closed := by decide +kernel
  obtain ⟨s, hs, hrunning, hdrift, hbuiltin⟩ := exists_of_any (o := serving.plane.store)
    (P := fun s => s.running.running = true ∧ s.drift = none ∧
      ∀ g ∈ s.groups.rows, isBuiltinOutbound g.name = false) (by decide +kernel)
  obtain ⟨engine, hlive, hiff⟩ :=
    Reachable.recompiles_iff serving_reachable hquiet hopen hs hrunning hdrift
  obtain ⟨q, hq, hsame⟩ := hiff.2 fun g hg _ htrue => by
    rw [hbuiltin g hg] at htrue
    cases htrue
  exact ⟨hquiet, hopen, s, engine, q, hs, hrunning, hdrift, hlive, hq, hsame⟩

/-- Three sections run, of which the routing refers to a built-in outbound, and then a group with
its name is made. -/
def shadowed : Traffic := fresh.asks
  [(.edit (.createSection .config "c" ""), 1),
    (.selectSection .config 1, 3),
    (.edit (.createSection .dns "d" ""), 1),
    (.selectSection .dns 1, 3),
    (.edit (.createSection .routing "r" "fallback: direct"), 1),
    (.selectSection .routing 1, 3),
    (.run false, 8),
    (.edit (.createGroup "direct" "random" []), 1)]

/-- **A shadow is no drift**: the store does not compile any more, and yet no drift is found. -/
theorem shadowed_not_recompiled :
    shadowed.Reachable ∧ shadowed.Quiescent ∧ shadowed.plane.worker.state ≠ .closed ∧
      ∃ s, shadowed.plane.store = some s ∧ s.running.running = true ∧ s.drift = none ∧
        ∀ q, s.prepare none ≠ .ok q := by
  obtain ⟨s, hs, hrunning, hdrift, hfails⟩ := exists_of_any (o := shadowed.plane.store)
    (P := fun s => s.running.running = true ∧ s.drift = none ∧ (s.prepare none).isOk = false)
    (by decide +kernel)
  refine ⟨fresh_reachable.asks _, by decide +kernel, by decide +kernel, s, hs, hrunning, hdrift,
    fun q hq => ?_⟩
  rw [hq] at hfails
  cases hfails

end Traffic
end ProxyPlane
