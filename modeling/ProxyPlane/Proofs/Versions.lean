import ProxyPlane.Proofs.Traffic

/-!
# The versions of groups

What a group compiles to depends on its name, its policy and the nodes that it reaches, and these
change by operations on the group, on nodes and on subscriptions alike.

## What is here

* `CompileInput`, `Store.compileInput` — all that a compile reads of a group.
* `Traffic.Reachable.version_law` — an operation moves the version of a group by one at most,
  however many of the group's nodes and subscriptions it touches, and it moves it if the compile
  input changes.
-/

set_option autoImplicit false
namespace ProxyPlane

open Store Routine

/-- All that a compile reads of a group. -/
structure CompileInput where
  name : String
  policy : String
  params : List PolicyParam
  /-- The link, the display name, the tag and the subscription of each node, in the order in which
  the group reaches them. -/
  members : List (String × String × Option String × Option Id)
  deriving DecidableEq

/-- The compile input of a group. -/
def Store.compileInput (s : Store) (g : Group) : CompileInput :=
  ⟨g.name, g.policy, g.params, (s.reached g).map fun n => (n.link, n.name, n.tag, n.subscription)⟩

/-- Everything that the control plane offers that can change the store: the commands, and taking up
what ran before. -/
inductive Operation.Offered : Operation (Option Prepared) → Prop
  | command (c : Command) : Offered c.operation
  | resume : Offered Operation.resume

namespace Operation

theorem moving_of_still {p p' : Plane} (h : Still p p') : Moving p p' :=
  h.mono fun _ _ _ hs => hs.loosen

theorem still_trans {p p' p'' : Plane} (h : Still p p') (h' : Still p' p'') : Still p p'' :=
  Plane.Stored.trans h h' (fun _ _ hs => hs.valid) fun _ _ _ => changes_trans

theorem still_moving {p p' p'' : Plane} (h : Still p p') (h' : Moving p' p'') : Moving p p'' :=
  Plane.Stored.trans h h' (fun _ _ hs => hs.valid)
    fun _ _ _ hs hs' => ⟨hs'.valid, hs.groups.then_moves hs'.groups, hs.sections.trans hs'.sections⟩

theorem moving_still {p p' p'' : Plane} (h : Moving p p') (h' : Still p' p'') : Moving p p'' :=
  Plane.Stored.trans h h' (fun _ _ hs => hs.valid)
    fun _ _ _ hs hs' => ⟨hs'.valid, hs.groups.then_keeps hs'.groups, hs.sections.trans hs'.sections⟩

/-- **From its beginning to its end** an operation moves each group by one version, or keeps it. -/
theorem Offered.moving {op : Operation (Option Prepared)} (h : op.Offered) (p : Plane) :
    Moving p (op.steps.run p).2 := by
  have honce : op.steps.Once Still Moving := by
    cases h with
    | command c => exact c.once
    | resume => exact resume_still.once
  exact honce.run (fun _ => still_of_eq rfl) (fun _ _ _ => still_trans) (fun _ _ => moving_of_still)
    (fun _ _ _ => still_moving) (fun _ _ _ => moving_still) p

end Operation

/-- A group that a transaction moves by one version at most has the same compile input at the same
version. -/
theorem Store.MovesGroups.version_le_succ {s s' : Store} (h : s.MovesGroups s') (hvalid : s.Valid)
    {g g' : Group} (hg : g ∈ s.groups.rows) (hg' : g' ∈ s'.groups.rows) (hid : g'.id = g.id) :
    (g'.version = g.version ∨ g'.version = g.version + 1) ∧
      (s'.compileInput g' ≠ s.compileInput g → g.version < g'.version) := by
  obtain ⟨old, hold, hsame, hmoved⟩ := h.moved g' hg' (hid ▸ hvalid.group_le hg)
  obtain rfl : old = g := hvalid.group_eq hold hg (hsame.trans hid)
  rcases hmoved with hmoved | ⟨rfl, hreached⟩
  · refine ⟨.inr hmoved, fun _ => ?_⟩
    rw [hmoved]
    exact Int.lt_succ _
  · refine ⟨.inl rfl, fun hchanged => absurd ?_ hchanged⟩
    simp only [compileInput]
    rw [hreached]

/-- **Versions of groups.** From every state that can be reached, every operation moves the version
of a group that exists before and after it by one at most, and moves it if the compile input of the
group changes. -/
theorem Traffic.Reachable.version_law {t : Traffic} (h : t.Reachable)
    {op : Operation (Option Prepared)} (hop : op.Offered) :
    ∃ s s', t.plane.store = some s ∧ (op.steps.run t.plane).2.store = some s' ∧
      ∀ g ∈ s.groups.rows, ∀ g' ∈ s'.groups.rows, g'.id = g.id →
        (g'.version = g.version ∨ g'.version = g.version + 1) ∧
          (s'.compileInput g' ≠ s.compileInput g → g.version < g'.version) := by
  obtain ⟨s, hs, hvalid, -⟩ := h.sound
  obtain ⟨s', hs', hmoves⟩ := (hop.moving t.plane).exists hs hvalid
  exact ⟨s, s', hs, hs', fun g hg g' hg' hid => hmoves.groups.version_le_succ hvalid hg hg' hid⟩

/-- A group whose node gets a tag. -/
theorem Traffic.version_law_retagged :
    ∃ s s' g g', furnished.plane.store = some s ∧
      ((Command.edit (.tagNode 1 "home")).operation.steps.run furnished.plane).2.store = some s' ∧
      g ∈ s.groups.rows ∧ g' ∈ s'.groups.rows ∧ g'.id = g.id ∧
      s'.compileInput g' ≠ s.compileInput g ∧ g'.version = g.version + 1 := by
  let link := "socks5://n1.example:1080#N1"
  let g : Group := ⟨1, "proxy", "random", [], [1], [], 2⟩
  let g' : Group := ⟨1, "proxy", "random", [], [1], [], 3⟩
  obtain ⟨s, s', hs, hs', hlaw⟩ := Reachable.version_law furnished_reachable
    (.command (.edit (.tagNode 1 "home")))
  obtain ⟨s₁, hs₁, hg, hinput⟩ := exists_of_any (o := furnished.plane.store)
    (P := fun s => g ∈ s.groups.rows ∧
      s.compileInput g = ⟨"proxy", "random", [], [(link, "N1", none, none)]⟩) (by decide +kernel)
  obtain ⟨s₂, hs₂, hg', hinput'⟩ := exists_of_any
    (o := ((Command.edit (.tagNode 1 "home")).operation.steps.run furnished.plane).2.store)
    (P := fun s => g' ∈ s.groups.rows ∧
      s.compileInput g' = ⟨"proxy", "random", [], [(link, "N1", some "home", none)]⟩)
    (by decide +kernel)
  cases hs₁.symm.trans hs
  cases hs₂.symm.trans hs'
  have hchanged : s'.compileInput g' ≠ s.compileInput g := by
    rw [hinput, hinput']
    decide
  obtain ⟨hversion, hmoved⟩ := hlaw g hg g' hg' rfl
  exact ⟨s, s', g, g', hs, hs', hg, hg', rfl, hchanged,
    hversion.resolve_left (Int.ne_of_gt (hmoved hchanged))⟩

end ProxyPlane
