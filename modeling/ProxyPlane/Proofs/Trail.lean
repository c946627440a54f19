import ProxyPlane.Proofs.Monitoring
import ProxyPlane.Proofs.Register
import ProxyPlane.Proofs.Steps

/-!
# Trails

What was done to a control plane cannot be read off it: it has one store, and its bus keeps the last
events only.  A trail is what was left behind on the way, step by step: the stores that were
committed, and the events that were told.  What a step tells is what it does to the bus, and since a
step that reports does the same to every bus, there is only one thing that it can have told.

## What is here

* `Footprint`, `Plane.Treads` — what one step leaves behind.
* `Plane.Treads.agrees` — what it has told has been counted.
* `Routine.Leaves`, `Plane.Leaves` — the trail of a run, and of one turn after another.
* `Routine.exists_leaves`, `Plane.exists_leaves` — all that can be asked leaves a trail.
* `Routine.Leaves.agrees` — what was told along a trail has been counted in the end.
-/

set_option autoImplicit false
namespace ProxyPlane

open Routine

/-! ## What a step leaves behind -/

/-- What a step leaves behind: the store that it commits, if it commits one, and the events that it
tells. -/
structure Footprint where
  committed : Option Store
  told : List Event

namespace Plane

variable {p : Plane} {change : Plane → Plane} {f : Footprint}

/-- A change of a control plane leaves a footprint.  What it tells is what it does to the bus, which
it does to any bus. -/
structure Treads (p : Plane) (change : Plane → Plane) (f : Footprint) : Prop where
  step : p.Step f.committed (change p)
  tells : ∃ moves, Bus.told moves = f.told ∧
    ∀ bus, change (p.onBus bus) = (change p).onBus (bus.after moves)

/-- What is reported by a change. -/
theorem reports_tells {α : Type} {next : Plane → α} (h : p.Reports fun p => (next p, change p)) :
    ∃ moves, (∀ bus, change (p.onBus bus) = (change p).onBus (bus.after moves)) ∧
      ∀ told, p.worker.Agrees told → (change p).worker.Agrees (told ++ Bus.told moves) := by
  obtain ⟨a, p', moves, hbus, htold⟩ := h
  have hchange (bus : Bus) : change (p.onBus bus) = p'.onBus (bus.after moves) :=
    congrArg Prod.snd (hbus bus)
  have hself : change p = p'.onBus (p.worker.feed.bus.after moves) := hchange p.worker.feed.bus
  refine ⟨moves, fun bus => ?_, fun told hagrees => ?_⟩
  · rw [hchange, hself]
    rfl
  · rw [hself]
    exact (htold told hagrees).congr ⟨rfl, rfl, rfl, rfl⟩ rfl fun _ => rfl

/-- What is told by a change is counted by it. -/
theorem Treads.agrees {α : Type} {next : Plane → α} {told : List Event} (h : p.Treads change f)
    (hreports : p.Reports fun p => (next p, change p)) (hagrees : p.worker.Agrees told) :
    (change p).worker.Agrees (told ++ f.told) := by
  obtain ⟨moves, htold, hbus⟩ := h.tells
  obtain ⟨moves', hbus', hagrees'⟩ := reports_tells hreports
  have hsame : Bus.told moves = Bus.told moves' := Bus.told_eq_of_after fun bus =>
    congrArg (·.worker.feed.bus) ((hbus bus).symm.trans (hbus' bus))
  rw [← htold, hsame]
  exact hagrees' told hagrees

/-- What a worker reports is counted, whatever control plane it is the worker of. -/
theorem agrees_of_reports {α : Type} {step : Worker → α × Worker} {w : Worker}
    (h : w.Reports step) (hagrees : ∃ told, w.Agrees told) :
    ∃ told, (step w).2.Agrees told := by
  obtain ⟨told, hagrees⟩ := hagrees
  have hplane : (ofParts .empty w [] 0).Reports fun p =>
      ((step p.worker).1, { p with worker := (step p.worker).2 }) := reports_worker h
  obtain ⟨moves, -, htold⟩ := reports_tells hplane
  exact ⟨_, htold told hagrees⟩

end Plane

/-! ## Trails -/

/-- The trail that a run leaves: the footprints of its steps, one after the other. -/
def Routine.Leaves {α : Type} : Routine Plane α → Plane → List Footprint → Prop
  | done _, _, trail => trail = []
  | step _ _, _, [] => False
  | step change rest, p, f :: trail => p.Treads change f ∧ (rest p).Leaves (change p) trail

/-- The trail that one turn after the other leaves. -/
def Plane.Leaves (p : Plane) : List Turn → List Footprint → Prop
  | [], trail => trail = []
  | t :: rest, trail => ∃ first later, trail = first ++ later ∧
    t.operation.steps.Leaves p first ∧ (p.turn t).Leaves rest later

theorem Turn.reporting (t : Turn) : t.operation.steps.Reporting := by
  open Operation in
  cases t with
  | ask c => exact ignore_reporting c.reporting _
  | resume => exact ignore_reporting resume_reporting _
  | sleep seconds => exact modify_reporting ⟨fun _ _ => rfl, fun _ _ h => h⟩
  | stopScheduler => exact modify_reporting ⟨fun _ _ => rfl, fun _ _ h => h⟩
  | change weather =>
    refine modify_reporting ⟨fun _ _ => rfl, fun p told h => ?_⟩
    exact h.congr ⟨rfl, rfl, rfl, rfl⟩ rfl fun _ => rfl

/-- Every run leaves a trail. -/
theorem Routine.exists_leaves {α : Type} {r : Routine Plane α} (hr : r.Reporting)
    (hsteps : r.Within Plane.Steps) (p : Plane) : ∃ trail, r.Leaves p trail := by
  induction r generalizing p with
  | done a => exact ⟨[], rfl⟩
  | step change rest ih =>
    obtain ⟨hreports, hlater⟩ := hr p
    obtain ⟨⟨committed, hstep⟩, hrest⟩ := hsteps p
    obtain ⟨moves, hbus, -⟩ := Plane.reports_tells hreports
    obtain ⟨trail, htrail⟩ := ih p hlater hrest (change p)
    exact ⟨⟨committed, Bus.told moves⟩ :: trail, ⟨hstep, moves, rfl, hbus⟩, htrail⟩

theorem Plane.exists_leaves (p : Plane) (ts : List Turn) : ∃ trail, p.Leaves ts trail := by
  induction ts generalizing p with
  | nil => exact ⟨[], rfl⟩
  | cons t rest ih =>
    obtain ⟨first, hfirst⟩ := Routine.exists_leaves t.reporting t.stepwise p
    obtain ⟨later, hlater⟩ := ih (p.turn t)
    exact ⟨first ++ later, first, later, rfl, hfirst, hlater⟩

/-- What is told along a trail has been counted in the end. -/
theorem Routine.Leaves.agrees {α : Type} {r : Routine Plane α} {p : Plane}
    {trail : List Footprint} {told : List Event} (h : r.Leaves p trail) (hr : r.Reporting)
    (hagrees : p.worker.Agrees told) :
    (r.run p).2.worker.Agrees (told ++ trail.flatMap (·.told)) := by
  induction r generalizing p trail told with
  | done a =>
    obtain rfl := h
    exact (List.append_nil told).symm ▸ hagrees
  | step change rest ih =>
    cases trail with
    | nil => exact h.elim
    | cons f trail =>
      obtain ⟨hfirst, hlater⟩ := h
      obtain ⟨hreports, hrest⟩ := hr p
      have hall := ih p hlater hrest (hfirst.agrees hreports hagrees)
      rwa [List.append_assoc, ← List.flatMap_cons] at hall

end ProxyPlane
