import ProxyPlane.Control.Subscriptions
import ProxyPlane.Proofs.Turns

/-!
# What one step does

However different operations are, there is not much that one step of any of them can do to the
control plane.  It commits a transaction, or it asks the worker for a reload or lets it come to the
end of one, or it tells that a subscription was updated, or nothing comes of it that the store or
the events would show.  What is to be proved of every step, whichever operation it belongs to, needs
no more cases than these.

## What is here

* `Plane.Mute` — a change that neither the store nor the events show.
* `Plane.Step` — what one step does, labelled with the store that it commits, if it commits one.
* `Operation.Stepwise` — the steps of an operation do nothing else.
* `transact_stepwise`, `gated_stepwise`, … — the parts of operations.
* `Edit.stepwise`, `Command.stepwise`, `Turn.stepwise` — all that can be asked of the control plane.
-/

set_option autoImplicit false
namespace ProxyPlane

open Routine

namespace Plane

/-! ## Steps -/

/-- A change that neither the store nor the events show, nor what is counted of them. -/
structure Mute (p p' : Plane) : Prop where
  store : p'.store = p.store
  drifted : p'.drifted = p.drifted
  bus : p'.worker.feed.bus = p.worker.feed.bus
  events : p'.worker.feed.metrics.events = p.worker.feed.metrics.events

/-- What one step does to a control plane, with the store that it commits, if it commits one. -/
inductive Step (p : Plane) : Option Store → Plane → Prop
  | mute {p' : Plane} (h : p.Mute p') : p.Step none p'
  /-- What is committed is what a transaction has made of the store. -/
  | commit {α : Type} {t : Transaction α} {a : α} {s s' : Store} (hs : p.store = some s)
    (ht : t.on s = (.ok a, s')) (marked : Option Bool) : p.Step (some s') (p.commit s' marked)
  | request (snapshot : Snapshot) :
    p.Step none { p with worker := (p.worker.request snapshot).2 }
  | complete : p.Step none { p with worker := p.worker.complete.2 }
  | updated (id nodes : Nat) : p.Step none (p.emit (.subscriptionUpdated id nodes))

/-- One step, whether it commits or not. -/
def Steps (p p' : Plane) : Prop := ∃ committed, p.Step committed p'

variable {p p' p'' : Plane} {row : Subscription}

theorem Mute.refl (p : Plane) : p.Mute p := ⟨rfl, rfl, rfl, rfl⟩

theorem Mute.trans (h : p.Mute p') (h' : p'.Mute p'') : p.Mute p'' :=
  ⟨h'.store.trans h.store, h'.drifted.trans h.drifted, h'.bus.trans h.bus,
    h'.events.trans h.events⟩

theorem Mute.steps (h : p.Mute p') : p.Steps p' := ⟨none, .mute h⟩

theorem steps_refl (p : Plane) : p.Steps p := (Mute.refl p).steps

/-! ## Jobs -/

/-- Any number of mute changes. -/
theorem mute_foldl {γ : Type} {f : Plane → γ → Plane} (h : ∀ (p : Plane) c, p.Mute (f p c))
    (cs : List γ) (p : Plane) : p.Mute (cs.foldl f p) := by
  induction cs generalizing p with
  | nil => exact .refl p
  | cons c rest ih => exact (h p c).trans (ih (f p c))

theorem mute_unschedule (p : Plane) (id : Id) : p.Mute (p.unschedule id) := ⟨rfl, rfl, rfl, rfl⟩

theorem mute_schedule (h : p.schedule row = .ok p') : p.Mute p' := by
  rw [schedule] at h
  split at h
  · cases h
    exact p.mute_unschedule row.id
  · cases hread : readSchedule row.schedule with
    | error e => rw [hread] at h; cases h
    | ok schedule =>
      rw [hread] at h
      cases h
      exact ⟨rfl, rfl, rfl, rfl⟩

theorem mute_scheduleIfReadable (p : Plane) (row : Subscription)
    (noted : List (String × LogValue)) : p.Mute (p.scheduleIfReadable row noted) := by
  rw [scheduleIfReadable]
  split
  · next h => exact mute_schedule h
  · exact ⟨rfl, rfl, rfl, rfl⟩

end Plane

/-! ## Operations -/

namespace Operation
open Plane Transaction

variable {α : Type}

/-- An operation whose steps do what steps can do. -/
abbrev Stepwise (op : Operation α) : Prop := op.steps.Within Steps

/-- A step that neither the store nor the events show. -/
theorem atomic_stepwise {f : Plane → Except ControlError α × Plane}
    (h : ∀ p : Plane, p.Mute (f p).2) : (atomic f).Stepwise :=
  atomic_within fun p => (h p).steps

theorem modify_stepwise {f : Plane → Plane} (h : ∀ p : Plane, p.Mute (f p)) :
    (modify f).Stepwise :=
  atomic_stepwise h

/-- **A transaction** commits, or it leaves everything as it was. -/
theorem transact_stepwise (t : Transaction (α × Closing)) : (transact t).Stepwise := by
  refine transact_within steps_refl fun p s hs => ?_
  exact fun _ s' hon marked _ => ⟨some s', .commit hs hon marked⟩

theorem read_stepwise (t : Transaction α) : (read t).Stepwise := transact_stepwise _

theorem look_stepwise (f : Store → α) : (look f).Stepwise := read_stepwise _

theorem change_stepwise (t : Transaction α) : (change t).Stepwise := transact_stepwise _

/-! ### The engine -/

theorem covers_steps : Covers Steps where
  word _ _ hbus hevents := Mute.steps ⟨rfl, rfl, hbus, hevents⟩
  request _ snapshot := ⟨none, .request snapshot⟩
  complete _ := ⟨none, .complete⟩

/-- Whatever transaction it is, a step may commit it. -/
theorem spans_steps : Spans (Store.Changes Store.KeepsGroups) Steps :=
  ⟨covers_steps, admits_changes, fun _ => transact_stepwise _⟩

/-- **The gate** commits nothing itself. -/
theorem gated_stepwise {op : Operation α} (h : op.Stepwise) : (gated op).Stepwise := by
  refine gated_within (fun p => Mute.steps ?_) (fun p => Mute.steps ⟨rfl, rfl, rfl, rfl⟩) h
  rw [acquire]
  split <;> exact ⟨rfl, rfl, rfl, rfl⟩

/-! ### Subscriptions -/

theorem fetch_stepwise (link : String) : (fetch link).Stepwise := atomic_stepwise Mute.refl

theorem importing_stepwise (refusal : Refusal) (t : Transaction (Option Report)) :
    (importing refusal t).Stepwise := by
  refine (transact_stepwise _).andThen fun report => ?_
  cases report <;> trivial

theorem tellUpdated_stepwise (report : Report) : (tellUpdated report).Stepwise :=
  modify_within fun _ => ⟨none, .updated _ _⟩

theorem importSubscription_stepwise (link : String) (tag : Option String) :
    (Operation.importSubscription link tag).Stepwise := by
  unfold Operation.importSubscription
  extract_lets rest
  have hrest : ∀ u, (rest u).Stepwise := by
    intro _
    refine (fetch_stepwise link).andThen fun links => ?_
    refine (importing_stepwise _ _).andThen fun report => ?_
    refine (modify_stepwise fun p => p.mute_scheduleIfReadable _ _).andThen fun _ => ?_
    exact (tellUpdated_stepwise report).andThen fun _ => trivial
  split
  · exact check_within.andThen hrest
  · exact hrest ()

theorem updateSubscription_stepwise (id : Id) : (Operation.updateSubscription id).Stepwise := by
  refine (read_stepwise _).andThen fun row => ?_
  refine Within.andThen ((fetch_stepwise _).orElse fun e => ?_) fun links => ?_
  · exact (change_stepwise _).andThen fun _ => trivial
  · refine (importing_stepwise _ _).andThen fun report => ?_
    exact (tellUpdated_stepwise report).andThen fun _ => trivial

theorem removeSubscriptions_stepwise (ids : List Id) :
    (Operation.removeSubscriptions ids).Stepwise := by
  refine (change_stepwise _).andThen fun removed => ?_
  exact (modify_stepwise (mute_foldl mute_unschedule ids)).andThen fun _ => trivial

theorem setSchedule_stepwise (id : Id) (expression : Option String) (scheduled : Option Bool) :
    (Operation.setSchedule id expression scheduled).Stepwise := by
  unfold Operation.setSchedule
  extract_lets rest
  have hrest : ∀ u, (rest u).Stepwise := by
    intro _
    refine (change_stepwise _).andThen fun row => atomic_stepwise fun p => ?_
    split
    · next h => exact mute_schedule h
    · exact .refl p
  split
  · exact check_within.andThen fun _ => hrest ()
  · exact hrest ()

theorem startScheduler_stepwise : Operation.startScheduler.Stepwise := by
  rw [startScheduler, subscriptions]
  refine (look_stepwise _).andThen fun rows => atomic_stepwise fun p => ?_
  have hall := mute_foldl (fun p (row : Subscription) =>
    p.mute_scheduleIfReadable row [("cron", .text row.schedule)]) rows p
  exact hall.trans ⟨rfl, rfl, rfl, rfl⟩

theorem refresh_stepwise (job : Job) : (Operation.refresh job).Stepwise := by
  refine refresh_within steps_refl (updateSubscription_stepwise _) fun p next _ => ?_
  exact Mute.steps ⟨rfl, rfl, rfl, rfl⟩

end Operation

/-! ## All operations -/

theorem Edit.stepwise (e : Edit) : e.operation.Stepwise := by
  open Operation in
  cases e with
  | createSection kind name body =>
    exact ignore_within (check_within.andThen fun _ => check_within.andThen fun _ =>
      change_stepwise _) _
  | updateSection kind id body =>
    exact ignore_within (check_within.andThen fun _ => change_stepwise _) _
  | renameSection kind id name =>
    exact ignore_within (check_within.andThen fun _ => change_stepwise _) _
  | createGroup name policy params =>
    exact ignore_within (check_within.andThen fun _ => change_stepwise _) _
  | setPolicy id policy params =>
    exact ignore_within (check_within.andThen fun _ => change_stepwise _) _
  | renameGroup | removeGroups | attachNodes | detachNodes | attachSubscriptions
  | detachSubscriptions | importNodes | removeNodes | tagNode | tagSubscription =>
    exact ignore_within (change_stepwise _) _
  | importSubscription link tag => exact ignore_within (importSubscription_stepwise link tag) _
  | updateSubscription id => exact ignore_within (updateSubscription_stepwise id) _
  | removeSubscriptions ids => exact ignore_within (removeSubscriptions_stepwise ids) _
  | setSchedule id expression scheduled =>
    exact ignore_within (setSchedule_stepwise id expression scheduled) _
  | startScheduler => exact ignore_within startScheduler_stepwise _
  | refresh job => exact refresh_stepwise job

theorem Command.stepwise (c : Command) : c.operation.Stepwise := by
  open Operation in
  cases c with
  | run dry => exact gated_stepwise (starting_within spans_steps dry)
  | selectSection kind id => exact gated_stepwise (choosing_within spans_steps kind id)
  | removeSection kind id =>
    exact ignore_within (gated_stepwise (removing_within spans_steps kind id)) _
  | edit e => exact ignore_within e.stepwise _

/-- **Whatever is done in a turn**, each of its steps does what steps can do. -/
theorem Turn.stepwise (t : Turn) : t.operation.Stepwise := by
  open Operation in
  cases t with
  | ask c => exact ignore_within c.stepwise _
  | resume =>
    have hgated : (gated (starting false)).Stepwise :=
      gated_stepwise (starting_within spans_steps false)
    exact ignore_within (resume_within spans_steps hgated) _
  | sleep seconds => exact modify_stepwise fun p => ⟨rfl, rfl, rfl, rfl⟩
  | stopScheduler => exact modify_stepwise fun p => ⟨rfl, rfl, rfl, rfl⟩
  | change weather => exact modify_stepwise fun p => ⟨rfl, rfl, rfl, rfl⟩

end ProxyPlane
