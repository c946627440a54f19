import ProxyPlane.Proofs.Decision
import ProxyPlane.Proofs.Traffic

/-!
# Operations one after another

The case in which nobody comes between the steps of an operation: one is asked for when the one
before it is done, whether that has succeeded or failed, while the weather changes as it likes.
What can be said of an operation that is left alone is more than what can be said of its steps among
those of others, since a step may rely on what the one before it has left behind.

## What is here

* `Turn`, `Plane.turn`, `Plane.turns` — what can happen, one after the other.
* `Plane.elapse_run` — to let time pass is one turn, and the refreshes that are due then are others.
* `Operation.Alone pre op good bad` — begun where `pre` holds and left alone, the operation leaves
  `good` behind if it succeeds and `bad` if it fails; with rules for the parts of operations.
* `Operation.launch_alone` — what is compiled is compiled from the store that was there.
-/

set_option autoImplicit false
namespace ProxyPlane

open Routine

/-- What can happen to a control plane while no operation is under way. -/
inductive Turn
  | ask (command : Command)
  | resume
  /-- Time passes for the jobs.  Those that wake up refresh in turns of their own. -/
  | sleep (seconds : Nat)
  | stopScheduler
  | change (weather : Weather)

/-- What is done in a turn, without its result. -/
def Turn.operation : Turn → Operation Unit
  | ask c => do let _ ← c.operation
  | resume => do let _ ← Operation.resume
  | sleep seconds => .modify fun p =>
    { p with jobs := p.jobs.map fun j => { j with sleep := j.sleep.map (· - seconds) } }
  | stopScheduler => .modify (·.stopScheduler)
  | change weather => .modify (·.under weather)

namespace Plane

/-- A control plane after a turn. -/
def turn (p : Plane) (t : Turn) : Plane := (t.operation.steps.run p).2

/-- A control plane after one turn after the other. -/
def turns (p : Plane) (ts : List Turn) : Plane := ts.foldl turn p

/-- The jobs that sleep no longer than some seconds. -/
def awake (p : Plane) (seconds : Nat) : List Job :=
  p.jobs.filter fun j => j.sleep.any fun s => s ≤ seconds

theorem turns_append (p : Plane) (ts ts' : List Turn) :
    p.turns (ts ++ ts') = (p.turns ts).turns ts' :=
  List.foldl_append

end Plane

namespace Operation

variable {α β : Type} {p : Plane}

/-- What is made of the result of an operation changes nothing. -/
theorem ignore_run (op : Operation α) (b : β) (p : Plane) :
    ((do let _ ← op; return b : Operation β).steps.run p).2 = (op.steps.run p).2 := by
  rcases h : op.steps.run p with ⟨e | a, p'⟩
  · exact congrArg Prod.snd (run_andThen_error h)
  · exact congrArg Prod.snd (run_andThen_ok h)

/-! ## Time -/

/-- A refresh does not fail: what goes wrong is left for the next one. -/
theorem refresh_returns (job : Job) : (refresh job).steps.Returns (· = .ok ()) := by
  refine Returns.bind (P := fun result => ∀ a, result = .ok a → a = ()) ?_ fun result _ => ?_
  · exact returns_all _ fun _ _ _ => rfl
  · cases result with
    | ok a => exact rfl
    | error e =>
      cases e with
      | noSuchRow => exact fun _ => rfl
      | _ => exact fun _ _ => rfl

/-- What a refresh does beside the update: the job goes back to sleep, or ends. -/
theorem refresh_within {R : Plane → Plane → Prop} {job : Job} (hrefl : ∀ p, R p p)
    (hupdate : (Operation.updateSubscription job.subscription).steps.Within R)
    (hasleep : ∀ (p : Plane) (next : Job), next.subscription = job.subscription →
      R p { p with
        jobs := p.jobs.map fun j => if j.subscription = job.subscription then next else j }) :
    (refresh job).steps.Within R := by
  have hnow : (Operation.atomic fun p => (.ok p.now, p)).steps.Within R := atomic_within hrefl
  refine Within.orElse (hupdate.andThen fun _ => ?_) fun e => ?_
  · exact hnow.andThen fun now => modify_within fun p => hasleep p _ rfl
  · split
    · exact modify_within fun p => hasleep p _ rfl
    · exact hnow.andThen fun now => modify_within fun p => hasleep p _ rfl

/-- Refreshes of some jobs, one after the other. -/
theorem forM_refresh_run (jobs : List Job) (p : Plane) :
    (jobs.forM refresh).steps.run p =
      (.ok (), p.turns (jobs.map fun job => .ask (.edit (.refresh job)))) := by
  induction jobs generalizing p with
  | nil => rfl
  | cons job rest ih =>
    have hrefresh : (refresh job).steps.run p =
        (.ok (), p.turn (.ask (.edit (.refresh job)))) := by
      refine Prod.ext ((refresh_returns job).run p) ?_
      rw [Plane.turn, Turn.operation, ignore_run]
      exact (ignore_run (refresh job) none p).symm
    exact (run_andThen_ok hrefresh).trans (ih _)

end Operation

/-- **Time that passes** is one turn, and so is each refresh that is due then. -/
theorem Plane.elapse_run (p : Plane) (seconds : Nat) :
    (Operation.elapse seconds).steps.run p = (.ok (p.awake seconds).length, p.turns
      (.sleep seconds :: (p.awake seconds).map fun job => .ask (.edit (.refresh job)))) := by
  have hsleep : (Operation.atomic fun p : Plane => (.ok (p.awake seconds),
        { p with jobs := p.jobs.map fun j =>
          { j with sleep := j.sleep.map (· - seconds) } })).steps.run p =
      (.ok (p.awake seconds), p.turn (.sleep seconds)) :=
    rfl
  refine (run_andThen_ok hsleep).trans ?_
  exact (run_andThen_ok (Operation.forM_refresh_run _ _)).trans rfl

/-! ## Operations that are left alone -/

namespace Operation
open Transaction

variable {α β : Type} {pre : Plane → Prop} {good : α → Plane → Prop} {bad : Plane → Prop}

/-- Begun where `pre` holds and left alone, an operation leaves `good` behind if it succeeds, and
`bad` if it fails. -/
abbrev Alone (pre : Plane → Prop) (op : Operation α) (good : α → Plane → Prop)
    (bad : Plane → Prop) : Prop :=
  op.steps.Meets Eq pre (Ends good fun _ => bad)

theorem stable_eq (P : Plane → Prop) : Stable Eq P := fun _ _ heq h => heq ▸ h

theorem alone_atomic {f : Plane → Except ControlError α × Plane}
    (h : ∀ p, pre p → Ends good (fun _ => bad) (f p).1 (f p).2) : (atomic f).Alone pre good bad :=
  Meets.atomic (fun _ => stable_eq _) h

theorem alone_modify {f : Plane → Plane} {good : Unit → Plane → Prop}
    (h : ∀ p, pre p → good () (f p)) : (modify f).Alone pre good bad :=
  alone_atomic h

/-- An operation whose steps keep a condition, whoever comes between them. -/
theorem alone_of_within {R : Plane → Plane → Prop} {op : Operation α} (h : op.steps.Within R)
    (hR : ∀ p p', R p p' → pre p → pre p') : op.Alone pre (fun _ => pre) pre := by
  refine (h.meets (stable_eq pre) hR).imp fun result p hp => ?_
  cases result <;> exact hp

/-- A check that is passed is known to be passed. -/
theorem alone_check {c : Except ControlError α} {f : α → Operation β} {good : β → Plane → Prop}
    (hbad : ∀ p, pre p → bad p) (h : ∀ a, c = .ok a → (f a).Alone pre good bad) :
    (check c >>= f).Alone pre good bad := by
  cases c with
  | ok a => exact h a rfl
  | error e => exact hbad

/-- A transaction leaves behind what its closing does, and nothing if it fails. -/
theorem alone_transact {t : Transaction (α × Closing)} (hbad : ∀ p, pre p → bad p)
    (h : ∀ p s, pre p → p.store = some s →
      t.Ensures s fun r s' => good r.1 (r.2.close p s')) :
    (transact t).Alone pre good bad := by
  refine alone_atomic fun p hp => ?_
  show Ends good (fun _ => bad) ((transact t).steps.run p).1 ((transact t).steps.run p).2
  rcases hs : p.store with _ | s
  · rw [transact_run_none hs]
    exact hbad p hp
  · rcases hon : t.on s with ⟨e | ⟨a, closing⟩, s'⟩
    · rw [transact_run_error hs hon]
      exact hbad p hp
    · rw [transact_run_ok hs hon]
      exact h p s hp hs _ s' hon

theorem alone_change {t : Transaction α} (hbad : ∀ p, pre p → bad p)
    (h : ∀ p s, pre p → p.store = some s → t.Ensures s fun a s' => good a (p.commit s' none)) :
    (change t).Alone pre good bad :=
  alone_transact hbad fun p s hp hs => ensures_map.2 (h p s hp hs)

/-! ### Operations on the engine -/

section Engine
variable {I : Plane → Prop} {P : α → Prop} {s : Store} {op : Operation α}

/-- What is counted in the end does not change what is known. -/
theorem counted_alone {outcome : String} {dry : Bool} (hcovers : Covers fun p p' => I p → I p')
    (h : op.Alone I (fun a p => I p ∧ P a) I) :
    (counted outcome dry op).Alone I (fun a p => I p ∧ P a) I := by
  refine Meets.bind h fun result p hp =>
    ⟨Ends (fun a p => I p ∧ P a) (fun _ => I) result, stable_eq _, ?_, fun _ h => h⟩
  cases result with
  | ok a => exact ⟨hcovers.word p _ rfl rfl hp.1, hp.2⟩
  | error e => exact hcovers.word p _ rfl rfl hp

/-- **A launch that is left alone** gives what was compiled from the store. -/
theorem launch_alone {candidate : Option Section} (hcovers : Covers fun p p' => I p → I p')
    (hI : ∀ p, I p → p.store = some s) :
    (launch candidate).Alone I (fun q p => I p ∧ s.prepare candidate = .ok q) I := by
  refine counted_alone hcovers ?_
  refine Meets.andThen (?_ : Alone I _ (fun q p => I p ∧ s.prepare candidate = .ok q) I)
    fun q => ?_
  · refine alone_atomic fun p hp => ?_
    rw [hI p hp]
    show Ends _ _ (s.prepare candidate) p
    cases hq : s.prepare candidate with
    | ok q => exact ⟨hp, rfl⟩
    | error e => exact hp
  · have hkept {β : Type} {op : Operation β} (hop : op.steps.Within fun p p' => I p → I p') :
        op.Alone (fun p => I p ∧ s.prepare candidate = .ok q)
          (fun _ p => I p ∧ s.prepare candidate = .ok q) I :=
      (alone_of_within hop fun _ _ hR hp => ⟨hR hp.1, hp.2⟩).ends (fun _ _ hp => hp)
        fun _ _ hp => hp.1
    refine Meets.andThen (hkept (modify_within ?_)) fun _ => ?_
    · exact fun p => hcovers.word p _ rfl rfl
    · exact (hkept (submit_within hcovers _)).andThen fun _ _ hp => hp

/-- The gate is of no account for what is known of an operation, if it is free or refuses. -/
theorem gated_alone (h : op.Alone pre good bad)
    (hacquire : ∀ p, pre p → p.gate = false → pre (acquire p))
    (hbusy : ∀ p, pre p → p.gate = true → bad (acquire p))
    (hgood : ∀ a p, good a p → good a { p with gate := false })
    (hbad : ∀ p, bad p → bad { p with gate := false }) : (gated op).Alone pre good bad := by
  show (gated op).steps.Meets _ _ _
  rw [gated_steps]
  intro p hp
  dsimp only
  cases hgate : p.gate with
  | true => exact ⟨bad, stable_eq bad, hbusy p hp hgate, fun _ h => h⟩
  | false =>
    refine ⟨pre, stable_eq pre, hacquire p hp hgate, Meets.bind h fun result p hp => ?_⟩
    refine ⟨Ends good (fun _ => bad) result, stable_eq _, ?_, fun _ h => h⟩
    cases result with
    | ok a => exact hgood a p hp
    | error e => exact hbad p hp

end Engine

end Operation
end ProxyPlane
