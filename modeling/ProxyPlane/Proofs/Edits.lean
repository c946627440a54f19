import ProxyPlane.Control.Groups
import ProxyPlane.Control.Sections
import ProxyPlane.Control.Subscriptions
import ProxyPlane.Proofs.Groups
import ProxyPlane.Proofs.Plane
import ProxyPlane.Proofs.Subscriptions

/-!
# Edits

The operations that do not go through the gate: they change the store and the schedules and leave
the engine alone.  Most of them are one transaction; those that fetch a subscription are several,
and nothing is locked between them.

## What is here

* `Edit`, `Edit.operation` — the operations as data.
* `Edit.once` — each step of an edit keeps aside from the gate and the engine and keeps all groups,
  but for one step at most, which moves the groups it touches by one version.
-/

set_option autoImplicit false
namespace ProxyPlane

/-- An operation that does not go through the gate. -/
inductive Edit
  | createSection (kind : SectionKind) (name body : String)
  | updateSection (kind : SectionKind) (id : Id) (body : String)
  | renameSection (kind : SectionKind) (id : Id) (name : String)
  | createGroup (name policy : String) (params : List PolicyParam)
  | renameGroup (id : Id) (name : String)
  | removeGroups (ids : List Id)
  | setPolicy (id : Id) (policy : String) (params : List PolicyParam)
  | attachNodes (id : Id) (nodes : List Id)
  | detachNodes (id : Id) (nodes : List Id)
  | attachSubscriptions (id : Id) (subscriptions : List Id)
  | detachSubscriptions (id : Id) (subscriptions : List Id)
  | importNodes (nodes : List NewNode) (abort : Bool)
  | removeNodes (ids : List Id)
  | tagNode (id : Id) (tag : String)
  | importSubscription (link : String) (tag : Option String)
  | updateSubscription (id : Id)
  | removeSubscriptions (ids : List Id)
  | setSchedule (id : Id) (expression : Option String) (scheduled : Option Bool)
  | tagSubscription (id : Id) (tag : String)
  | startScheduler
  /-- A job that has woken up. -/
  | refresh (job : Job)

/-- What an edit does, without its result. -/
def Edit.operation : Edit → Operation Unit
  | createSection kind name body => do let _ ← Operation.createSection kind name body
  | updateSection kind id body => do let _ ← Operation.updateSection kind id body
  | renameSection kind id name => do let _ ← Operation.renameSection kind id name
  | createGroup name policy params => do let _ ← Operation.createGroup name policy params
  | renameGroup id name => do let _ ← Operation.renameGroup id name
  | removeGroups ids => do let _ ← Operation.removeGroups ids
  | setPolicy id policy params => do let _ ← Operation.setPolicy id policy params
  | attachNodes id nodes => do let _ ← Operation.attachNodes id nodes
  | detachNodes id nodes => do let _ ← Operation.detachNodes id nodes
  | attachSubscriptions id subscriptions =>
    do let _ ← Operation.attachSubscriptions id subscriptions
  | detachSubscriptions id subscriptions =>
    do let _ ← Operation.detachSubscriptions id subscriptions
  | importNodes nodes abort => do let _ ← Operation.importNodes nodes abort
  | removeNodes ids => do let _ ← Operation.removeNodes ids
  | tagNode id tag => do let _ ← Operation.tagNode id tag
  | importSubscription link tag => do let _ ← Operation.importSubscription link tag
  | updateSubscription id => do let _ ← Operation.updateSubscription id
  | removeSubscriptions ids => do let _ ← Operation.removeSubscriptions ids
  | setSchedule id expression scheduled => do let _ ← Operation.setSchedule id expression scheduled
  | tagSubscription id tag => do let _ ← Operation.tagSubscription id tag
  | startScheduler => do let _ ← Operation.startScheduler
  | refresh job => Operation.refresh job

namespace Operation
open Routine Store Transaction

/-- A step that keeps all groups, aside from the engine. -/
abbrev Quiet : Plane → Plane → Prop := Plane.Aside KeepsGroups

/-- A step that moves the groups it touches by one version, aside from the engine. -/
abbrev Loud : Plane → Plane → Prop := Plane.Aside MovesGroups

variable {α β : Type}

theorem ignore_within {R : Plane → Plane → Prop} {op : Operation α}
    (h : op.steps.Within R) (b : β) : (do let _ ← op; return b : Operation β).steps.Within R :=
  h.andThen fun _ => trivial

theorem ignore_once {R Q : Plane → Plane → Prop} {op : Operation α}
    (h : op.steps.Once R Q) (b : β) : (do let _ ← op; return b : Operation β).steps.Once R Q :=
  h.andThen fun _ => trivial

/-! ## Jobs -/

theorem jobs_quiet (p : Plane) (jobs : List Job) : Quiet p { p with jobs } :=
  Plane.aside_of_eq rfl (.refl _) rfl

theorem unscheduleAll_quiet (ids : List Id) (p : Plane) :
    Quiet p (ids.foldl Plane.unschedule p) := by
  induction ids generalizing p with
  | nil => exact Plane.aside_refl p
  | cons id rest ih => exact (jobs_quiet p _).trans (ih _)

theorem schedule_quiet {p p' : Plane} {row : Subscription} (h : p.schedule row = .ok p') :
    Quiet p p' := by
  rw [Plane.schedule] at h
  split at h
  · cases h; exact jobs_quiet p _
  · cases hread : readSchedule row.schedule with
    | error e => rw [hread] at h; cases h
    | ok schedule =>
      rw [hread] at h
      cases h
      exact Plane.aside_of_eq rfl ⟨rfl, rfl, rfl, rfl, rfl⟩ rfl

theorem scheduleIfReadable_quiet (p : Plane) (row : Subscription)
    (noted : List (String × LogValue)) : Quiet p (p.scheduleIfReadable row noted) := by
  rw [Plane.scheduleIfReadable]
  split
  · next h => exact schedule_quiet h
  · exact p.aside_note _ _ _

/-! ## Subscriptions from afar -/

theorem fetch_quiet (link : String) : (fetch link).steps.Within Quiet :=
  atomic_within Plane.aside_refl

/-- What an import does, it does with its closing. -/
theorem importing_does {R : Store → Store → Prop} {t : Transaction (Option Report)} (h : t.Does R) :
    (do
      match ← t with
      | some report => return (some report, .commit none)
      | none => return (none, .rollback) : Transaction (Option Report × Closing)).Does R := by
  intro s hs
  refine ensures_bind.2 ((h s hs).mono fun report s' hR => ?_)
  cases report <;> exact ensures_pure.2 hR

theorem importing_quiet {t : Transaction (Option Report)} (refusal : Refusal)
    (h : t.Does (Edits KeepsGroups)) : (importing refusal t).steps.Within Quiet := by
  refine (transact_quiet (importing_does h)).andThen fun report => ?_
  cases report <;> trivial

theorem importing_loud {t : Transaction (Option Report)} (refusal : Refusal)
    (h : t.Does (Edits MovesGroups)) : (importing refusal t).steps.Once Quiet Loud := by
  refine (transact_loud (importing_does h)).andThen fun report => ?_
  cases report <;> trivial

theorem tellUpdated_quiet (report : Report) : (tellUpdated report).steps.Within Quiet :=
  modify_within fun p => p.aside_tell _

theorem importSubscription_quiet (link : String) (tag : Option String) :
    (Operation.importSubscription link tag).steps.Within Quiet := by
  unfold Operation.importSubscription
  extract_lets rest
  have hrest : ∀ u, (rest u).steps.Within Quiet := by
    intro _
    refine (fetch_quiet link).andThen fun links => ?_
    refine (importing_quiet _ ?_).andThen fun report => ?_
    · exact newSubscription_does link tag false _ fun row results =>
        if countImported results = 0 then none else some (Report.mk row results)
    · refine (modify_within fun p => scheduleIfReadable_quiet p _ _).andThen fun _ => ?_
      exact (tellUpdated_quiet report).andThen fun _ => trivial
  split
  · exact check_within.andThen hrest
  · exact hrest ()

/-- The transaction of a refresh: the nodes are replaced, and the failure before is forgotten. -/
theorem refreshNodes_does (id : Id) (links : List String) :
    (do
      let results ← replaceNodes id links
      if countImported results = 0 then return none
      setStatus id ""
      return some ⟨← subscription id, results⟩ : Transaction (Option Report)).Does
      (Edits MovesGroups) := by
  intro s h
  refine ensures_bind.2 ((replaceNodes_does links s h).mono fun results s' hmoved => ?_)
  refine ensures_ite.2 ⟨fun _ => ensures_pure.2 hmoved, fun _ => ?_⟩
  refine ensures_bind.2 ((setStatus_does "" s' hmoved.valid).mono fun _ s'' hkept => ?_)
  simp only [ensures_bind, ensures_subscription, ensures_pure]
  exact fun _ _ => hmoved.trans hkept MovesGroups.then_keeps

theorem updateSubscription_once (id : Id) :
    (Operation.updateSubscription id).steps.Once Quiet Loud := by
  refine (read_within _ Plane.aside_refl).andThenOnce fun row => ?_
  refine Within.andThenOnce (Within.orElse (fetch_quiet _) fun e => ?_) fun links => ?_
  · exact (change_quiet (setStatus_does _)).andThen fun _ => trivial
  · refine (importing_loud _ (refreshNodes_does id links)).andThen fun report => ?_
    exact (tellUpdated_quiet report).andThen fun _ => trivial

theorem removeSubscriptions_once (ids : List Id) :
    (Operation.removeSubscriptions ids).steps.Once Quiet Loud := by
  refine (change_loud (removeSubscriptions_does ids)).andThen fun removed => ?_
  refine (modify_within fun p => ?_).andThen fun _ => trivial
  exact unscheduleAll_quiet ids p

theorem setSchedule_quiet (id : Id) (expression : Option String) (scheduled : Option Bool) :
    (Operation.setSchedule id expression scheduled).steps.Within Quiet := by
  unfold Operation.setSchedule
  extract_lets rest
  have hrest : ∀ u, (rest u).steps.Within Quiet := by
    intro _
    refine (change_quiet (setSchedule_does expression scheduled)).andThen fun row => ?_
    refine atomic_within fun p => ?_
    split
    · next h => exact schedule_quiet h
    · exact Plane.aside_refl p
  split
  · exact check_within.andThen fun _ => hrest ()
  · exact hrest ()

theorem startScheduler_quiet : Operation.startScheduler.steps.Within Quiet := by
  rw [startScheduler, subscriptions, look]
  refine (read_within _ Plane.aside_refl).andThen fun rows => ?_
  refine atomic_within fun p => ?_
  refine Plane.Aside.trans ?_ (Plane.aside_note _ _ _ _)
  induction rows generalizing p with
  | nil => exact Plane.aside_refl p
  | cons row rest ih => exact (scheduleIfReadable_quiet p row _).trans (ih _)

theorem refresh_once (job : Job) : (Operation.refresh job).steps.Once Quiet Loud := by
  have hasleep (next : Job) :
      (Operation.modify fun p => { p with
        jobs := p.jobs.map fun j => if j.subscription = job.subscription then next else j
      }).steps.Within Quiet :=
    modify_within fun p => jobs_quiet p _
  have hnow : (Operation.atomic fun p => (.ok p.now, p)).steps.Within Quiet :=
    atomic_within Plane.aside_refl
  refine Once.orElse ((updateSubscription_once job.subscription).andThen fun _ => ?_) fun e => ?_
  · exact hnow.andThen fun now => hasleep _
  · split
    · exact hasleep _
    · exact hnow.andThen fun now => hasleep _

end Operation

/-- **Edits keep aside**: of the steps of an edit, all but one at most keep every group, and that
one moves the groups that it touches by one version. -/
theorem Edit.once (e : Edit) : e.operation.steps.Once Operation.Quiet Operation.Loud := by
  open Routine Operation Transaction in
  cases e with
  | createSection kind name body =>
    refine ignore_once (Within.once ?_) _
    exact check_within.andThen fun _ => check_within.andThen fun _ =>
      change_quiet (createSection_does name body)
  | updateSection kind id body =>
    refine ignore_once (Within.once ?_) _
    exact check_within.andThen fun _ => change_quiet (updateSection_does body)
  | renameSection kind id name =>
    refine ignore_once (Within.once ?_) _
    exact check_within.andThen fun _ => change_quiet (renameSection_does name)
  | createGroup name policy params =>
    refine ignore_once (Within.once ?_) _
    exact check_within.andThen fun _ => change_quiet (createGroup_does name policy params)
  | renameGroup id name => exact ignore_once (change_loud (renameGroup_does name)) _
  | removeGroups ids => exact ignore_once (change_quiet (removeGroups_does ids)).once _
  | setPolicy id policy params =>
    refine ignore_once ?_ _
    exact check_within.andThenOnce fun _ => change_loud (setPolicy_does policy params)
  | attachNodes id nodes => exact ignore_once (change_loud (attachNodes_does nodes)) _
  | detachNodes id nodes => exact ignore_once (change_loud (detachNodes_does nodes)) _
  | attachSubscriptions id subscriptions =>
    exact ignore_once (change_loud (attachSubscriptions_does subscriptions)) _
  | detachSubscriptions id subscriptions =>
    exact ignore_once (change_loud (detachSubscriptions_does subscriptions)) _
  | importNodes nodes abort =>
    exact ignore_once (change_quiet (importNodes_does abort nodes)).once _
  | removeNodes ids => exact ignore_once (change_loud (removeNodes_does ids)) _
  | tagNode id tag => exact ignore_once (change_loud (tagNode_does tag)) _
  | importSubscription link tag => exact ignore_once (importSubscription_quiet link tag).once _
  | updateSubscription id => exact ignore_once (updateSubscription_once id) _
  | removeSubscriptions ids => exact ignore_once (removeSubscriptions_once ids) _
  | setSchedule id expression scheduled =>
    exact ignore_once (setSchedule_quiet id expression scheduled).once _
  | tagSubscription id tag => exact ignore_once (change_quiet (tagSubscription_does tag)).once _
  | startScheduler => exact ignore_once startScheduler_quiet.once _
  | refresh job => exact refresh_once job

end ProxyPlane
