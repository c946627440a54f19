import ProxyPlane.Proofs.Command
import ProxyPlane.Proofs.Reports

/-!
# What operations report

Every step of an operation reports: a transaction tells what its commit has caused, a request tells
what the worker does, and all else tells nothing.

## What is here

* `Plane.Silent` — a change of the control plane that tells nothing.
* `Plane.commit_reports` — what a commit tells.
* `Routine.Reporting` — every step of a routine reports.
* `Operation.transact_reporting`, `reload_reporting`, `gated_reporting` — the parts of operations.
* `Edit.reporting`, `Command.reporting`, `Operation.resume_reporting`,
  `Operation.elapse_reporting` — all that can be asked of the control plane.
-/

set_option autoImplicit false
namespace ProxyPlane

/-! ## The control plane -/

namespace Plane

/-- The control plane with its events on another bus. -/
def onBus (p : Plane) (bus : Bus) : Plane := { p with worker := p.worker.onBus bus }

@[simp] theorem onBus_store (p : Plane) (bus : Bus) : (p.onBus bus).store = p.store := rfl

@[simp] theorem onBus_gate (p : Plane) (bus : Bus) : (p.onBus bus).gate = p.gate := rfl

/-- A step of the control plane that reports. -/
abbrev Reports {α : Type} (step : Plane → α × Plane) (p : Plane) : Prop :=
  ProxyPlane.Reports onBus worker step p

/-- A change that tells nothing and counts nothing of what is told. -/
structure Silent (f : Plane → Plane) : Prop where
  onBus : ∀ p bus, f (p.onBus bus) = (f p).onBus bus
  agrees : ∀ p told, p.worker.Agrees told → (f p).worker.Agrees told

variable {p : Plane}

theorem Silent.reports {f : Plane → Plane} (h : Silent f) (p : Plane) :
    p.Reports fun p => ((), f p) :=
  reports_still () (f p) (fun bus => congrArg (Prod.mk ()) (h.onBus p bus)) (h.agrees p)

/-- What is told by the worker. -/
theorem reports_worker {α : Type} {step : Worker → α × Worker} (h : p.worker.Reports step) :
    p.Reports fun p => ((step p.worker).1, { p with worker := (step p.worker).2 }) := by
  obtain ⟨a, w, moves, hbus, htold⟩ := h
  refine ⟨a, { p with worker := w }, moves, fun bus => ?_, htold⟩
  simp only [Plane.onBus, hbus]

/-! ### Silent changes -/

/-- A word to observers that has nothing to do with events. -/
theorem silent_tell {f : Feed → Feed} (hbus : ∀ feed bus, f { feed with bus } = { f feed with bus })
    (hmetrics : ∀ feed : Feed, feed.metrics.SameTold (f feed).metrics) : Silent (·.tell f) where
  onBus p bus :=
    congrArg (fun feed => { p with worker := { p.worker with feed } }) (hbus p.worker.feed bus)
  agrees _ _ h := h.congr (hmetrics _) rfl fun _ => rfl

theorem silent_note (level : LogLevel) (message : String) (fields : List (String × LogValue)) :
    Silent (·.note level message fields) :=
  silent_tell (fun _ _ => rfl) fun _ => ⟨rfl, rfl, rfl, rfl⟩

theorem silent_countRun (outcome : String) : Silent (·.tell (·.measure (·.countRun outcome))) :=
  silent_tell (fun _ _ => rfl) fun _ => ⟨rfl, rfl, rfl, rfl⟩

theorem Silent.comp {f g : Plane → Plane} (hg : Silent g) (hf : Silent f) :
    Silent fun p => g (f p) where
  onBus p bus := by rw [hf.onBus, hg.onBus]
  agrees p told h := hg.agrees _ _ (hf.agrees p told h)

/-- Any number of silent changes. -/
theorem silent_foldl {γ : Type} {f : Plane → γ → Plane} (h : ∀ c, Silent (f · c)) (cs : List γ) :
    Silent fun p => cs.foldl f p := by
  induction cs with
  | nil => exact ⟨fun _ _ => rfl, fun _ _ h => h⟩
  | cons c rest ih => exact ih.comp (h c)

theorem silent_unschedule (id : Id) : Silent (·.unschedule id) :=
  ⟨fun _ _ => rfl, fun _ _ h => h⟩

theorem schedule_onBus (p : Plane) (bus : Bus) (s : Subscription) :
    (p.onBus bus).schedule s = (p.schedule s).map (·.onBus bus) := by
  simp only [schedule]
  split
  · rfl
  · cases readSchedule s.schedule <;> rfl

theorem schedule_agrees {p' : Plane} {s : Subscription} (h : p.schedule s = .ok p')
    {told : List Event} (htold : p.worker.Agrees told) : p'.worker.Agrees told := by
  rw [schedule] at h
  split at h
  · cases h
    exact htold
  · cases hread : readSchedule s.schedule with
    | error e => rw [hread] at h; cases h
    | ok schedule =>
      rw [hread] at h
      cases h
      exact (silent_note _ _ _).agrees _ _ htold

theorem silent_scheduleIfReadable (s : Subscription) (noted : List (String × LogValue)) :
    Silent (·.scheduleIfReadable s noted) where
  onBus p bus := by
    rw [scheduleIfReadable, scheduleIfReadable, schedule_onBus]
    cases p.schedule s <;> rfl
  agrees p told h := by
    rw [scheduleIfReadable]
    split
    · next hschedule => exact schedule_agrees hschedule h
    · exact (silent_note _ _ _).agrees _ _ h

/-! ### Commits -/

/-- The second half of a commit: a drift is told once until the store is in step again. -/
def drifts (drift : Option Drift) (p : Plane) : Plane :=
  match drift with
  | none => { p with drifted := false }
  | some drift =>
    let p := if p.drifted then p
      else (p.note .info "running configuration is out of date"
        [("reason", .text drift.message)]).emit .driftDetected
    { p with drifted := true }

theorem drifts_reports (p : Plane) (drift : Option Drift) :
    p.Reports fun p => ((), p.drifts drift) := by
  cases drift with
  | none => exact reports_still () { p with drifted := false } (fun _ => rfl) fun _ h => h
  | some drift =>
    cases hdrifted : p.drifted with
    | true =>
      refine reports_still () { p with drifted := true } (fun bus => ?_) fun _ h => h
      rw [drifts, if_pos (by exact hdrifted)]
      rfl
    | false =>
      have hnote := silent_note .info "running configuration is out of date"
        [("reason", .text drift.message)]
      refine reports_news () (p.drifts (some drift)) [.driftDetected] (fun bus => ?_)
        fun told h => ?_
      · rw [drifts, drifts, if_neg (by simp [onBus, hdrifted]), if_neg (by simp [hdrifted])]
        rfl
      · rw [drifts, if_neg (by simp [hdrifted])]
        exact (hnote.agrees p told h).emit rfl rfl

/-- **A commit** tells what the transaction was about, and that the store has drifted if it has not
been told yet. -/
theorem commit_reports (p : Plane) (store : Store) (marked : Option Bool) :
    p.Reports fun p => ((), p.commit store marked) := by
  cases marked with
  | none =>
    have hstore : p.Reports fun p => ((), { p with store := some store }) :=
      reports_still () { p with store := some store } (fun _ => rfl) fun _ h => h
    exact hstore.andThen fun p => p.drifts_reports (store.drift.filter (· ≠ .notRunning))
  | some running =>
    set event : Event := .runningChanged running
    have hmarked : p.Reports fun p => ((), { p with store := some store }.emit event) :=
      reports_news () ({ p with store := some store }.emit event) [event] (fun _ => rfl)
        fun _ h => h.emit rfl rfl
    exact hmarked.andThen fun p => p.drifts_reports (store.drift.filter (· ≠ .notRunning))

end Plane

/-! ## Routines -/

namespace Routine
variable {α β ε : Type}

/-- Every step reports, and what is left after it does not depend on the bus either. -/
def Reporting : Routine Plane α → Prop
  | done _ => True
  | step change rest => ∀ p : Plane, p.Reports (fun p => (rest p, change p)) ∧ (rest p).Reporting

theorem Reporting.bind {r : Routine Plane α} {f : α → Routine Plane β} (h : r.Reporting)
    (hf : ∀ a, (f a).Reporting) : (r.bind f).Reporting := by
  induction r with
  | done a => exact hf a
  | step change rest ih => exact fun p => ⟨(h p).1.map (Routine.bind · f), ih p (h p).2⟩

theorem Reporting.andThen {m : ExceptT ε (Routine Plane) α} {f : α → ExceptT ε (Routine Plane) β}
    (h : m.run.Reporting) (hf : ∀ a, (f a).run.Reporting) : (m >>= f).run.Reporting := by
  refine Reporting.bind h fun result => ?_
  cases result with
  | ok a => exact hf a
  | error e => trivial

theorem Reporting.orElse {m : ExceptT ε (Routine Plane) α} {f : ε → ExceptT ε (Routine Plane) α}
    (h : m.run.Reporting) (hf : ∀ e, (f e).run.Reporting) : (tryCatch m f).run.Reporting := by
  refine Reporting.bind h fun result => ?_
  cases result with
  | ok a => trivial
  | error e => exact hf e

theorem Reporting.atomic {f : Plane → α × Plane} (h : ∀ p : Plane, p.Reports f) :
    (Routine.atomic f).Reporting :=
  fun p => ⟨(h p).map done, trivial⟩

end Routine

/-! ## Operations -/

namespace Operation
open Routine Plane

variable {α β : Type}

theorem atomic_reporting {f : Plane → Except ControlError α × Plane}
    (h : ∀ p : Plane, p.Reports f) : (atomic f).steps.Reporting :=
  Reporting.atomic h

/-- A step that tells nothing. -/
theorem atomic_still {f : Plane → Except ControlError α × Plane}
    (hbus : ∀ p bus, f (p.onBus bus) = ((f p).1, (f p).2.onBus bus))
    (hagrees : ∀ p told, p.worker.Agrees told → (f p).2.worker.Agrees told) :
    (atomic f).steps.Reporting :=
  atomic_reporting fun p => reports_still (f p).1 (f p).2 (hbus p) (hagrees p)

theorem modify_reporting {f : Plane → Plane} (h : Silent f) : (modify f).steps.Reporting :=
  Reporting.atomic fun p => (h.reports p).map Except.ok

theorem check_reporting {c : Except ControlError α} : (check c).steps.Reporting := by
  cases c <;> trivial

/-- **A transaction** tells what its commit has caused, and nothing if there is none. -/
theorem transact_reporting (t : Transaction (α × Closing)) : (transact t).steps.Reporting := by
  refine atomic_reporting fun p => ?_
  rcases hs : p.store with _ | store
  · refine reports_still (.error (.store (.database "store.begin"))) p (fun bus => ?_) fun _ h => h
    simp only [onBus_store, hs]
  · rcases hon : t.on store with ⟨e | ⟨a, _ | marked⟩, after⟩
    · refine reports_still (.error (.ofStore e)) p (fun bus => ?_) fun _ h => h
      simp only [onBus_store, hs, hon]
    · refine reports_still (.ok a) p (fun bus => ?_) fun _ h => h
      simp only [onBus_store, hs, hon]
    · refine ((p.commit_reports after marked).map fun _ => .ok a).of (fun bus => ?_) fun _ h => h
      simp only [onBus_store, hs, hon]

theorem read_reporting (t : Transaction α) : (read t).steps.Reporting := transact_reporting _

theorem look_reporting (f : Store → α) : (look f).steps.Reporting := read_reporting (f <$> get)

theorem change_reporting (t : Transaction α) : (change t).steps.Reporting := transact_reporting _

theorem mark_reporting (running : Bool) (t : Transaction α) :
    (mark running t).steps.Reporting :=
  transact_reporting _

theorem ignore_reporting {op : Operation α} (h : op.steps.Reporting) (b : β) :
    (do let _ ← op; return b : Operation β).steps.Reporting :=
  h.andThen fun _ => trivial

/-! ### The engine -/

/-- **A request to the worker**, from its beginning to its end. -/
theorem reload_reporting (snapshot : Snapshot) : (reload snapshot).Reporting := by
  refine Reporting.bind (.atomic fun p => reports_worker (p.worker.request_reports snapshot)) ?_
  intro begun
  cases begun with
  | some answer => trivial
  | none => exact .atomic fun p => reports_worker p.worker.complete_reports

theorem submit_reporting (snapshot : Snapshot) : (submit snapshot).steps.Reporting :=
  (reload_reporting snapshot).bind fun _ => trivial

theorem note_reporting (level : LogLevel) (message : String) (fields : List (String × LogValue)) :
    (modify (·.note level message fields)).steps.Reporting :=
  modify_reporting (silent_note level message fields)

theorem counted_reporting {op : Operation α} (outcome : String) (dry : Bool)
    (h : op.steps.Reporting) : (counted outcome dry op).steps.Reporting := by
  refine Reporting.bind h fun result => Reporting.bind (modify_reporting ?_) fun _ => trivial
  cases result with
  | ok a => exact silent_countRun outcome
  | error e => exact (silent_note _ _ _).comp (silent_countRun "failed")

theorem halt_reporting : halt.steps.Reporting :=
  (counted_reporting _ _ (submit_reporting _)).andThen fun _ => note_reporting _ _ _

theorem launch_reporting (candidate : Option Section) : (launch candidate).steps.Reporting := by
  refine counted_reporting _ _ (Reporting.andThen (atomic_still ?_ ?_) fun q => ?_)
  · intro p bus
    simp only [onBus_store]
    cases p.store <;> rfl
  · intro p told h
    split <;> exact h
  · refine (modify_reporting ?_).andThen fun _ => (submit_reporting _).andThen fun _ => trivial
    exact silent_tell (fun _ _ => rfl) fun _ => ⟨rfl, rfl, rfl, rfl⟩

theorem starting_reporting (dry : Bool) : (starting dry).steps.Reporting := by
  rw [starting]
  split
  · exact halt_reporting.andThen fun _ => (transact_reporting _).andThen fun _ => trivial
  · exact (launch_reporting none).andThen fun _ => (transact_reporting _).andThen fun _ => trivial

theorem choosing_reporting (kind : SectionKind) (id : Id) :
    (choosing kind id).steps.Reporting := by
  refine (transact_reporting _).andThen fun candidate => ?_
  cases candidate with
  | none => trivial
  | some row =>
    refine (note_reporting _ _ _).andThen fun _ => Reporting.andThen ?_ fun _ => trivial
    refine (launch_reporting _).andThen fun _ => ?_
    exact (transact_reporting _).andThen fun _ => trivial

theorem removing_reporting (kind : SectionKind) (id : Id) :
    (removing kind id).steps.Reporting := by
  refine (transact_reporting _).andThen fun removed => ?_
  cases removed with
  | some count => trivial
  | none =>
    refine (note_reporting _ _ _).andThen fun _ => halt_reporting.andThen fun _ => ?_
    exact transact_reporting _

/-- **The gate** tells nothing itself. -/
theorem gated_reporting {op : Operation α} (h : op.steps.Reporting) :
    (gated op).steps.Reporting := by
  rw [gated_steps]
  intro p
  have hrelease (result : Except ControlError α) : (release result).Reporting := fun p =>
    ⟨reports_still (.done result) { p with gate := false } (fun _ => rfl) fun _ h => h, trivial⟩
  have hbusy : Silent (·.tell (·.measure (·.countBusyRun))) :=
    silent_tell (fun _ _ => rfl) fun _ => ⟨rfl, rfl, rfl, rfl⟩
  dsimp only
  cases hgate : p.gate with
  | true =>
    have hrefused := (hbusy.reports p).map fun _ =>
      (Routine.done (.error .busy) : Routine Plane (Except ControlError α))
    refine ⟨hrefused.of (fun bus => ?_) fun _ h => h, trivial⟩
    simp only [acquire, onBus_gate, hgate, if_true]
  | false =>
    have htaken (bus : Bus) : acquire (p.onBus bus) = { p with gate := true }.onBus bus := by
      simp only [acquire, onBus_gate, hgate, Bool.false_eq_true, if_false]
      rfl
    refine ⟨reports_still (op.steps.bind release) { p with gate := true }
      (fun bus => ?_) fun _ h => h, h.bind hrelease⟩
    simp only [htaken, onBus_gate, hgate, Bool.false_eq_true, if_false]

theorem resume_reporting : resume.steps.Reporting := by
  refine Reporting.andThen (look_reporting _) fun found => ?_
  have hstop : markStopped.steps.Reporting := mark_reporting _ _
  obtain ⟨running, configured⟩ := found
  dsimp only
  split
  · split
    · refine (note_reporting _ _ _).andThen fun _ => ?_
      refine (gated_reporting (starting_reporting false)).orElse fun e => ?_
      exact hstop.andThen fun _ => trivial
    · exact (note_reporting _ _ _).andThen fun _ => hstop.andThen fun _ => trivial
  · trivial

/-! ### Subscriptions from afar -/

theorem fetch_reporting (link : String) : (fetch link).steps.Reporting :=
  atomic_still (fun _ _ => rfl) fun _ _ h => h

theorem importing_reporting (refusal : Refusal) (t : Transaction (Option Report)) :
    (importing refusal t).steps.Reporting := by
  refine Reporting.andThen (transact_reporting _) fun report => ?_
  cases report <;> trivial

theorem tellUpdated_reporting (report : Report) : (tellUpdated report).steps.Reporting := by
  set event : Event := .subscriptionUpdated (Id.unsigned report.subscription.id)
    (countImported report.results)
  refine atomic_reporting fun p => reports_news (.ok ()) (p.emit event) [event] (fun _ => rfl) ?_
  exact fun _ h => h.emit rfl rfl

theorem importSubscription_reporting (link : String) (tag : Option String) :
    (Operation.importSubscription link tag).steps.Reporting := by
  unfold Operation.importSubscription
  extract_lets rest
  have hrest : ∀ u, (rest u).steps.Reporting := by
    intro _
    refine (fetch_reporting link).andThen fun links => ?_
    refine (importing_reporting _ _).andThen fun report => ?_
    refine (modify_reporting (silent_scheduleIfReadable _ _)).andThen fun _ => ?_
    exact (tellUpdated_reporting report).andThen fun _ => trivial
  split
  · exact check_reporting.andThen hrest
  · exact hrest ()

theorem updateSubscription_reporting (id : Id) :
    (Operation.updateSubscription id).steps.Reporting := by
  refine (read_reporting _).andThen fun row => ?_
  refine Reporting.andThen ((fetch_reporting _).orElse fun e => ?_) fun links => ?_
  · exact (change_reporting _).andThen fun _ => trivial
  · refine (importing_reporting _ _).andThen fun report => ?_
    exact (tellUpdated_reporting report).andThen fun _ => trivial

theorem removeSubscriptions_reporting (ids : List Id) :
    (Operation.removeSubscriptions ids).steps.Reporting := by
  refine (change_reporting _).andThen fun removed => ?_
  exact (modify_reporting (silent_foldl silent_unschedule ids)).andThen fun _ => trivial

theorem setSchedule_reporting (id : Id) (expression : Option String) (scheduled : Option Bool) :
    (Operation.setSchedule id expression scheduled).steps.Reporting := by
  unfold Operation.setSchedule
  extract_lets rest
  have hrest : ∀ u, (rest u).steps.Reporting := by
    intro _
    refine (change_reporting _).andThen fun row => ?_
    refine atomic_still (fun p bus => ?_) fun p told h => ?_
    · rw [schedule_onBus]
      cases p.schedule row <;> rfl
    · split
      · next hschedule => exact schedule_agrees hschedule h
      · exact h
  split
  · exact check_reporting.andThen fun _ => hrest ()
  · exact hrest ()

theorem startScheduler_reporting : Operation.startScheduler.steps.Reporting := by
  rw [startScheduler, subscriptions]
  refine (look_reporting _).andThen fun rows => ?_
  have hall := silent_foldl (fun row : Subscription =>
    silent_scheduleIfReadable row [("cron", .text row.schedule)]) rows
  refine atomic_still (fun p bus => ?_) fun p told h => ?_
  · simp only [hall.onBus]
    rfl
  · exact (silent_note _ _ _).agrees _ _ (hall.agrees p told h)

theorem refresh_reporting (job : Job) : (Operation.refresh job).steps.Reporting := by
  have hasleep (next : Job) :
      (Operation.modify fun p => { p with
        jobs := p.jobs.map fun j => if j.subscription = job.subscription then next else j
      }).steps.Reporting :=
    modify_reporting ⟨fun _ _ => rfl, fun _ _ h => h⟩
  have hnow : (Operation.atomic fun p => (.ok p.now, p)).steps.Reporting :=
    atomic_still (fun _ _ => rfl) fun _ _ h => h
  refine Reporting.orElse ((updateSubscription_reporting job.subscription).andThen fun _ => ?_)
    fun e => ?_
  · exact hnow.andThen fun now => hasleep _
  · split
    · exact hasleep _
    · exact hnow.andThen fun now => hasleep _

theorem forM_reporting {f : α → Operation Unit} (h : ∀ a, (f a).steps.Reporting) (as : List α) :
    (as.forM f).steps.Reporting := by
  induction as with
  | nil => trivial
  | cons a rest ih => exact (h a).andThen fun _ => ih

theorem elapse_reporting (seconds : Nat) : (Operation.elapse seconds).steps.Reporting := by
  refine Reporting.andThen (atomic_still ?_ ?_) fun awake => ?_
  · exact fun _ _ => rfl
  · exact fun _ _ h => h
  · exact (forM_reporting refresh_reporting awake).andThen fun _ => trivial

end Operation

/-! ## All operations -/

theorem Edit.reporting (e : Edit) : e.operation.steps.Reporting := by
  open Routine Operation in
  cases e with
  | createSection kind name body =>
    exact ignore_reporting (check_reporting.andThen fun _ => check_reporting.andThen fun _ =>
      change_reporting _) _
  | updateSection kind id body =>
    exact ignore_reporting (check_reporting.andThen fun _ => change_reporting _) _
  | renameSection kind id name =>
    exact ignore_reporting (check_reporting.andThen fun _ => change_reporting _) _
  | createGroup name policy params =>
    exact ignore_reporting (check_reporting.andThen fun _ => change_reporting _) _
  | setPolicy id policy params =>
    exact ignore_reporting (check_reporting.andThen fun _ => change_reporting _) _
  | renameGroup | removeGroups | attachNodes | detachNodes | attachSubscriptions
  | detachSubscriptions | importNodes | removeNodes | tagNode | tagSubscription =>
    exact ignore_reporting (change_reporting _) _
  | importSubscription link tag => exact ignore_reporting (importSubscription_reporting link tag) _
  | updateSubscription id => exact ignore_reporting (updateSubscription_reporting id) _
  | removeSubscriptions ids => exact ignore_reporting (removeSubscriptions_reporting ids) _
  | setSchedule id expression scheduled =>
    exact ignore_reporting (setSchedule_reporting id expression scheduled) _
  | startScheduler => exact ignore_reporting startScheduler_reporting _
  | refresh job => exact refresh_reporting job

/-- **Every step of a command reports.** -/
theorem Command.reporting (c : Command) : c.operation.steps.Reporting := by
  open Operation in
  cases c with
  | run dry => exact gated_reporting (starting_reporting dry)
  | selectSection kind id => exact gated_reporting (choosing_reporting kind id)
  | removeSection kind id => exact ignore_reporting (gated_reporting (removing_reporting kind id)) _
  | edit e => exact ignore_reporting e.reporting _

end ProxyPlane
