import Mathlib.Data.List.Sort
import ProxyPlane.Proofs.Timetable
import ProxyPlane.Proofs.Turns

/-!
# Jobs are kept beside the rows

That a subscription is to be refreshed on schedule is told by its row in the store.  That it is
refreshed takes a job, and the jobs are kept beside the store: an operation that changes the rows
commits first and then sees to the jobs, in a step of its own.  Between the two steps the jobs are
behind, but only for the subscriptions that the operation is about.

## What is here

* `Plane.Attends started busy p s` — the jobs of `p` are for rows of `s`, and once the scheduler was
  started there is one for each row that asks for it, both but for the subscriptions in `busy`.
* `Attends.commit`, `schedule`, `unschedule`, `restart` — the steps: a commit makes an operation
  busy with some subscriptions, and what is done to the jobs ends that.
* `Turn.tends` — what every turn keeps.
* `Plane.wanted_of_turns` — no job is for a row that does not ask for it.
* `Plane.scheduled_eq_of_started` — once the scheduler was started, the subscriptions with a job are
  those that are to be refreshed on schedule.
-/

set_option autoImplicit false
namespace ProxyPlane

open Routine Store

/-! ## Lists of jobs -/

namespace Job

variable {job : Job} {jobs : List Job} {id : Id}

theorem mem_place : id ∈ (job.place jobs).map (·.subscription) ↔
    id = job.subscription ∨ id ∈ jobs.map (·.subscription) := by
  induction jobs with
  | nil => simp [place]
  | cons first rest ih =>
    rw [place]
    split
    · simp
    · split
      · next heq => simp [heq]
      · rw [List.map_cons, List.mem_cons, ih, List.map_cons, List.mem_cons]
        exact or_left_comm

theorem place_increasing (h : (jobs.map (·.subscription)).Pairwise (· < ·)) :
    ((job.place jobs).map (·.subscription)).Pairwise (· < ·) := by
  induction jobs with
  | nil => exact List.pairwise_singleton _ _
  | cons first rest ih =>
    obtain ⟨hfirst, hrest⟩ := List.pairwise_cons.1 h
    rw [place]
    split
    · next hlt =>
      refine List.pairwise_cons.2 ⟨fun id hid => ?_, h⟩
      obtain rfl | hid := List.mem_cons.1 hid
      · exact hlt
      · exact Int.lt_trans hlt (hfirst id hid)
    · next hge =>
      split
      · next heq =>
        refine List.pairwise_cons.2 ⟨fun id hid => ?_, hrest⟩
        exact heq.trans_lt (hfirst id hid)
      · next hne =>
        refine List.pairwise_cons.2 ⟨fun id hid => ?_, ih hrest⟩
        obtain rfl | hid := mem_place.1 hid
        · exact lt_of_le_of_ne (Int.not_lt.1 hge) (Ne.symm hne)
        · exact hfirst id hid

end Job

namespace Plane

variable {p p' : Plane} {row : Subscription} {id : Id}

theorem mem_unschedule {id' : Id} :
    id' ∈ (p.unschedule id).scheduled ↔ id' ∈ p.scheduled ∧ id' ≠ id := by
  simp only [unschedule, scheduled, List.mem_map, List.mem_filter, bne_iff_ne]
  constructor
  · rintro ⟨job, ⟨hjob, hne⟩, rfl⟩
    exact ⟨⟨job, hjob, rfl⟩, hne⟩
  · rintro ⟨⟨job, hjob, rfl⟩, hne⟩
    exact ⟨job, ⟨hjob, hne⟩, rfl⟩

/-- **What it is to give a subscription its job**: its job is ended, or it gets one. -/
theorem schedule_cases (h : p.schedule row = .ok p') :
    (row.scheduled = false ∧ p' = p.unschedule row.id) ∨
      (row.scheduled = true ∧ p'.store = p.store ∧
        ∃ job : Job, job.subscription = row.id ∧ p'.jobs = job.place p.jobs) := by
  rw [schedule] at h
  split at h
  · next hoff =>
    cases h
    exact .inl ⟨by simpa using hoff, rfl⟩
  · next hon =>
    refine .inr ⟨by simpa using hon, ?_⟩
    cases hread : readSchedule row.schedule with
    | error e => rw [hread] at h; cases h
    | ok schedule =>
      rw [hread] at h
      cases h
      exact ⟨rfl, .asleep row.id schedule p.now, rfl, rfl⟩

/-- A subscription does not get its job only if it is to have one by a schedule that cannot be read.
-/
theorem schedule_error {e : ControlError} (h : p.schedule row = .error e) :
    row.scheduled = true ∧ ∀ schedule, readSchedule row.schedule ≠ .ok schedule := by
  rw [schedule] at h
  split at h
  · cases h
  · next hon =>
    refine ⟨by simpa using hon, fun schedule hread => ?_⟩
    rw [hread] at h
    cases h

theorem commit_jobs (p : Plane) (s : Store) (marked : Option Bool) :
    (p.commit s marked).jobs = p.jobs := by
  simp only [commit]
  cases marked <;> dsimp only <;> split <;> (try split) <;> rfl

/-! ## Jobs and rows -/

/-- The jobs of a control plane are for rows of a store that ask for them, and once the scheduler
was started all schedules can be read and every row that asks for a job has one; but nothing is said
of the subscriptions that an operation is busy with. -/
structure Attends (started : Prop) (busy : List Id) (p : Plane) (s : Store) : Prop where
  store : p.store = some s
  valid : s.Valid
  increasing : p.scheduled.Pairwise (· < ·)
  wanted : ∀ id ∈ p.scheduled, id ∉ busy → id ∈ s.scheduledIds
  readable : started → s.Readable
  served : started → ∀ id ∈ s.scheduledIds, id ∉ busy → id ∈ p.scheduled

variable {started : Prop} {busy : List Id} {s s' : Store}

namespace Attends

/-- A change of a control plane that has nothing to do with its store or with who has a job. -/
theorem congr (h : p.Attends started busy s) (hstore : p'.store = p.store)
    (hjobs : p'.scheduled = p.scheduled) : p'.Attends started busy s where
  store := hstore.trans h.store
  valid := h.valid
  increasing := hjobs ▸ h.increasing
  wanted := hjobs ▸ h.wanted
  readable := h.readable
  served := hjobs ▸ h.served

/-- **A commit** makes an operation busy with the subscriptions that it is about. -/
theorem commit (h : p.Attends started [] s) (hs : s.Retimes busy s') (marked : Option Bool) :
    (p.commit s' marked).Attends started busy s' where
  store := p.commit_store s' marked
  valid := hs.valid
  increasing := by
    rw [scheduled, commit_jobs]
    exact h.increasing
  wanted id hid hidle := by
    rw [scheduled, commit_jobs] at hid
    exact (hs.others id hidle).2 (h.wanted id hid List.not_mem_nil)
  readable hstarted := hs.readable (h.readable hstarted)
  served hstarted id hid hidle := by
    rw [scheduled, commit_jobs]
    exact h.served hstarted id ((hs.others id hidle).1 hid) List.not_mem_nil

/-- **The job of a subscription is ended** that is not to have one. -/
theorem unschedule (h : p.Attends started (id :: busy) s) (hid : id ∉ s.scheduledIds) :
    (p.unschedule id).Attends started busy s where
  store := h.store
  valid := h.valid
  increasing := by
    rw [scheduled, Plane.unschedule]
    exact List.pairwise_map.2 ((List.pairwise_map.1 h.increasing).filter _)
  wanted id' hid' hidle := by
    obtain ⟨hid', hne⟩ := mem_unschedule.1 hid'
    exact h.wanted id' hid' (by simp [hne, hidle])
  readable := h.readable
  served hstarted id' hid' hidle := by
    have hne : id' ≠ id := fun heq => hid (heq ▸ hid')
    exact mem_unschedule.2 ⟨h.served hstarted id' hid' (by simp [hne, hidle]), hne⟩

/-- **A subscription is given its job**, as its row asks for. -/
theorem schedule (h : p.Attends started (row.id :: busy) s) (hrow : row ∈ s.subscriptions.rows)
    (hp : p.schedule row = .ok p') : p'.Attends started busy s := by
  obtain ⟨hoff, rfl⟩ | ⟨hon, hstore, job, hjob, hjobs⟩ := schedule_cases hp
  · refine h.unschedule fun hid => ?_
    obtain ⟨row', hrow', hon, hid⟩ := mem_scheduledIds.1 hid
    obtain rfl := h.valid.subscriptions.eq_of_id hrow' hrow hid
    simp [hoff] at hon
  · have hmem (id : Id) : id ∈ p'.scheduled ↔ id = row.id ∨ id ∈ p.scheduled := by
      rw [scheduled, hjobs, Job.mem_place, hjob, scheduled]
    refine ⟨hstore.trans h.store, h.valid, ?_, fun id hid hidle => ?_, h.readable,
      fun hstarted id hid hidle => (hmem id).2 ?_⟩
    · rw [scheduled, hjobs]
      exact Job.place_increasing h.increasing
    · by_cases hself : id = row.id
      · exact mem_scheduledIds.2 ⟨row, hrow, hon, hself.symm⟩
      · exact h.wanted id (((hmem id).1 hid).resolve_left hself) (by simp [hself, hidle])
    · by_cases hself : id = row.id
      · exact .inl hself
      · exact .inr (h.served hstarted id hid (by simp [hself, hidle]))

/-- A subscription whose schedule cannot be read keeps the job that it has, if it has one.  Once the
scheduler was started, there is no such subscription. -/
theorem unreadable (h : p.Attends started (row.id :: busy) s) (hrow : row ∈ s.subscriptions.rows)
    {e : ControlError} (hp : p.schedule row = .error e) : p.Attends started busy s := by
  obtain ⟨hon, hunreadable⟩ := schedule_error hp
  have hidle (hstarted : started) : False := by
    obtain ⟨schedule, hread⟩ := h.readable hstarted row hrow
    exact hunreadable schedule hread
  refine ⟨h.store, h.valid, h.increasing, fun id hid hbusy => ?_, h.readable,
    fun hstarted => (hidle hstarted).elim⟩
  by_cases hself : id = row.id
  · exact mem_scheduledIds.2 ⟨row, hrow, hon, hself.symm⟩
  · exact h.wanted id hid (by simp [hself, hbusy])

theorem scheduleIfReadable (h : p.Attends started (row.id :: busy) s)
    (hrow : row ∈ s.subscriptions.rows) (noted : List (String × LogValue)) :
    (p.scheduleIfReadable row noted).Attends started busy s := by
  rw [Plane.scheduleIfReadable]
  split
  · next hp => exact h.schedule hrow hp
  · next hp => exact (h.unreadable hrow hp).congr rfl rfl

/-- Any number of subscriptions are given their jobs. -/
theorem scheduleAll {rows : List Subscription} (h : p.Attends started (rows.map (·.id)) s)
    (hrows : ∀ row ∈ rows, row ∈ s.subscriptions.rows)
    (noted : Subscription → List (String × LogValue)) :
    (rows.foldl (fun p row => p.scheduleIfReadable row (noted row)) p).Attends started [] s := by
  induction rows generalizing p with
  | nil => exact h
  | cons row rest ih =>
    rw [List.forall_mem_cons] at hrows
    exact ih (h.scheduleIfReadable hrows.1 _) hrows.2

/-- The jobs of any number of subscriptions are ended that are not to have one. -/
theorem unscheduleAll {ids : List Id} (h : p.Attends started ids s)
    (hids : ∀ id ∈ ids, id ∉ s.scheduledIds) :
    (ids.foldl Plane.unschedule p).Attends started [] s := by
  induction ids generalizing p with
  | nil => exact h
  | cons id rest ih =>
    rw [List.forall_mem_cons] at hids
    exact ih (h.unschedule hids.1) hids.2

/-- **Where the scheduler is started**, every row that asks for a job is about to get one. -/
theorem restart {started' : Prop} (h : p.Attends started [] s) (hread : started' → s.Readable) :
    p.Attends started' (s.subscriptions.rows.map (·.id)) s where
  store := h.store
  valid := h.valid
  increasing := h.increasing
  wanted id hid _ := h.wanted id hid List.not_mem_nil
  readable := hread
  served _ id hid hidle := by
    obtain ⟨row, hrow, -, rfl⟩ := mem_scheduledIds.1 hid
    exact absurd (List.mem_map.2 ⟨row, hrow, rfl⟩) hidle

end Attends

/-- No operation is under way, and the jobs are for the rows that ask for them. -/
def Tended (started : Prop) (p : Plane) : Prop := ∃ s, p.Attends started [] s

end Plane

/-! ## Operations -/

namespace Operation
open Transaction Plane

variable {α β : Type} {started : Prop} {p p' : Plane}

/-- A step after which the jobs are for the rows that ask for them, if they were before. -/
def Tends (started : Prop) (p p' : Plane) : Prop := p.Tended started → p'.Tended started

theorem tends_of_eq (hstore : p'.store = p.store) (hjobs : p'.scheduled = p.scheduled) :
    Tends started p p' :=
  fun ⟨s, h⟩ => ⟨s, h.congr hstore hjobs⟩

theorem covers_tends : Covers (Tends started) :=
  ⟨fun _ _ _ _ => tends_of_eq rfl rfl, fun _ _ => tends_of_eq rfl rfl,
    fun _ => tends_of_eq rfl rfl⟩

theorem transact_tends {t : Transaction (α × Closing)} (h : t.Does (Retimes [])) :
    (transact t).steps.Within (Tends started) := by
  refine transact_within (fun p => tends_of_eq rfl rfl) fun p s hs r s' hon marked _ => ?_
  rintro ⟨_, ha⟩
  obtain rfl := Option.some.inj (ha.store.symm.trans hs)
  exact ⟨s', ha.commit (h _ ha.valid r s' hon) marked⟩

theorem change_tends {t : Transaction α} (h : t.Does (Retimes [])) :
    (change t).steps.Within (Tends started) :=
  transact_tends fun s hs => ensures_map.2 (h s hs)

theorem tell_tends (f : Feed → Feed) : (modify (·.tell f)).steps.Within (Tends started) :=
  modify_within fun _ => tends_of_eq rfl rfl

theorem admits_retimes {ids : List Id} : Admits (Retimes ids) where
  refl _ hs := retimes_of_eq hs rfl
  valid _ _ h := h.valid
  trans _ _ _ := Retimes.trans
  running _ _ hs := retimes_of_eq (valid_running hs _) rfl
  select _ _ := selectSection_retimes
  remove _ _ := removeSection_retimes

theorem spans_tends : Spans (Retimes []) (Tends started) :=
  ⟨covers_tends, admits_retimes, transact_tends⟩

theorem gated_tends {op : Operation α} (h : op.steps.Within (Tends started)) :
    (gated op).steps.Within (Tends started) := by
  refine gated_within (fun p => ?_) (fun _ => tends_of_eq rfl rfl) h
  rw [acquire]
  split <;> exact tends_of_eq rfl rfl

theorem updateSubscription_tends (id : Id) :
    (Operation.updateSubscription id).steps.Within (Tends started) := by
  refine (read_within _ fun p => tends_of_eq rfl rfl).andThen fun row => ?_
  refine Within.andThen (Within.orElse ?_ fun e => ?_) fun links => ?_
  · exact atomic_within fun p => tends_of_eq rfl rfl
  · exact (change_tends (setStatus_retimes _)).andThen fun _ => trivial
  · refine Within.andThen ?_ fun report => (tell_tends _).andThen fun _ => trivial
    refine (transact_tends (importing_does (refreshNodes_retimes links))).andThen fun report => ?_
    cases report <;> trivial

/-- A refresh ends with another job for the same subscription. -/
theorem refresh_tends (job : Job) : (Operation.refresh job).steps.Within (Tends started) := by
  refine refresh_within (fun _ hp => hp) (updateSubscription_tends _) fun p next hnext => ?_
  refine tends_of_eq rfl ?_
  rw [scheduled, List.map_map]
  refine List.map_congr_left fun j _ => ?_
  rw [Function.comp_apply]
  split
  · next heq => exact hnext.trans heq.symm
  · rfl

/-! ### Operations that change what is to be refreshed -/

/-- What is imported is committed with a report, or nothing is. -/
theorem importing_alone {t : Transaction (Option Report)} {refusal : Refusal}
    {pre bad : Plane → Prop} {good : Report → Plane → Prop} (hbad : ∀ p, pre p → bad p)
    (h : ∀ p s, pre p → p.store = some s →
      t.Ensures s fun report s' => ∀ r, report = some r → good r (p.commit s' none)) :
    (importing refusal t).Alone pre good bad := by
  refine Meets.andThen (?_ : Alone pre _ (fun report p => report.elim (bad p) (good · p)) bad)
    fun report => ?_
  · refine alone_transact hbad fun p s hp hs => ?_
    refine ensures_bind.2 ((h p s hp hs).mono fun report s' hreport => ?_)
    cases report with
    | some r => exact ensures_pure.2 (hreport r rfl)
    | none => exact ensures_pure.2 (hbad p hp)
  · cases report with
    | some r => exact fun _ hp => hp
    | none => exact fun _ hp => hp

/-- What is left to do once a subscription has another schedule, or is new: to see to its job. -/
def Behind (started : Prop) (row : Subscription) (p : Plane) : Prop :=
  ∃ s, p.Attends started [row.id] s ∧ row ∈ s.subscriptions.rows

/-- What is left to do once subscriptions were removed: to end their jobs. -/
def Removed (started : Prop) (ids : List Id) (p : Plane) : Prop :=
  ∃ s, p.Attends started ids s ∧ ∀ id ∈ ids, id ∉ s.scheduledIds

/-- A new subscription gets its job after it was committed. -/
theorem importSubscription_tends (link : String) (tag : Option String) :
    (Operation.importSubscription link tag).Alone (Tended started) (fun _ => Tended started)
      (Tended started) := by
  unfold Operation.importSubscription
  extract_lets rest
  have hrest : ∀ u, (rest u).Alone (Tended started) (fun _ => Tended started) (Tended started) := by
    intro _
    refine Meets.andThen (alone_of_within (R := Tends started) ?_ fun _ _ h => h) fun links => ?_
    · exact atomic_within fun p => tends_of_eq rfl rfl
    refine Meets.andThen (?_ : Alone (Tended started) _
      (fun report => Behind started report.subscription) (Tended started)) fun report => ?_
    · refine importing_alone (fun _ h => h) ?_
      rintro p _ ⟨s, h⟩ hs
      obtain rfl := Option.some.inj (h.store.symm.trans hs)
      refine (newSubscription_retimes h.valid link tag false _ fun row results =>
        if countImported results = 0 then none else some (Report.mk row results)).mono ?_
      rintro _ s' ⟨row, results, rfl, hretimes, hrow⟩ r hr
      split at hr
      · cases hr
      · cases hr
        exact ⟨s', h.commit hretimes none, hrow⟩
    · refine Meets.andThen (?_ : Alone (Behind started report.subscription) _
        (fun _ => Tended started) (Tended started)) fun _ => ?_
      · refine alone_modify ?_
        rintro p ⟨s, h, hrow⟩
        exact ⟨s, h.scheduleIfReadable hrow _⟩
      · exact Meets.andThen (alone_of_within (tell_tends _) fun _ _ h => h) fun _ _ h => h
  split
  · exact alone_check (fun _ h => h) fun _ _ => hrest ()
  · exact hrest ()

/-- A subscription with another schedule gets another job, or loses the one that it had. -/
theorem setSchedule_tends (id : Id) (expression : Option String) (scheduled : Option Bool) :
    (Operation.setSchedule id expression scheduled).Alone (Tended started) (fun _ => Tended started)
      (Tended started) := by
  unfold Operation.setSchedule
  extract_lets rest
  have hrest (hread : ∀ e, expression = some e → ∃ schedule, readSchedule e = .ok schedule) :
      ∀ u, (rest u).Alone (Tended started) (fun _ => Tended started) (Tended started) := by
    intro _
    refine Meets.andThen (?_ : Alone (Tended started) _ (Behind started) (Tended started))
      fun row => ?_
    · refine alone_change (fun _ h => h) ?_
      rintro p _ ⟨s, h⟩ hs
      obtain rfl := Option.some.inj (h.store.symm.trans hs)
      refine (setSchedule_retimes h.valid scheduled hread).mono ?_
      rintro row s' ⟨hretimes, hrow⟩
      exact ⟨s', h.commit hretimes none, hrow⟩
    · refine alone_atomic ?_
      rintro p ⟨s, h, hrow⟩
      split
      · next hp => exact ⟨s, h.schedule hrow hp⟩
      · next hp => exact ⟨s, h.unreadable hrow hp⟩
  split
  · refine alone_check (fun _ h => h) fun schedule hschedule => hrest (fun e he => ?_) ()
    cases he
    exact ⟨schedule, hschedule⟩
  · next hnone => exact hrest (fun e he => absurd he (hnone e)) ()

/-- Subscriptions that were removed lose their jobs, and so do those that are not there. -/
theorem removeSubscriptions_tends (ids : List Id) :
    (Operation.removeSubscriptions ids).Alone (Tended started) (fun _ => Tended started)
      (Tended started) := by
  refine Meets.andThen (?_ : Alone (Tended started) _ (fun _ => Removed started ids)
    (Tended started)) fun removed => ?_
  · refine alone_change (fun _ h => h) ?_
    rintro p _ ⟨s, h⟩ hs
    obtain rfl := Option.some.inj (h.store.symm.trans hs)
    refine (removeSubscriptions_retimes h.valid ids).mono ?_
    rintro _ s' ⟨hretimes, hgone⟩
    exact ⟨s', h.commit hretimes none, hgone⟩
  · refine Meets.andThen (?_ : Alone (Removed started ids) _ (fun _ => Tended started)
      (Tended started)) fun _ _ h => h
    refine alone_modify ?_
    rintro p ⟨s, h, hgone⟩
    exact ⟨s, h.unscheduleAll hgone⟩

/-- **Starting the scheduler** gives every row that asks for a job the job. -/
theorem startScheduler_attends {started' : Prop} {s : Store} (h : p.Attends started [] s)
    (hread : started' → s.Readable) :
    (Operation.startScheduler.steps.run p).2.Attends started' [] s := by
  have hall := (h.restart hread).scheduleAll (fun _ hrow => hrow)
    fun row => [("cron", .text row.schedule)]
  have hrun := run_andThen_ok (f := fun rows : List Subscription => Operation.atomic fun p =>
    let p := rows.foldl (fun p row => p.scheduleIfReadable row [("cron", .text row.schedule)]) p
    (.ok p.jobs.length, p.note .info "subscription scheduler started"
      [("scheduled", .number p.jobs.length)])) (look_run (·.subscriptions.rows) h.store)
  have hstart : (Operation.startScheduler.steps.run p).2 = _ := congrArg Prod.snd hrun
  rw [hstart]
  exact hall.congr rfl rfl

theorem startScheduler_tends :
    Tends started p (Operation.startScheduler.steps.run p).2 := fun ⟨s, h⟩ =>
  ⟨s, startScheduler_attends h h.readable⟩

/-! ### Whole operations -/

theorem tends_of_within {op : Operation α} (h : op.steps.Within (Tends started)) (p : Plane) :
    Tends started p (op.steps.run p).2 :=
  h.run (fun _ hp => hp) (fun _ _ _ h h' hp => h' (h hp)) p

theorem tends_of_alone {op : Operation α}
    (h : op.Alone (Tended started) (fun _ => Tended started) (Tended started)) (p : Plane) :
    Tends started p (op.steps.run p).2 := fun hp => by
  have hends := h.run hp
  generalize op.steps.run p = outcome at hends
  obtain ⟨_ | _, p'⟩ := outcome
  · exact hends
  · exact hends

theorem tends_ignore {op : Operation α} (b : β) (h : Tends started p (op.steps.run p).2) :
    Tends started p ((do let _ ← op; return b : Operation β).steps.run p).2 := by
  rw [ignore_run]
  exact h

end Operation

/-- **Every edit** leaves jobs for the rows that ask for them, whether it succeeds or fails. -/
theorem Edit.tends (e : Edit) {started : Prop} (p : Plane) :
    Operation.Tends started p (e.operation.steps.run p).2 := by
  open Operation Transaction in
  cases e with
  | createSection kind name body =>
    exact tends_ignore _ (tends_of_within (check_within.andThen fun _ => check_within.andThen
      fun _ => change_tends (createSection_retimes name body)) p)
  | updateSection kind id body =>
    exact tends_ignore _ (tends_of_within (check_within.andThen fun _ =>
      change_tends (editSection_retimes (updateSection_does body))) p)
  | renameSection kind id name =>
    exact tends_ignore _ (tends_of_within (check_within.andThen fun _ =>
      change_tends (editSection_retimes (renameSection_does name))) p)
  | createGroup name policy params =>
    exact tends_ignore _ (tends_of_within (check_within.andThen fun _ =>
      change_tends (createGroup_retimes name policy params)) p)
  | renameGroup id name =>
    exact tends_ignore _ (tends_of_within (change_tends (renameGroup_retimes name)) p)
  | removeGroups ids =>
    exact tends_ignore _ (tends_of_within (change_tends (removeGroups_retimes ids)) p)
  | setPolicy id policy params =>
    exact tends_ignore _ (tends_of_within (check_within.andThen fun _ =>
      change_tends (editGroup_retimes (setPolicy_does policy params))) p)
  | attachNodes id nodes =>
    exact tends_ignore _ (tends_of_within (change_tends (attachNodes_retimes nodes)) p)
  | detachNodes id nodes =>
    exact tends_ignore _ (tends_of_within (change_tends
      (editGroup_retimes (detachNodes_does nodes))) p)
  | attachSubscriptions id subscriptions =>
    exact tends_ignore _ (tends_of_within (change_tends
      (attachSubscriptions_retimes subscriptions)) p)
  | detachSubscriptions id subscriptions =>
    exact tends_ignore _ (tends_of_within (change_tends
      (editGroup_retimes (detachSubscriptions_does subscriptions))) p)
  | importNodes nodes abort =>
    exact tends_ignore _ (tends_of_within (change_tends (importNodes_retimes none abort nodes)) p)
  | removeNodes ids =>
    exact tends_ignore _ (tends_of_within (change_tends (removeNodes_retimes ids)) p)
  | tagNode id tag => exact tends_ignore _ (tends_of_within (change_tends (tagNode_retimes tag)) p)
  | importSubscription link tag =>
    exact tends_ignore _ (tends_of_alone (importSubscription_tends link tag) p)
  | updateSubscription id => exact tends_ignore _ (tends_of_within (updateSubscription_tends id) p)
  | removeSubscriptions ids =>
    exact tends_ignore _ (tends_of_alone (removeSubscriptions_tends ids) p)
  | setSchedule id expression scheduled =>
    exact tends_ignore _ (tends_of_alone (setSchedule_tends id expression scheduled) p)
  | tagSubscription id tag =>
    exact tends_ignore _ (tends_of_within (change_tends (tagSubscription_retimes tag)) p)
  | startScheduler => exact tends_ignore _ startScheduler_tends
  | refresh job => exact tends_of_within (refresh_tends job) p

theorem Command.tends (c : Command) {started : Prop} (p : Plane) :
    Operation.Tends started p (c.operation.steps.run p).2 := by
  open Operation in
  cases c with
  | run dry => exact tends_of_within (gated_tends (starting_within spans_tends dry)) p
  | selectSection kind id =>
    exact tends_of_within (gated_tends (choosing_within spans_tends kind id)) p
  | removeSection kind id =>
    exact tends_ignore _ (tends_of_within (gated_tends (removing_within spans_tends kind id)) p)
  | edit e => exact tends_ignore _ (e.tends p)

/-- **Every turn** leaves jobs for the rows that ask for them; but once the scheduler was started,
it must not be stopped. -/
theorem Turn.tends (t : Turn) {started : Prop} (hstop : started → t ≠ .stopScheduler) (p : Plane) :
    Operation.Tends started p (p.turn t) := by
  open Operation in
  cases t with
  | ask c => exact tends_ignore _ (c.tends p)
  | resume =>
    have hgated : (gated (starting false)).steps.Within (Tends started) :=
      gated_tends (starting_within spans_tends false)
    exact tends_ignore _ (tends_of_within (resume_within spans_tends hgated) p)
  | sleep seconds =>
    refine tends_of_eq rfl ?_
    rw [Plane.scheduled]
    exact List.map_map ..
  | stopScheduler =>
    rintro ⟨s, h⟩
    refine ⟨s, h.store, h.valid, List.Pairwise.nil, fun id hid => (by cases hid), h.readable, ?_⟩
    exact fun hstarted => absurd rfl (hstop hstarted)
  | change weather => exact tends_of_eq rfl rfl

namespace Plane

variable {started : Prop} {p : Plane} {s : Store}

theorem Tended.turns (h : p.Tended started) (ts : List Turn)
    (hstop : started → .stopScheduler ∉ ts) : (p.turns ts).Tended started := by
  induction ts generalizing p with
  | nil => exact h
  | cons t rest ih =>
    refine ih (Turn.tends t (fun hstarted => ?_) p h) fun hstarted hmem => ?_
    · exact fun heq => hstop hstarted (heq ▸ List.mem_cons_self)
    · exact hstop hstarted (List.mem_cons_of_mem _ hmem)

/-- A control plane that has just been made has no jobs. -/
theorem tended_ofParts (hs : s.Valid) (worker : Worker) (remote : Remote) (now : Instant) :
    (ofParts s worker remote now).Tended False :=
  ⟨s, rfl, hs, List.Pairwise.nil, fun id hid => (by cases hid), False.elim, False.elim⟩

/-- **A job is always for a row that asks for it**, whatever was done, and whether or not schedules
can be read. -/
theorem wanted_of_turns (hs : s.Valid) (worker : Worker) (remote : Remote) (now : Instant)
    (ts : List Turn) :
    let p := (ofParts s worker remote now).turns ts
    ∃ s', p.store = some s' ∧ ∀ id ∈ p.scheduled, id ∈ s'.scheduledIds := by
  obtain ⟨s', h⟩ := (tended_ofParts hs worker remote now).turns ts False.elim
  exact ⟨s', h.store, fun id hid => h.wanted id hid List.not_mem_nil⟩

theorem turn_startScheduler (p : Plane) :
    p.turn (.ask (.edit .startScheduler)) = (Operation.startScheduler.steps.run p).2 :=
  (Operation.ignore_run _ _ p).trans ((Operation.ignore_run _ _ p).trans
    (Operation.ignore_run _ _ p))

/-- Jobs that are for the rows that ask for them, no more and no less. -/
theorem Attends.scheduled_eq (h : p.Attends True [] s) : p.scheduled = s.scheduledIds := by
  refine h.increasing.eq_of_mem_iff h.valid.scheduledIds_increasing fun id => ⟨fun hid => ?_, ?_⟩
  · exact h.wanted id hid List.not_mem_nil
  · exact fun hid => h.served trivial id hid List.not_mem_nil

/-- **Scheduled tasks match the rows.**  Take a control plane that was made on any valid store, and
whatever was done with it since.  If the scheduler is started while all schedules in the store can
be read, and is not stopped later, then after any operations, one after another, whether they have
succeeded or failed, the subscriptions that have a job are those that are to be refreshed on
schedule, in the order of their identifiers and each of them once; and all schedules in the store
can still be read. -/
theorem scheduled_eq_of_started (hs : s.Valid) (worker : Worker) (remote : Remote) (now : Instant)
    {before after : List Turn} {s' : Store}
    (hstore : ((ofParts s worker remote now).turns before).store = some s')
    (hread : s'.Readable) (hstop : .stopScheduler ∉ after) :
    let p := (ofParts s worker remote now).turns
      (before ++ .ask (.edit .startScheduler) :: after)
    ∃ s, p.store = some s ∧ p.scheduled = s.scheduledIds ∧ p.scheduled.Pairwise (· < ·) ∧
      s.Readable := by
  intro p
  obtain ⟨_, hbefore⟩ := (tended_ofParts hs worker remote now).turns before False.elim
  obtain rfl := Option.some.inj (hbefore.store.symm.trans hstore)
  have hstarted : (((ofParts s worker remote now).turns before).turn
      (.ask (.edit .startScheduler))).Tended True := by
    rw [turn_startScheduler]
    exact ⟨_, Operation.startScheduler_attends hbefore fun _ => hread⟩
  obtain ⟨s'', hafter⟩ := hstarted.turns after fun _ => hstop
  have hp : p = (((ofParts s worker remote now).turns before).turn
      (.ask (.edit .startScheduler))).turns after :=
    turns_append _ _ _
  rw [hp]
  exact ⟨s'', hafter.store, hafter.scheduled_eq, hafter.increasing, hafter.readable trivial⟩

/-- Two links, of which each lists one node. -/
def twoLists : Remote :=
  [("https://list.example/a", ⟨200, "socks5://n1.example:1080#N1".toUTF8.data.toList⟩),
    ("https://list.example/b", ⟨200, "socks5://n2.example:1080#N2".toUTF8.data.toList⟩)]

/-- Two subscriptions, one of which is not refreshed on schedule, before the scheduler is started;
then a schedule that cannot be read, a removal of one that is there and one that is not, another
subscription, and a time in which jobs wake up. -/
theorem scheduled_eq_of_started_lists :
    let before : List Turn :=
      [.ask (.edit (.importSubscription "https://list.example/a" none)),
        .ask (.edit (.importSubscription "https://list.example/b" none)),
        .ask (.edit (.setSchedule 2 none (some false))), .stopScheduler]
    let after : List Turn :=
      [.ask (.edit (.setSchedule 1 (some "every tuesday") none)),
        .ask (.edit (.removeSubscriptions [7, 1])),
        .ask (.edit (.importSubscription "https://list.example/a" none)),
        .ask (.edit (.setSchedule 2 none (some true))), .sleep 86400,
        .ask (.edit (.updateSubscription 3))]
    let made := ofParts .empty (.idle true (.fresh .none none) (.ofBus .standard)) twoLists 0
    let p := made.turns (before ++ .ask (.edit .startScheduler) :: after)
    (made.turns before).scheduled = [] ∧ p.scheduled = [2, 3] ∧
      ∃ s, p.store = some s ∧ p.scheduled = s.scheduledIds ∧ p.scheduled.Pairwise (· < ·) ∧
        s.Readable := by
  intro before after made p
  obtain ⟨s, hs, hdefault⟩ := Traffic.exists_of_any (o := (made.turns before).store)
    (P := fun s => ∀ row ∈ s.subscriptions.rows, row.schedule = Subscription.defaultSchedule)
    (by decide +kernel)
  have hread : s.Readable := fun row hrow => hdefault row hrow ▸ Custom.house.initial
  exact ⟨by decide +kernel, by decide +kernel,
    scheduled_eq_of_started valid_empty _ _ _ hs hread (by simp [after])⟩

end Plane
end ProxyPlane
