import ProxyPlane.Proofs.Commitment

/-!
# Failures

A command that fails has changed nothing that is kept.  That is so because almost everything commits
once, at its end, and where something is left to do after the commit it cannot fail: a schedule that
was committed can be read, since no other gets into a store.  The one exception is meant: a
subscription that cannot be fetched is told what went wrong.

## What is here

* `starting_settles`, `choosing_settles`, … — the operations, each with what may become of it after
  its commit; `Edit.settles`, `Command.settles`, `resume_settles` — all of them.
* `Traffic.Reachable.kempt` — the store of every plane there can be is in good order.
* `Store.withStatus`, `Plane.failedDownload?` — the exception.
* `Traffic.Reachable.failure_law` — what a command that fails leaves behind.
-/

set_option autoImplicit false
namespace ProxyPlane

open Store Routine

namespace Operation
open Transaction

variable {α β : Type} {bad : ControlError → Store → Store → Prop}

theorem known_of_checkPolicy {policy : String} {u : Unit} (h : checkPolicy policy = .ok u) :
    Custom.house.policy policy := by
  rw [checkPolicy] at h
  split at h
  · next hknown => exact List.contains_iff_mem.1 hknown
  · cases h

/-! ## Operations behind the gate -/

theorem halt_keepsStore : halt.steps.Within KeepsStore :=
  halt_apart.mono fun _ _ => keepsStore_of_apart

theorem launch_keepsStore (candidate : Option Section) :
    (launch candidate).steps.Within KeepsStore :=
  (launch_apart candidate).mono fun _ _ => keepsStore_of_apart

theorem tell_keepsStore (f : Feed → Feed) : (modify (·.tell f)).steps.Within KeepsStore :=
  modify_within fun _ => rfl

theorem starting_settles (dry : Bool) : (starting dry).Settles Anyway bad := by
  rw [starting]
  split
  · refine settles_andThen halt_keepsStore fun _ => ?_
    exact settles_return (mark_settles (setRunning_tidies false)) _
  · refine settles_andThen (launch_keepsStore none) fun q => ?_
    exact settles_return (mark_settles (saveRunning_tidies _)) _

theorem reselect_settles (row : Section) : (reselect row).Settles Anyway bad := by
  refine settles_andThen (launch_keepsStore _) fun q => settles_return (mark_settles ?_) _
  exact selectSection_tidies.bind fun _ => saveRunning_tidies _

theorem choosing_settles (kind : SectionKind) (id : Id) :
    (choosing kind id).Settles Anyway bad := by
  refine Settles.andThen (?_ : Settles (fun candidate _ _ => candidate = none) _ _) ?_ ?_
  · refine transact_settles fun s hs htidy => ?_
    simp only [ensures_bind, ensures_loadSection, ensures_get]
    refine fun row _ => ensures_ite.2 ⟨fun _ => ensures_rollback, fun _ => ?_⟩
    refine ensures_bind.2 ((selectSection_tidies s hs htidy).mono fun _ _ h => ensures_pure.2 ?_)
    exact fun _ _ => ⟨h.valid, h.tidy, rfl⟩
  · intro candidate
    cases candidate with
    | none => trivial
    | some row =>
      exact settles_andThen (tell_keepsStore _) fun _ => settles_return (reselect_settles row) _
  · rintro _ _ _ rfl
    exact closes_pure trivial

theorem removing_settles (kind : SectionKind) (id : Id) :
    (removing kind id).Settles Anyway bad := by
  refine Settles.andThen (?_ : Settles (fun removed _ _ => ∃ count, removed = some count) _ _) ?_ ?_
  · refine transact_settles fun s hs htidy => ensures_bind.2 (ensures_get.2 ?_)
    split
    · exact ensures_rollback
    · refine ensures_ite.2 ⟨fun _ => ensures_rollback, fun _ => ?_⟩
      refine ensures_bind.2 ((removeSection_tidies s hs htidy).mono fun _ _ h => ensures_pure.2 ?_)
      exact fun _ _ => ⟨h.valid, h.tidy, 1, rfl⟩
  · intro removed
    cases removed with
    | some count => trivial
    | none =>
      refine settles_andThen (tell_keepsStore _) fun _ => ?_
      refine settles_andThen halt_keepsStore fun _ => mark_settles ?_
      refine (setRunning_tidies false).bind fun _ => ?_
      exact removeSection_tidies.bind fun _ => tidies_pure _
  · rintro _ _ _ ⟨count, rfl⟩
    exact closes_pure trivial

theorem resume_settles : resume.Settles Anyway fun _ _ _ => True := by
  have hnote (level : LogLevel) (message : String) :
      (modify (·.note level message [])).steps.Within KeepsStore :=
    modify_within fun _ => rfl
  have hstop {bad : ControlError → Store → Store → Prop} : markStopped.Settles Anyway bad :=
    mark_settles (setRunning_tidies false)
  refine settles_andThen (read_within _ fun _ => rfl) fun found => ?_
  obtain ⟨running, configured⟩ := found
  dsimp only
  split
  · split
    · refine settles_andThen (hnote _ _) fun _ => ?_
      have hstart : (start false).Settles Anyway Never := gated_settles (starting_settles false)
      refine settles_orElse hstart (fun e => ?_) fun _ _ _ hfalse => hfalse.elim
      exact hstop.andThen (fun _ => trivial) fun _ _ _ _ => ⟨trivial, trivial⟩
    · exact settles_andThen (hnote _ _) fun _ => settles_return hstop _
  · trivial

/-! ## Subscriptions from afar -/

theorem fetch_keepsStore (link : String) : (fetch link).steps.Within KeepsStore :=
  atomic_within fun _ => rfl

theorem importing_settles {t : Transaction (Option Report)} (refusal : Refusal)
    (h : t.Tidies .house) : (importing refusal t).Settles Anyway bad := by
  refine Settles.andThen (?_ : Settles (fun report _ _ => ∃ r, report = some r) _ _) ?_ ?_
  · refine transact_settles fun s hs htidy => ?_
    refine ensures_bind.2 ((h s hs htidy).mono fun report s' hs' => ?_)
    cases report with
    | some r => exact ensures_pure.2 fun _ _ => ⟨hs'.valid, hs'.tidy, r, rfl⟩
    | none => exact ensures_rollback
  · intro report
    cases report <;> trivial
  · rintro _ _ _ ⟨r, rfl⟩
    exact closes_pure trivial

theorem schedule_store {p p' : Plane} {row : Subscription} (h : p.schedule row = .ok p') :
    p'.store = p.store := by
  rw [Plane.schedule] at h
  split at h
  · cases h; rfl
  · cases hread : readSchedule row.schedule with
    | error e => rw [hread] at h; cases h
    | ok schedule =>
      rw [hread] at h
      cases h
      rfl

theorem schedule_keepsStore (p : Plane) (row : Subscription) :
    KeepsStore p (match p.schedule row with
      | .ok p => ((.ok row : Except ControlError Subscription), p)
      | .error e => (.error e, p)).2 := by
  split
  · next h => exact schedule_store h
  · rfl

/-- A schedule that can be read can be followed. -/
theorem exists_schedule (p : Plane) {row : Subscription} (h : Custom.house.schedule row.schedule) :
    ∃ p', p.schedule row = .ok p' := by
  obtain ⟨schedule, hread⟩ := h
  rw [Plane.schedule, hread]
  split
  · exact ⟨_, rfl⟩
  · exact ⟨_, rfl⟩

theorem scheduleIfReadable_store (p : Plane) (row : Subscription)
    (noted : List (String × LogValue)) : (p.scheduleIfReadable row noted).store = p.store := by
  rw [Plane.scheduleIfReadable]
  split
  · next h => exact schedule_store h
  · rfl

theorem tellUpdated_closes {Q : ControlError → Prop} (report : Report) :
    (do tellUpdated report; return report : Operation Report).Closes (fun _ => True) Q := by
  have htell : (tellUpdated report).Closes (fun _ => True) Q := closes_modify fun _ => rfl
  exact htell.andThen fun _ _ => closes_pure trivial

/-- The row that is given is the one that was changed. -/
theorem setSchedule_row (id : Id) (expression : Option String) (scheduled : Option Bool)
    (s : Store) : (Transaction.setSchedule id expression scheduled).Ensures s fun row s' =>
      row ∈ s'.subscriptions.rows := by
  simp only [Transaction.setSchedule, editSubscription, ensures_bind, ensures_modify,
    ensures_subscription]
  exact fun row hrow => (Table.mem_of_find? hrow).1

theorem importSubscription_settles (link : String) (tag : Option String) :
    (Operation.importSubscription link tag).Settles Anyway bad := by
  unfold Operation.importSubscription
  extract_lets rest
  have hrest : ∀ u, (rest u).Settles Anyway bad := by
    intro _
    refine settles_andThen (fetch_keepsStore link) fun links => ?_
    refine (importing_settles _ ?_).andThen (fun report => ?_) fun report _ _ _ => ?_
    · refine (createSubscription_tidies link tag).bind fun row => ?_
      exact (importNodes_tidies _ _ _).bind fun _ => tidies_pure _
    · refine settles_andThen (modify_within fun p => scheduleIfReadable_store p _ _) fun _ => ?_
      exact (tellUpdated_closes report).settles
    · refine (closes_modify fun p => scheduleIfReadable_store p _ _).andThen fun _ _ => ?_
      exact tellUpdated_closes report
  split
  · exact settles_andThen check_within hrest
  · exact hrest ()

theorem refreshNodes_tidies {c : Custom} (id : Id) (links : List String) :
    (do
      let results ← replaceNodes id links
      if countImported results = 0 then return none
      setStatus id ""
      return some ⟨← subscription id, results⟩ : Transaction (Option Report)).Tidies c := by
  refine (replaceNodes_tidies links).bind fun results => ?_
  refine tidies_ite (tidies_pure _) ((setStatus_tidies "").bind fun _ => ?_)
  refine Tidies.bind ?_ fun row => tidies_pure _
  exact fun s hs h => ensures_subscription.2 fun _ _ => .refl hs h

/-- What is left of a refresh once the links were fetched. -/
def replacing (id : Id) (links : List String) : Operation Report := do
  let report ← importing .nothingRefreshed do
    let results ← replaceNodes id links
    if countImported results = 0 then return none
    setStatus id ""
    return some ⟨← subscription id, results⟩
  tellUpdated report
  return report

theorem replacing_settles (id : Id) (links : List String) :
    (replacing id links).Settles Anyway bad := by
  refine (importing_settles _ (refreshNodes_tidies id links)).andThen (fun report => ?_) ?_
  · exact (tellUpdated_closes report).settles
  · exact fun report _ _ _ => tellUpdated_closes report

theorem updateSubscription_settles (id : Id) (hbad : ∀ e s s', bad e s s') :
    (Operation.updateSubscription id).Settles Anyway bad := by
  refine settles_andThen (read_within _ fun _ => rfl) fun row => ?_
  refine Settles.andThen (?_ : Settles (fun _ _ _ => False) _ _) (fun links => ?_) ?_
  · have hfetch : (fetch row.link).Settles (fun _ _ _ => False) Never :=
      settles_of_within (fetch_keepsStore _)
    refine settles_orElse hfetch (fun e => ?_) fun _ _ _ hfalse => hfalse.elim
    exact (tidies_settles (setStatus_tidies _)).andThen (fun _ => trivial) fun _ _ _ _ =>
      closes_throw (hbad _ _ _)
  · exact replacing_settles id links
  · exact fun _ _ _ hfalse => hfalse.elim

theorem removeSubscriptions_settles (ids : List Id) :
    (Operation.removeSubscriptions ids).Settles Anyway bad := by
  have hjobs (p : Plane) : (ids.foldl Plane.unschedule p).store = p.store := by
    induction ids generalizing p with
    | nil => rfl
    | cons id rest ih => exact ih _
  refine (tidies_settles (removeSubscriptions_tidies ids)).andThen (fun _ => ?_) fun _ _ _ _ => ?_
  · exact settles_andThen (modify_within hjobs) fun _ => trivial
  · exact (closes_modify hjobs).andThen fun _ _ => closes_pure trivial

/-- **The schedule that was committed can be read**, whichever it is. -/
theorem setSchedule_settles (id : Id) (expression : Option String) (scheduled : Option Bool) :
    (Operation.setSchedule id expression scheduled).Settles Anyway bad := by
  unfold Operation.setSchedule
  extract_lets rest
  have hrest (hreadable : ∀ e, expression = some e → Custom.house.schedule e) :
      ∀ u, (rest u).Settles Anyway bad := by
    intro _
    have hchange : (change (.setSchedule id expression scheduled)).Settles
        (fun row _ _ => Custom.house.schedule row.schedule) bad := by
      refine change_settles fun s hs htidy => ?_
      refine ((setSchedule_tidies scheduled hreadable s hs htidy).and
        (setSchedule_row id expression scheduled s)).mono fun row s' hboth => ?_
      obtain ⟨hfollows, hrow⟩ := hboth
      exact ⟨hfollows.valid, hfollows.tidy, (hfollows.tidy.subscriptions row hrow).schedule⟩
    refine hchange.andThen (fun row => settles_of_within ?_) fun row _ _ hrow => ?_
    · exact atomic_within fun p => schedule_keepsStore p row
    · refine ⟨atomic_within fun p => schedule_keepsStore p row, fun p => ?_⟩
      obtain ⟨p', hp'⟩ := exists_schedule p hrow
      simp only [hp']
      trivial
  split
  · refine check_settles fun schedule hread => hrest (fun e he => ?_) ()
    cases he
    exact ⟨schedule, hread⟩
  · next hnone => exact hrest (fun e he => absurd he (hnone e)) ()

theorem startScheduler_keepsStore : Operation.startScheduler.steps.Within KeepsStore := by
  rw [startScheduler, subscriptions, look]
  refine (read_within _ fun p => (rfl : KeepsStore p p)).andThen fun rows => ?_
  refine atomic_within fun p => ?_
  show (List.foldl _ p rows).store = p.store
  induction rows generalizing p with
  | nil => rfl
  | cons row rest ih => exact (ih _).trans (scheduleIfReadable_store p row _)

theorem refresh_settles (job : Job) : (Operation.refresh job).Settles Anyway bad := by
  have hasleep {Q : ControlError → Prop} (next : Job) :
      (Operation.modify fun p => { p with
        jobs := p.jobs.map fun j => if j.subscription = job.subscription then next else j
      }).Closes (fun _ => True) Q :=
    closes_modify fun _ => rfl
  have hnow {Q : ControlError → Prop} :
      (Operation.atomic fun p => (.ok p.now, p)).Closes (fun _ => True) Q :=
    ⟨atomic_within fun _ => rfl, fun _ => trivial⟩
  have hagain {Q : ControlError → Prop} : Closes (fun _ => True) Q (do
      let now ← Operation.atomic fun p => (.ok p.now, p)
      Operation.modify fun p => { p with
        jobs := p.jobs.map fun j =>
          if j.subscription = job.subscription then .asleep job.subscription job.schedule now
          else j }) :=
    hnow.andThen fun now _ => hasleep _
  have hupdate := updateSubscription_settles job.subscription fun _ _ _ => trivial
  have hbody := hupdate.andThen (fun _ => hagain.settles) fun _ _ _ _ => hagain
  refine settles_orElse hbody (fun e => ?_) fun e _ _ _ => ?_
  · split
    · exact (hasleep _).settles
    · exact hagain.settles
  · split
    · exact hasleep _
    · exact hagain

end Operation

/-! ## Everything that can be asked -/

/-- An edit that fails after its commit is the refresh of a subscription. -/
theorem Edit.settles (e : Edit) {bad : ControlError → Store → Store → Prop}
    (hbad : ∀ id, e = .updateSubscription id → ∀ error s s', bad error s s') :
    e.operation.Settles Operation.Anyway bad := by
  open Operation Transaction in
  cases e with
  | createSection kind name body =>
    exact settles_return (settles_andThen check_within fun _ => settles_andThen check_within
      fun _ => tidies_settles (createSection_tidies name body)) _
  | updateSection kind id body =>
    exact settles_return (settles_andThen check_within fun _ =>
      tidies_settles (updateSection_tidies body)) _
  | renameSection kind id name =>
    exact settles_return (settles_andThen check_within fun _ =>
      tidies_settles (renameSection_tidies name)) _
  | createGroup name policy params =>
    exact settles_return (check_settles fun _ hpolicy =>
      tidies_settles (createGroup_tidies name params (known_of_checkPolicy hpolicy))) _
  | renameGroup id name => exact settles_return (tidies_settles (renameGroup_tidies name)) _
  | removeGroups ids => exact settles_return (tidies_settles (removeGroups_tidies ids)) _
  | setPolicy id policy params =>
    exact settles_return (check_settles fun _ hpolicy =>
      tidies_settles (setPolicy_tidies params (known_of_checkPolicy hpolicy))) _
  | attachNodes id nodes => exact settles_return (tidies_settles (attachNodes_tidies nodes)) _
  | detachNodes id nodes => exact settles_return (tidies_settles (detachNodes_tidies nodes)) _
  | attachSubscriptions id subscriptions =>
    exact settles_return (tidies_settles (attachSubscriptions_tidies subscriptions)) _
  | detachSubscriptions id subscriptions =>
    exact settles_return (tidies_settles (detachSubscriptions_tidies subscriptions)) _
  | importNodes nodes abort =>
    exact settles_return (tidies_settles (importNodes_tidies none abort nodes)) _
  | removeNodes ids => exact settles_return (tidies_settles (removeNodes_tidies ids)) _
  | tagNode id tag => exact settles_return (tidies_settles (tagNode_tidies tag)) _
  | importSubscription link tag => exact settles_return (importSubscription_settles link tag) _
  | updateSubscription id =>
    exact settles_return (updateSubscription_settles id (hbad id rfl)) _
  | removeSubscriptions ids => exact settles_return (removeSubscriptions_settles ids) _
  | setSchedule id expression scheduled =>
    exact settles_return (setSchedule_settles id expression scheduled) _
  | tagSubscription id tag => exact settles_return (tidies_settles (tagSubscription_tidies tag)) _
  | startScheduler => exact settles_andThen startScheduler_keepsStore fun _ => trivial
  | refresh job => exact refresh_settles job

theorem Command.settles (c : Command) {bad : ControlError → Store → Store → Prop}
    (hbad : ∀ id, c = .edit (.updateSubscription id) → ∀ error s s', bad error s s') :
    c.operation.Settles Operation.Anyway bad := by
  open Operation in
  cases c with
  | run dry => exact gated_settles (starting_settles dry)
  | selectSection kind id => exact gated_settles (choosing_settles kind id)
  | removeSection kind id => exact settles_return (gated_settles (removing_settles kind id)) _
  | edit e => exact settles_return (e.settles fun id he => hbad id (by rw [he])) _

theorem Command.keeps (c : Command) : c.operation.steps.Keeps Plane.Kempt :=
  Operation.Settles.keeps (c.settles fun _ _ _ _ _ => trivial)

namespace Traffic

variable {t : Traffic}

/-- A start leaves the store in good order. -/
theorem kempt_opening {store : Store} {shop : Workshop} {feed : Feed} {weather : Weather}
    (h : opening store shop feed weather = some t) (hvalid : store.Valid)
    (htidy : store.Tidy .house) : t.plane.Kempt ∧ t.clients = [] := by
  obtain ⟨p, -, -, hstore, rfl⟩ := opening_eq_some h
  exact ⟨Operation.resume_settles.keeps.run ⟨store, hstore, hvalid, htidy⟩, rfl⟩

/-- **The store stays in good order**, whoever does what. -/
theorem Reachable.keeping (h : t.Reachable) :
    t.plane.Kempt ∧ ∀ c ∈ t.clients, c.rest.Keeps Plane.Kempt := by
  induction h with
  | first shop feed weather h =>
    obtain ⟨hkempt, hclients⟩ := kempt_opening h valid_empty (tidy_empty _)
    exact ⟨hkempt, fun c hc => by rw [hclients] at hc; cases hc⟩
  | restart _ hstore shop feed weather h ih =>
    obtain ⟨⟨s, hs, hvalid, htidy⟩, -⟩ := ih
    cases hs.symm.trans hstore
    obtain ⟨hkempt, hclients⟩ := kempt_opening h hvalid htidy
    exact ⟨hkempt, fun c hc => by rw [hclients] at hc; cases hc⟩
  | @move t _ m ih =>
    obtain ⟨hkempt, hclients⟩ := ih
    cases m with
    | arrive command =>
      refine ⟨hkempt, fun c hc => ?_⟩
      rcases List.mem_append.1 hc with hc | hc
      · exact hclients c hc
      · rw [List.mem_singleton.1 hc]
        exact command.keeps
    | change weather => exact ⟨Operation.kempt_of_keepsStore rfl hkempt, hclients⟩
    | take i =>
      rcases move_take_cases t i with hsame | ⟨c, change, rest, hc, hrest⟩
      · rw [hsame]
        exact ⟨hkempt, hclients⟩
      · rw [move_take hc hrest]
        have hkeeps := hclients c (List.mem_of_getElem? hc)
        rw [hrest] at hkeeps
        obtain ⟨hkempt', hleft⟩ := hkeeps t.plane hkempt
        refine ⟨hkempt', fun c' hc' => ?_⟩
        rcases List.mem_or_eq_of_mem_set hc' with hold | rfl
        · exact hclients c' hold
        · exact hleft

theorem Reachable.kempt (h : t.Reachable) : t.plane.Kempt := h.keeping.1

end Traffic

/-! ## What a failure leaves behind -/

/-- A store in which a subscription is told what came of its last refresh. -/
def Store.withStatus (s : Store) (id : Id) (status : String) : Store :=
  { s with subscriptions := s.subscriptions.modify id fun row => { row with status := status } }

/-- The subscription that a command refreshes and why it cannot be fetched, if it cannot. -/
def Command.failedDownload? (c : Command) (s : Store) (remote : Remote) :
    Option (Id × FetchError) :=
  match c with
  | .edit (.updateSubscription id) =>
    match s.subscriptions.find? id with
    | some row =>
      match remote.links row.link with
      | .error failure => some (id, failure)
      | .ok _ => none
    | none => none
  | _ => none

theorem Command.failedDownload?_eq_none {c : Command}
    (hc : ∀ id, c ≠ .edit (.updateSubscription id)) (s : Store) (remote : Remote) :
    c.failedDownload? s remote = none := by
  cases c with
  | edit e =>
    cases e with
    | updateSubscription id => exact absurd rfl (hc id)
    | _ => rfl
  | _ => rfl

namespace Operation
open Transaction

variable {p : Plane} {s : Store} {id : Id}

/-- The status of a subscription that is there can be set. -/
theorem setStatus_on {row : Subscription} (hrow : s.subscriptions.find? id = some row)
    (status : String) : (setStatus id status).on s = (.ok (), s.withStatus id status) := by
  have hfound : (s.subscriptions.modify id fun row => { row with status }).find? id =
      some { row with status } := by
    rw [Table.find?_modify (by exact fun _ => rfl), hrow]
    rfl
  simp only [setStatus, editSubscription, subscription, on_bind, on_modify, on_get, hfound]
  rfl

theorem read_subscription_run {row : Subscription} (hs : p.store = some s)
    (hrow : s.subscriptions.find? id = some row) :
    (read (.subscription id)).steps.run p = (.ok row, p) := by
  have hon : ((·, Closing.rollback) <$> subscription id).on s = (.ok (row, .rollback), s) := by
    simp [subscription, on_bind, require, hrow]
  exact transact_run_ok hs hon

theorem fetch_run {link : String} : (fetch link).steps.run p =
    ((p.remote.links link).mapError .fetch, p) :=
  rfl

/-- **A subscription that cannot be fetched**: the failure is recorded, and nothing else is done. -/
theorem updateSubscription_run_failed {row : Subscription} {failure : FetchError}
    (hs : p.store = some s) (hrow : s.subscriptions.find? id = some row)
    (hfailure : p.remote.links row.link = .error failure) :
    (Operation.updateSubscription id).steps.run p =
      (.error (.fetch failure), p.commit (s.withStatus id failure.message) none) := by
  have hstatus : (change (setStatus id failure.message)).steps.run p =
      (.ok (), p.commit (s.withStatus id failure.message) none) := by
    have hon : ((·, Closing.commit none) <$> setStatus id failure.message).on s =
        (.ok ((), .commit none), s.withStatus id failure.message) := by
      rw [on_map, setStatus_on hrow]
    exact transact_run_ok hs hon
  have hfetch : (fetch row.link).steps.run p = (.error (.fetch failure), p) := by
    rw [fetch_run, hfailure]
    rfl
  refine (run_andThen_ok (read_subscription_run hs hrow)).trans (run_andThen_error ?_)
  refine (run_orElse_error hfetch).trans ?_
  exact (run_andThen_ok hstatus).trans rfl

/-- A subscription that was fetched. -/
theorem updateSubscription_run_fetched {row : Subscription} {links : List String}
    (hs : p.store = some s) (hrow : s.subscriptions.find? id = some row)
    (hlinks : p.remote.links row.link = .ok links) :
    (Operation.updateSubscription id).steps.run p = (replacing id links).steps.run p := by
  have hfetch : (fetch row.link).steps.run p = (.ok links, p) := by
    rw [fetch_run, hlinks]
    rfl
  exact (run_andThen_ok (read_subscription_run hs hrow)).trans
    (run_andThen_ok (run_orElse_ok hfetch))

/-- A subscription that is not there. -/
theorem updateSubscription_run_none (hs : p.store = some s)
    (hrow : s.subscriptions.find? id = none) :
    (Operation.updateSubscription id).steps.run p =
      (.error (.noSuchRow .subscription id), p) := by
  have hon : ((·, Closing.rollback) <$> subscription id).on s =
      (.error (.notFound .subscription id), s) := by
    simp [subscription, on_bind, require, hrow]
  exact run_andThen_error (transact_run_error hs hon)

end Operation

/-- A command that does not refresh a subscription never fails after its commit. -/
theorem Command.failed {c : Command} (hc : ∀ id, c ≠ .edit (.updateSubscription id)) {p p' : Plane}
    (hp : p.Kempt) {e : ControlError} (hfailed : c.operation.steps.run p = (.error e, p')) :
    p'.store = p.store := by
  have hnever : c.operation.Settles Operation.Anyway Operation.Never :=
    c.settles fun id hid => absurd hid (hc id)
  have hstore := hnever.failed hp (congrArg Prod.fst hfailed)
  rwa [hfailed] at hstore

/-- What comes of a refresh comes of the command for it. -/
theorem Command.run_updateSubscription {id : Id} {p p' : Plane}
    {result : Except ControlError Report}
    (h : (Operation.updateSubscription id).steps.run p = (result, p')) :
    (Command.edit (.updateSubscription id)).operation.steps.run p =
      (result.map fun _ => none, p') := by
  cases result with
  | ok report => exact run_andThen_ok (run_andThen_ok h)
  | error e => exact run_andThen_error (run_andThen_error h)

/-- **What a failure leaves behind**: from every state that can be reached, a command that fails
leaves the store as it was.  If it was to refresh a subscription that cannot be fetched, the store
is as it was but for the status of that subscription, which tells what went wrong. -/
theorem Traffic.Reachable.failure_law {t : Traffic} (h : t.Reachable) (c : Command)
    {e : ControlError} {p : Plane} (hfailed : c.operation.steps.run t.plane = (.error e, p)) :
    ∃ s, t.plane.store = some s ∧
      match c.failedDownload? s t.plane.remote with
      | some (id, failure) =>
        e = .fetch failure ∧ p.store = some (s.withStatus id failure.message)
      | none => p.store = some s := by
  obtain ⟨s, hs, hvalid, htidy⟩ := h.kempt
  have hkempt : t.plane.Kempt := ⟨s, hs, hvalid, htidy⟩
  refine ⟨s, hs, ?_⟩
  by_cases hc : ∃ id, c = .edit (.updateSubscription id)
  · obtain ⟨id, rfl⟩ := hc
    cases hrow : s.subscriptions.find? id with
    | none =>
      simp only [Command.failedDownload?, hrow]
      have hrun := Command.run_updateSubscription
        (Operation.updateSubscription_run_none hs hrow)
      cases hrun.symm.trans hfailed
      exact hs
    | some row =>
      cases hlinks : t.plane.remote.links row.link with
      | error failure =>
        simp only [Command.failedDownload?, hrow, hlinks]
        have hrun := Command.run_updateSubscription
          (Operation.updateSubscription_run_failed hs hrow hlinks)
        cases hrun.symm.trans hfailed
        exact ⟨rfl, Plane.commit_store _ _ _⟩
      | ok links =>
        simp only [Command.failedDownload?, hrow, hlinks]
        rcases hreplaced : (Operation.replacing id links).steps.run t.plane with ⟨result, p'⟩
        have hrun := Command.run_updateSubscription
          ((Operation.updateSubscription_run_fetched hs hrow hlinks).trans hreplaced)
        cases result with
        | ok report => cases hrun.symm.trans hfailed
        | error e' =>
          cases hrun.symm.trans hfailed
          have hnever : (Operation.replacing id links).Settles Operation.Anyway Operation.Never :=
            Operation.replacing_settles id links
          have hstore := hnever.failed hkempt (congrArg Prod.fst hreplaced)
          rw [hreplaced] at hstore
          exact hstore.trans hs
  · have hother : ∀ id, c ≠ .edit (.updateSubscription id) := fun id hid => hc ⟨id, hid⟩
    rw [Command.failedDownload?_eq_none hother]
    exact (Command.failed hother hkempt hfailed).trans hs

namespace Traffic

/-- The link of a subscription is answered with one node. -/
def answered : Weather :=
  ⟨.none, none, false,
    [("https://list.example/a", ⟨200, "socks5://n1.example:1080#N1".toUTF8.data.toList⟩)], 0⟩

/-- No link is answered. -/
def unanswered : Weather := ⟨.none, none, false, [], 0⟩

/-- A subscription was imported while its link was answered, which it is no more. -/
def subscribed : Traffic :=
  ((fresh.move (.change answered)).ask (.edit (.importSubscription "https://list.example/a" none))
    4).move (.change unanswered)

theorem subscribed_reachable : subscribed.Reachable :=
  ((fresh_reachable.move _).ask _ _).move _

/-- A refresh that fails keeps the node that was imported, and tells why it failed. -/
theorem failure_law_unanswered : ∃ s e p, subscribed.plane.store = some s ∧
    (∃ row ∈ s.subscriptions.rows, row.id = 1 ∧ row.status = "") ∧
      (∃ n ∈ s.nodes.rows, n.subscription = some 1) ∧
        (Command.edit (.updateSubscription 1)).operation.steps.run subscribed.plane =
          (.error e, p) ∧ p.store = some (s.withStatus 1 e.message) := by
  let command : Command := .edit (.updateSubscription 1)
  let link := "https://list.example/a"
  let failure : FetchError := .request link (.unanswered link)
  have he : (command.operation.steps.run subscribed.plane).1 = .error (.fetch failure) := by
    decide +kernel
  obtain ⟨s, hs, hlaw⟩ := subscribed_reachable.failure_law command (Prod.ext he rfl)
  obtain ⟨s₁, hs₁, hrow, hnode, hdownload⟩ := exists_of_any (o := subscribed.plane.store)
    (P := fun s => (∃ row ∈ s.subscriptions.rows, row.id = 1 ∧ row.status = "") ∧
      (∃ n ∈ s.nodes.rows, n.subscription = some 1) ∧
        command.failedDownload? s subscribed.plane.remote = some (1, failure)) (by decide +kernel)
  cases hs₁.symm.trans hs
  rw [hdownload] at hlaw
  exact ⟨s, _, _, hs, hrow, hnode, Prod.ext he rfl, hlaw.2⟩

end Traffic
end ProxyPlane
