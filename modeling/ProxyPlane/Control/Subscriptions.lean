import ProxyPlane.Control.Plane

/-!
# Operations on subscriptions

A subscription is fetched outside any transaction.  Every subscription that is to be refreshed on
schedule has a job, which sleeps until the next instant of its schedule, refreshes, and goes back to
sleep; it ends when the subscription is gone or the schedule holds no instant any more.

## Main definitions

* `Plane.schedule`, `Plane.unschedule` — jobs.
* `Operation.importSubscription`, `Operation.updateSubscription` — nodes from afar.
* `Operation.startScheduler`, `Plane.stopScheduler` — all jobs at once.
* `Operation.elapse` — lets the jobs sleep for a while.
-/

set_option autoImplicit false
namespace ProxyPlane

/-- The schedule that an expression stands for. -/
def readSchedule (expression : String) : Except ControlError Cron :=
  match Cron.parse? expression with
  | some schedule => .ok schedule
  | none => .error (.refused .notASchedule)

/-- A job that goes to sleep now. -/
def Job.asleep (subscription : Id) (schedule : Cron) (now : Instant) : Job :=
  ⟨subscription, schedule, (schedule.next? now).map fun next => (next - now).toNat⟩

/-- Puts a job in the place of the one for the same subscription, or between its neighbours. -/
def Job.place (job : Job) : List Job → List Job
  | [] => [job]
  | other :: rest =>
    if job.subscription < other.subscription then job :: other :: rest
    else if job.subscription = other.subscription then job :: rest
    else other :: Job.place job rest

namespace Plane

/-- Ends the job of a subscription. -/
def unschedule (p : Plane) (id : Id) : Plane :=
  { p with jobs := p.jobs.filter fun job => job.subscription != id }

/-- Gives a subscription the job that it is to have. -/
def schedule (p : Plane) (s : Subscription) : Except ControlError Plane :=
  if !s.scheduled then .ok (p.unschedule s.id)
  else
    (readSchedule s.schedule).map fun schedule =>
      { p with jobs := Job.place (.asleep s.id schedule p.now) p.jobs }.note .debug
        "subscription scheduled" [("id", .number s.id), ("cron", .text s.schedule)]

/-- The same, for a subscription whose schedule may be unreadable: it is left as it is then. -/
def scheduleIfReadable (p : Plane) (s : Subscription) (noted : List (String × LogValue)) : Plane :=
  match p.schedule s with
  | .ok p => p
  | .error e => p.note .warn "subscription not scheduled"
      ([("id", .number s.id)] ++ noted ++ [("error", .text e.message)])

/-- The subscriptions that have a job. -/
def scheduled (p : Plane) : List Id := p.jobs.map (·.subscription)

/-- Ends all jobs. -/
def stopScheduler (p : Plane) : Plane := { p with jobs := [] }

end Plane

/-- A subscription after an import, and what became of each link. -/
structure Report where
  subscription : Subscription
  results : List Imported

/-- How many links became nodes. -/
def countImported (results : List Imported) : Nat :=
  results.countP fun r => match r.outcome with
    | .ok _ => true
    | .error _ => false

/-- An identifier as a word of 64 bits without a sign. -/
def Id.unsigned (id : Id) : Nat := (id % (Text.maxNat64 + 1)).toNat

namespace Operation

/-- All subscriptions. -/
def subscriptions : Operation (List Subscription) := look (·.subscriptions.rows)

/-- The links that a subscription lists. -/
def fetch (link : String) : Operation (List String) :=
  atomic fun p => ((p.remote.links link).mapError .fetch, p)

/-- A transaction whose import has to import something. -/
def importing (refusal : Refusal) (t : Transaction (Option Report)) : Operation Report := do
  let report ← transact do
    match ← t with
    | some report => return (some report, .commit none)
    | none => return (none, .rollback)
  match report with
  | some report => return report
  | none => throw (.refused refusal)

/-- Tells that the nodes of a subscription were replaced. -/
def tellUpdated (report : Report) : Operation Unit :=
  modify (·.emit (.subscriptionUpdated (Id.unsigned report.subscription.id) (countImported report.results)))

/-- Fetches a subscription and stores it with the nodes that it lists. -/
def importSubscription (link : String) (tag : Option String) : Operation Report := do
  if let some tag := tag then check ((checkIdentifier .tag tag).mapError .ofStore)
  let links ← fetch link
  let report ← importing .nothingImported do
    let row ← Transaction.createSubscription link tag
    let results ← Transaction.importNodes (some row.id) false (links.map fun link => ⟨link, none⟩)
    return if countImported results = 0 then none else some ⟨row, results⟩
  modify fun p => p.scheduleIfReadable report.subscription []
  tellUpdated report
  return report

/-- Fetches a subscription again and replaces its nodes.  If it cannot be fetched, the nodes stay and
the failure is recorded. -/
def updateSubscription (id : Id) : Operation Report := do
  let row ← read (.subscription id)
  let links ← tryCatch (fetch row.link) fun e => do
    change (.setStatus id e.message)
    throw e
  let report ← importing .nothingRefreshed do
    let results ← Transaction.replaceNodes id links
    if countImported results = 0 then return none
    Transaction.setStatus id ""
    return some ⟨← Transaction.subscription id, results⟩
  tellUpdated report
  return report

/-- Removes subscriptions with their nodes and their jobs, and tells how many there were. -/
def removeSubscriptions (ids : List Id) : Operation Nat := do
  let removed ← change (.removeSubscriptions ids)
  modify fun p => ids.foldl Plane.unschedule p
  return removed

/-- Changes the schedule of a subscription; what is not given stays. -/
def setSchedule (id : Id) (expression : Option String) (scheduled : Option Bool) : Operation Subscription := do
  if let some expression := expression then
    let _ ← check (readSchedule expression)
  let row ← change (.setSchedule id expression scheduled)
  atomic fun p =>
    match p.schedule row with
    | .ok p => (.ok row, p)
    | .error e => (.error e, p)

/-- Gives a subscription a tag. -/
def tagSubscription (id : Id) (tag : String) : Operation Subscription := change (.tagSubscription id tag)

/-- Gives every subscription the job that it is to have, and tells how many jobs there are. -/
def startScheduler : Operation Nat := do
  let rows ← subscriptions
  atomic fun p =>
    let p := rows.foldl (fun p row => p.scheduleIfReadable row [("cron", .text row.schedule)]) p
    let count := p.jobs.length
    (.ok count, p.note .info "subscription scheduler started" [("scheduled", .number count)])

/-- Refreshes a subscription whose job has woken up, and lets the job sleep again.  A job whose
subscription is gone wakes up no more. -/
def refresh (job : Job) : Operation Unit := do
  let asleep (next : Job) : Operation Unit := modify fun p =>
    { p with jobs := p.jobs.map fun j => if j.subscription = job.subscription then next else j }
  tryCatch
    (do
      let _ ← updateSubscription job.subscription
      asleep (.asleep job.subscription job.schedule (← atomic fun p => (.ok p.now, p))))
    fun e =>
      match e with
      | .noSuchRow _ _ => asleep { job with sleep := none }
      | _ => do asleep (.asleep job.subscription job.schedule (← atomic fun p => (.ok p.now, p)))

/-- Lets the jobs sleep for so many seconds.  Those that sleep no longer than that refresh, once; how
many that were is told. -/
def elapse (seconds : Nat) : Operation Nat := do
  let awake ← atomic fun p =>
    let due (j : Job) : Bool := j.sleep.any fun s => s ≤ seconds
    let jobs := p.jobs.map fun j => { j with sleep := j.sleep.map (· - seconds) }
    (.ok (p.jobs.filter due), { p with jobs := jobs })
  awake.forM refresh
  return awake.length

end Operation
end ProxyPlane
