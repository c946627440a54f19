import Mathlib.Data.List.Chain
import ProxyPlane.Proofs.Observers
import ProxyPlane.Proofs.Worker

/-!
# What the worker reports

Counters and gauges are kept beside the events, by statements of their own.  That they say the same
is a matter of every place where one of them changes: an event is counted under its kind where it is
published, the end of a reload under its outcome, and a state is measured where it is entered.

The bus keeps the last events only, so what was told cannot be read off it.  It is instead what a
step does to any bus that it is given: a step that reports makes the same moves on every bus, and
does not look at the bus otherwise.

## What is here

* `Event.outcome?`, `Event.state?`, `Bus.told` — the outcome of a reload and the state that an event
  tells, and the events that moves of a bus tell.
* `Worker.Agrees` — the counters and gauges agree with the events that were told.
* `Worker.Agrees.emit`, `Worker.Agrees.report`, `Worker.Agrees.enter` — what keeps the agreement: to
  tell an event, to tell and count the end of a reload, to tell and measure a state.
* `Reports` — a step makes the same moves on every bus and keeps the agreement.
* `Worker.request_reports`, `Worker.complete_reports`, `Worker.shutdown_reports` — all that can be
  asked of a worker.
* `Worker.agrees_idle`, `Worker.boot_reports` — where that begins.
-/

set_option autoImplicit false
namespace ProxyPlane

/-! ## Counting -/

theorem Tally.count_cons (t : Tally) (l labels : List String) (n : Nat) :
    Tally.count ((l, n) :: t) labels = if l = labels then n else t.count labels := by
  rw [Tally.count, List.lookup_cons]
  by_cases h : l = labels
  · rw [h, beq_self_eq_true, if_pos rfl]
    rfl
  · rw [beq_false_of_ne (Ne.symm h), if_neg h]
    rfl

/-- Counting once more adds one to what is counted, and nothing to the rest. -/
theorem Tally.count_add (t : Tally) (labels labels' : List String) :
    (t.add labels).count labels' = t.count labels' + if labels = labels' then 1 else 0 := by
  induction t with
  | nil =>
    rw [Tally.add, Tally.count_cons, Tally.count, List.lookup_nil]
    split <;> rfl
  | cons entry t ih =>
    obtain ⟨l, n⟩ := entry
    rw [Tally.add]
    by_cases hl : l = labels
    · rw [if_pos hl, Tally.count_cons, Tally.count_cons, ← hl]
      split <;> rfl
    · rw [if_neg hl, Tally.count_cons, Tally.count_cons, ih]
      split
      · next hl' => rw [if_neg (hl' ▸ Ne.symm hl), Nat.add_zero]
      · rfl

/-- A number that a signed word of 64 bits holds is kept. -/
theorem Metrics.saturate_of_le {n : Nat} (h : n ≤ Text.maxInt64) : saturate n = n :=
  Int.min_eq_left (Int.ofNat_le.2 h)

/-! ## What events tell -/

namespace Event

/-- The outcome of a reload that an event tells, as it is counted. -/
def outcome? : Event → Option String
  | reloadApplied _ => some "applied"
  | reloadRolledBack _ => some "rolled_back"
  | reloadFatal _ => some "fatal"
  | _ => none

/-- The state that an event tells. -/
def state? : Event → Option EngineState
  | engineStateChanged state => some state
  | _ => none

/-- The states that some events tell, one after the other. -/
def states (told : List Event) : List EngineState := told.filterMap state?

theorem states_append_other {event : Event} (h : event.state? = none) (told : List Event) :
    states (told ++ [event]) = states told := by
  simp [states, h]

theorem states_append_changed (told : List Event) (state : EngineState) :
    states (told ++ [.engineStateChanged state]) = states told ++ [state] := by
  simp [states, state?]

end Event

namespace Bus

/-- The event that a move publishes, if it publishes one. -/
def Move.event? : Move → Option Event
  | publish event => some event
  | _ => none

/-- What is told by some moves, one after the other. -/
def told (moves : List Move) : List Event := moves.filterMap Move.event?

/-- A bus on which some events were published. -/
def publishes (b : Bus) (events : List Event) : Bus := b.after (events.map .publish)

theorem after_append (b : Bus) (moves moves' : List Move) :
    b.after (moves ++ moves') = (b.after moves).after moves' :=
  List.foldl_append

theorem told_append (moves moves' : List Move) :
    told (moves ++ moves') = told moves ++ told moves' :=
  List.filterMap_append

theorem publishes_append (b : Bus) (events events' : List Event) :
    b.publishes (events ++ events') = (b.publishes events).publishes events' := by
  rw [publishes, List.map_append, after_append, publishes, publishes]

theorem told_publish (events : List Event) : told (events.map .publish) = events := by
  simp [told, List.filterMap_map, Function.comp_def, Move.event?]

end Bus

/-! ## The agreement -/

/-- Metrics that are the same as far as events tell of them. -/
structure Metrics.SameTold (m m' : Metrics) : Prop where
  events : m'.events = m.events
  reloads : m'.reloads = m.reloads
  engineState : m'.engineState = m.engineState
  resolvedNodes : m'.resolvedNodes = m.resolvedNodes

namespace Worker

/-- The counters and gauges of a worker agree with the events that were told. -/
structure Agrees (told : List Event) (w : Worker) : Prop where
  /-- Events are counted by kind, as they are told. -/
  events : ∀ kind, w.feed.metrics.events.count [kind] = told.countP fun e => e.kind = kind
  /-- Reloads are counted by outcome, as events tell it; a dry worker has none to tell. -/
  reloads : ∀ outcome, outcome ≠ "dry" →
    w.feed.metrics.reloads.count [outcome] = told.countP fun e => e.outcome? = some outcome
  gauge : w.feed.metrics.engineState = w.state.code
  /-- No state is told twice in a row, and the first one is news as well. -/
  changes : (EngineState.idle :: Event.states told).IsChain (· ≠ ·)
  last : (Event.states told).getLastD .idle = w.state
  nodes : w.state = .listening → ∃ engine, w.live = some engine ∧
    w.feed.metrics.resolvedNodes = Metrics.saturate engine.snapshot.nodes.length

variable {told : List Event} {w : Worker}

/-- Nothing was told of a worker that has not begun. -/
theorem agrees_idle (dry : Bool) (shop : Workshop) (bus : Bus) :
    (idle dry shop (.ofBus bus)).Agrees [] where
  events _ := rfl
  reloads _ _ := rfl
  gauge := rfl
  changes := List.isChain_singleton _
  last := rfl
  nodes h := by cases h

/-- One event more is counted under its kind. -/
theorem Agrees.count_events (h : w.Agrees told) (event : Event) (kind : String) :
    (w.feed.metrics.events.add [event.kind]).count [kind] =
      (told ++ [event]).countP fun e => e.kind = kind := by
  rw [Tally.count_add, h.events, List.countP_append, List.countP_singleton]
  simp

/-- One event more tells of the end of a reload, or of none. -/
theorem Agrees.count_reloads (h : w.Agrees told) (event : Event) {outcome : String}
    (hdry : outcome ≠ "dry") :
    (told ++ [event]).countP (fun e => e.outcome? = some outcome) =
      w.feed.metrics.reloads.count [outcome] +
        if event.outcome? = some outcome then 1 else 0 := by
  rw [List.countP_append, List.countP_singleton, h.reloads outcome hdry]
  simp

theorem Agrees.count_reloads_other (h : w.Agrees told) {event : Event}
    (hevent : event.outcome? = none) {outcome : String} (hdry : outcome ≠ "dry") :
    w.feed.metrics.reloads.count [outcome] =
      (told ++ [event]).countP fun e => e.outcome? = some outcome := by
  rw [h.count_reloads event hdry, hevent, if_neg (by simp), Nat.add_zero]

/-- **An event that tells of no reload and of no state** is told and counted. -/
theorem Agrees.emit (h : w.Agrees told) {event : Event} (houtcome : event.outcome? = none)
    (hstate : event.state? = none) : (w.emit event).Agrees (told ++ [event]) where
  events := h.count_events event
  reloads _ := h.count_reloads_other houtcome
  gauge := h.gauge
  changes := (Event.states_append_other hstate told).symm ▸ h.changes
  last := (Event.states_append_other hstate told).symm ▸ h.last
  nodes := h.nodes

/-- **The end of a reload** is counted and told. -/
theorem Agrees.report (h : w.Agrees told) {event : Event} {outcome : String}
    (houtcome : event.outcome? = some outcome) (hstate : event.state? = none) :
    ((w.count outcome).emit event).Agrees (told ++ [event]) where
  events := h.count_events event
  reloads outcome' hdry := by
    rw [h.count_reloads event hdry, houtcome]
    refine (Tally.count_add w.feed.metrics.reloads [outcome] [outcome']).trans ?_
    simp
  gauge := h.gauge
  changes := (Event.states_append_other hstate told).symm ▸ h.changes
  last := (Event.states_append_other hstate told).symm ▸ h.last
  nodes := h.nodes

/-- A dry worker counts what it does not do. -/
theorem Agrees.count_dry (h : w.Agrees told) : (w.count "dry").Agrees told where
  events := h.events
  reloads outcome hdry := by
    refine (Tally.count_add w.feed.metrics.reloads ["dry"] [outcome]).trans ?_
    rw [h.reloads outcome hdry, if_neg (by simpa using Ne.symm hdry), Nat.add_zero]
  gauge := h.gauge
  changes := h.changes
  last := h.last
  nodes := h.nodes

/-- What is told when a state is entered. -/
def entering (w : Worker) (state : EngineState) : List Event :=
  if w.state = state then [] else [.engineStateChanged state]

/-- **Entering a state** measures it and tells of it, if it is another one.  Where it is that of an
engine that serves, the nodes have to be those of the engine. -/
theorem Agrees.enter (h : w.Agrees told) {state : EngineState}
    (hnodes : state = .listening → ∃ engine, w.live = some engine ∧
      w.feed.metrics.resolvedNodes = Metrics.saturate engine.snapshot.nodes.length) :
    (w.enter state).Agrees (told ++ w.entering state) := by
  rw [Worker.enter, entering]
  split
  · rw [List.append_nil]
    exact h
  · next hnew =>
    refine ⟨h.count_events _, fun _ => h.count_reloads_other rfl, rfl, ?_, ?_, hnodes⟩
    · have hlast : (EngineState.idle :: Event.states told).getLast? = some w.state := by
        rw [List.getLast?_cons, ← h.last, List.getLastD_eq_getLast?]
      rw [Event.states_append_changed, ← List.cons_append, List.isChain_append, hlast]
      refine ⟨h.changes, List.isChain_singleton _, fun _ hx _ hy => ?_⟩
      cases hx
      cases hy
      exact hnew
    · rw [Event.states_append_changed, List.getLastD_concat]
      rfl

/-- A worker whose new engine is ready: its nodes have been measured. -/
def ready (w : Worker) (shop : Workshop) (engine : Engine) : Worker :=
  { w with
    shop, live := some engine, rebuild := none
    feed := w.feed.measure (·.setNodes engine.snapshot.nodes.length) }

theorem Agrees.ready (h : w.Agrees told) (shop : Workshop) (engine : Engine) :
    (w.ready shop engine).Agrees told where
  events := h.events
  reloads := h.reloads
  gauge := h.gauge
  changes := h.changes
  last := h.last
  nodes _ := ⟨engine, rfl, rfl⟩

/-- The agreement is about some of the metrics, the state, and the engine as long as one serves. -/
theorem Agrees.congr (h : w.Agrees told) {w' : Worker}
    (hmetrics : w.feed.metrics.SameTold w'.feed.metrics) (hstate : w'.state = w.state)
    (hlive : w.state = .listening → w'.live = w.live) : w'.Agrees told where
  events kind := hmetrics.events ▸ h.events kind
  reloads outcome hdry := hmetrics.reloads ▸ h.reloads outcome hdry
  gauge := by rw [hmetrics.engineState, hstate, h.gauge]
  changes := h.changes
  last := by rw [hstate, h.last]
  nodes hlistens := by
    rw [hstate] at hlistens
    rw [hmetrics.resolvedNodes, hlive hlistens]
    exact h.nodes hlistens

/-- Entering a state in which no engine serves. -/
theorem Agrees.leave (h : w.Agrees told) (state : EngineState) {w' : Worker}
    (hstate : state ≠ .listening) (hfeed : w'.feed = (w.enter state).feed)
    (hsame : w'.state = state) : w'.Agrees (told ++ w.entering state) := by
  have hentered := enter_state w state
  refine (h.enter fun hlistens => absurd hlistens hstate).congr ?_ (hsame.trans hentered.symm) ?_
  · rw [hfeed]
    exact ⟨rfl, rfl, rfl, rfl⟩
  · exact fun hlistens => absurd (hentered.symm.trans hlistens) hstate

end Worker

/-! ## Steps that report -/

section Steps
variable {σ α β : Type} {onBus : σ → Bus → σ} {worker : σ → Worker} {s s' : σ} {step : σ → α × σ}
  {next : σ → β × σ}

/-- **A step reports**: what it does to the bus it does to every bus, without looking at it, and
what is counted and measured agrees with what has been told then. -/
def Reports (onBus : σ → Bus → σ) (worker : σ → Worker) (step : σ → α × σ) (s : σ) : Prop :=
  ∃ a s' moves, (∀ bus, step (onBus s bus) = (a, onBus s' (bus.after moves))) ∧
    ∀ told, (worker s).Agrees told → (worker s').Agrees (told ++ Bus.told moves)

/-- A step that tells some news. -/
theorem reports_news (a : α) (s' : σ) (news : List Event)
    (hstep : ∀ bus, step (onBus s bus) = (a, onBus s' (bus.publishes news)))
    (hagrees : ∀ told, (worker s).Agrees told → (worker s').Agrees (told ++ news)) :
    Reports onBus worker step s :=
  ⟨a, s', news.map .publish, hstep, fun told h => (Bus.told_publish news).symm ▸ hagrees told h⟩

/-- A step that tells nothing. -/
theorem reports_still (a : α) (s' : σ) (hstep : ∀ bus, step (onBus s bus) = (a, onBus s' bus))
    (hagrees : ∀ told, (worker s).Agrees told → (worker s').Agrees told) :
    Reports onBus worker step s :=
  reports_news a s' [] hstep fun told h => (List.append_nil told).symm ▸ hagrees told h

/-- A step that goes on where another one begins, where the agreement is the same. -/
theorem Reports.of {step' : σ → α × σ} (h : Reports onBus worker step s')
    (hstep : ∀ bus, step' (onBus s bus) = step (onBus s' bus))
    (hagrees : ∀ told, (worker s).Agrees told → (worker s').Agrees told) :
    Reports onBus worker step' s := by
  obtain ⟨a, s'', moves, hbus, htold⟩ := h
  exact ⟨a, s'', moves, fun bus => (hstep bus).trans (hbus bus),
    fun told h => htold told (hagrees told h)⟩

/-- Whatever is made of the result of a step. -/
theorem Reports.map (h : Reports onBus worker step s) (f : α → β) :
    Reports onBus worker (fun s => (f (step s).1, (step s).2)) s := by
  obtain ⟨a, s', moves, hbus, htold⟩ := h
  exact ⟨f a, s', moves, fun bus => by simp only [hbus], htold⟩

/-- One step after another. -/
theorem Reports.andThen (h : Reports onBus worker step s)
    (h' : ∀ s, Reports onBus worker next s) :
    Reports onBus worker (fun s => next (step s).2) s := by
  obtain ⟨a, s', moves, hbus, htold⟩ := h
  obtain ⟨b, s'', moves', hbus', htold'⟩ := h' s'
  refine ⟨b, s'', moves ++ moves', fun bus => ?_, fun told h => ?_⟩
  · simp only [hbus, hbus', Bus.after_append]
  · rw [Bus.told_append, ← List.append_assoc]
    exact htold' _ (htold told h)

end Steps

namespace Worker

variable {told : List Event} {w : Worker}

/-- The worker with its events on another bus. -/
def onBus (w : Worker) (bus : Bus) : Worker := { w with feed := { w.feed with bus } }

/-- A step of a worker that reports. -/
abbrev Reports {α : Type} (step : Worker → α × Worker) (w : Worker) : Prop :=
  ProxyPlane.Reports onBus (fun w => w) step w

@[simp] theorem onBus_dry (w : Worker) (bus : Bus) : (w.onBus bus).dry = w.dry := rfl

@[simp] theorem onBus_shop (w : Worker) (bus : Bus) : (w.onBus bus).shop = w.shop := rfl

@[simp] theorem onBus_live (w : Worker) (bus : Bus) : (w.onBus bus).live = w.live := rfl

@[simp] theorem onBus_rebuild (w : Worker) (bus : Bus) : (w.onBus bus).rebuild = w.rebuild := rfl

@[simp] theorem onBus_ended (w : Worker) (bus : Bus) : (w.onBus bus).ended = w.ended := rfl

@[simp] theorem onBus_refusal (w : Worker) (bus : Bus) : (w.onBus bus).refusal = w.refusal := rfl

theorem onBus_enter (w : Worker) (bus : Bus) (state : EngineState) :
    (w.onBus bus).enter state = (w.enter state).onBus (bus.publishes (w.entering state)) := by
  simp only [enter, entering]
  by_cases h : w.state = state
  · rw [if_pos h, if_pos h, if_pos (by exact h)]
    rfl
  · rw [if_neg h, if_neg h, if_neg (by exact h)]
    rfl

/-! ## What a worker does -/

/-- To give up an engine is told as a state. -/
theorem begin_reports (w : Worker) (snapshot : Snapshot) :
    w.Reports fun w => ((), w.begin snapshot) := by
  cases hlive : w.live with
  | none =>
    refine reports_still () w (fun bus => ?_) fun told h => h
    simp only [begin, onBus_live, hlive]
  | some previous =>
    refine reports_news () (w.begin snapshot) (w.entering .reloading) (fun bus => ?_) ?_
    · simp only [begin, onBus_live, hlive, onBus_enter]
      rfl
    · intro told h
      simp only [begin, hlive]
      exact h.leave .reloading (by decide) rfl (enter_state _ _)

/-- The end of a worker is told twice: as the end of a reload, and as a state. -/
theorem die_reports (w : Worker) (fault : Fault) : w.Reports fun w => w.die fault := by
  set event : Event := .reloadFatal fault.message with hevent
  refine reports_news (w.die fault).1 (w.die fault).2 (event :: w.entering .closed)
    (fun bus => ?_) fun told h => ?_
  · have hcounted : ((w.onBus bus).count "fatal").emit event =
        ((w.count "fatal").emit event).onBus (bus.publish event).2 := rfl
    simp only [die]
    rw [← hevent, hcounted, onBus_enter]
    rfl
  · have hfatal : ((w.count "fatal").emit event).Agrees (told ++ [event]) := h.report rfl rfl
    rw [List.append_cons]
    exact hfatal.leave .closed (by decide) rfl (enter_state _ _)

/-- An engine serves, and the end of the reload is told: the state first, then the outcome. -/
theorem settle_reports {α : Type} (answer : α) (event : Event) {outcome : String} {engine : Engine}
    (houtcome : event.outcome? = some outcome) (hstate : event.state? = none)
    (hlive : w.live = some engine)
    (hnodes : w.feed.metrics.resolvedNodes = Metrics.saturate engine.snapshot.nodes.length) :
    w.Reports fun w => (answer, ((w.enter .listening).count outcome).emit event) := by
  refine reports_news answer (((w.enter .listening).count outcome).emit event)
    (w.entering .listening ++ [event]) (fun bus => ?_) fun told h => ?_
  · rw [onBus_enter, Bus.publishes_append]
    rfl
  · rw [← List.append_assoc]
    exact (h.enter fun _ => ⟨engine, hlive, hnodes⟩).report houtcome hstate

/-- The new engine with the handles of the one before it. -/
def handOver (shop : Workshop) (r : Rebuild) (engine : Engine) : Engine × Workshop :=
  match r.resources with
  | some generation => shop.inject engine generation
  | none => (engine, shop)

section TakeOver
variable {r : Rebuild} {engine : Engine} {served : Workshop}

theorem takeOver_of_error {fault : Fault} (refused : Option Fault)
    (h : ((handOver w.shop r engine).2.close r.previous).serve (handOver w.shop r engine).1 =
      (.error fault, served)) :
    w.takeOver r engine refused =
      { w with shop := served.close (handOver w.shop r engine).1 }.die fault := by
  cases hr : r.resources <;> simp only [handOver, hr] at h ⊢ <;> simp only [takeOver, hr, h]

theorem takeOver_of_ok (refused : Option Fault)
    (h : ((handOver w.shop r engine).2.close r.previous).serve (handOver w.shop r engine).1 =
      (.ok (), served)) :
    w.takeOver r engine refused =
      let engine := (handOver w.shop r engine).1
      let listening := (w.ready served engine).enter .listening
      refused.elim
        (.ok (.applied engine.snapshot.fingerprint),
          (listening.count "applied").emit (.reloadApplied engine.snapshot.fingerprint))
        fun fault => (.error (.rejected fault),
          (listening.count "rolled_back").emit (.reloadRolledBack fault.message)) := by
  cases hr : r.resources <;> simp only [handOver, hr] at h ⊢ <;> simp only [takeOver, hr, h] <;>
    cases refused <;> rfl

/-- What is told when an engine takes over, or fails to. -/
theorem takeOver_reports (w : Worker) (r : Rebuild) (engine : Engine) (refused : Option Fault) :
    w.Reports fun w => w.takeOver r engine refused := by
  rcases hserve : ((handOver w.shop r engine).2.close r.previous).serve (handOver w.shop r engine).1
    with ⟨fault | ⟨⟨⟩⟩, served⟩
  · refine (die_reports { w with shop := served.close (handOver w.shop r engine).1 } fault).of
      (fun bus => takeOver_of_error refused hserve) fun told h => ?_
    exact h.congr ⟨rfl, rfl, rfl, rfl⟩ rfl fun _ => rfl
  · have hready (told : List Event) (h : w.Agrees told) :=
      h.ready served (handOver w.shop r engine).1
    cases refused with
    | none =>
      set fingerprint := (handOver w.shop r engine).1.snapshot.fingerprint
      have hsettle := settle_reports (w := w.ready served (handOver w.shop r engine).1)
        (Except.ok (.applied fingerprint) : Except ReloadError ReloadOutcome)
        (.reloadApplied fingerprint) rfl rfl rfl rfl
      exact hsettle.of (fun bus => takeOver_of_ok (w := w.onBus bus) none hserve) hready
    | some fault =>
      have hsettle := settle_reports (w := w.ready served (handOver w.shop r engine).1)
        (Except.error (.rejected fault) : Except ReloadError ReloadOutcome)
        (.reloadRolledBack fault.message) rfl rfl rfl rfl
      exact hsettle.of (fun bus => takeOver_of_ok (w := w.onBus bus) (some fault) hserve) hready

end TakeOver

/-- What is told at the end of a reload. -/
theorem complete_reports (w : Worker) : w.Reports complete := by
  cases hrebuild : w.rebuild with
  | none =>
    refine reports_still (.error .closed) w (fun bus => ?_) fun told h => h
    simp only [complete, onBus_rebuild, hrebuild]
  | some r =>
    have hshop (shop : Workshop) (told : List Event) (h : w.Agrees told) :
        Agrees told { w with shop, rebuild := some r } :=
      h.congr ⟨rfl, rfl, rfl, rfl⟩ rfl fun _ => rfl
    rcases hfinish : w.shop.finish r.number (inherited r.previous r.snapshot) r.snapshot
      with ⟨fault | engine, shop⟩
    · obtain ⟨n, started, hstart⟩ : ∃ n started, shop.start r.resources (some r.previous.cache)
          r.previous.snapshot = (n, started) := ⟨_, _, rfl⟩
      rcases hrollback : started.finish n (some r.previous.cache) r.previous.snapshot
        with ⟨rollback | engine, shop'⟩
      · refine (die_reports _ rollback).of (fun bus => ?_) (hshop (shop'.close r.previous))
        simp only [complete, onBus_rebuild, hrebuild, onBus_shop, hfinish, hstart, hrollback]
        rfl
      · refine (takeOver_reports _ r engine (some fault)).of (fun bus => ?_) (hshop shop')
        simp only [complete, onBus_rebuild, hrebuild, onBus_shop, hfinish, hstart, hrollback]
        rfl
    · refine (takeOver_reports _ r engine none).of (fun bus => ?_) (hshop shop)
      simp only [complete, onBus_rebuild, hrebuild, onBus_shop, hfinish]
      rfl

/-- What is told when a request is taken or answered at once. -/
theorem request_reports (w : Worker) (snapshot : Snapshot) :
    w.Reports fun w => w.request snapshot := by
  cases hrefusal : w.refusal with
  | some error =>
    refine reports_still (some (.error error)) w (fun bus => ?_) fun told h => h
    simp only [request, onBus_refusal, hrefusal]
  | none =>
    cases hdry : w.dry with
    | true =>
      refine reports_still (some (.ok .acknowledged)) (w.count "dry") (fun bus => ?_)
        fun told h => h.count_dry
      simp only [request, onBus_refusal, hrefusal, onBus_dry, hdry, if_true]
      rfl
    | false =>
      refine ((w.begin_reports snapshot).map fun _ => none).of (fun bus => ?_) fun told h => h
      simp only [request, onBus_refusal, hrefusal, onBus_dry, hdry]
      rfl

theorem enter_feed (w : Worker) (state : EngineState) : (w.enter state).feed =
    if w.state = state then w.feed
    else (w.feed.measure fun m => { m with engineState := state.code }).emit
      (.engineStateChanged state) := by
  rw [enter]
  split <;> rfl

theorem onBus_close (w : Worker) (bus : Bus) :
    (w.onBus bus).close = w.close.onBus (bus.publishes (w.entering .closed)) := by
  simp only [close, onBus_live, onBus_shop]
  exact onBus_enter { w with shop := _, live := none } bus .closed

/-- The end of a worker between two reloads. -/
def quit (w : Worker) : Except ReloadError Unit × Worker :=
  if w.ended.isSome then (.error .closed, w) else (.ok (), { w.close with ended := some .shutdown })

/-- To close the engine is told as a state. -/
theorem quit_reports (w : Worker) : w.Reports quit := by
  cases hended : w.ended with
  | some exit =>
    refine reports_still (.error .closed) w (fun bus => ?_) fun told h => h
    simp only [quit, onBus_ended, hended, Option.isSome_some, if_true]
  | none =>
    refine reports_news (.ok ()) { w.close with ended := some .shutdown } (w.entering .closed)
      (fun bus => ?_) fun told h => ?_
    · simp only [quit, onBus_ended, hended, onBus_close]
      rfl
    · refine h.leave .closed (by decide) ?_ (enter_state _ _)
      rw [close, enter_feed, enter_feed]

/-- What is told at the end of a worker. -/
theorem shutdown_reports (w : Worker) : w.Reports shutdown := by
  cases hrebuild : w.rebuild.isSome with
  | true =>
    refine (w.complete_reports.andThen quit_reports).of (fun bus => ?_) fun told h => h
    simp only [shutdown, onBus_rebuild, hrebuild, if_true]
    rfl
  | false =>
    refine (quit_reports w).of (fun bus => ?_) fun told h => h
    simp only [shutdown, onBus_rebuild, hrebuild, Bool.false_eq_true, if_false]
    rfl

/-- How the first engine comes about, or does not; the bus has no part in it. -/
theorem boot_cases (hdry : w.dry = false) :
    (∃ fault shop, ∀ bus, (w.onBus bus).boot =
      (.error (.start fault), { w with shop }.onBus bus)) ∨
    ∃ engine shop, engine.snapshot = .empty ∧ ∀ bus, (w.onBus bus).boot =
      (.ok (), ({ w with shop, live := some engine }.onBus bus).enter .listening) := by
  obtain ⟨n, started, hstart⟩ : ∃ n started, w.shop.start none none .empty = (n, started) :=
    ⟨_, _, rfl⟩
  rcases started.finish_cases n none .empty with
    ⟨fault, built, hfinish, -⟩ | ⟨built, hfinish, -⟩
  · refine .inl ⟨fault, built, fun bus => ?_⟩
    simp only [boot, onBus_dry, hdry, onBus_shop, hstart, hfinish]
    rfl
  · set engine : Engine := ⟨n, .empty, some 0, started.known n none⟩
    rcases hlisten : built.listen engine Snapshot.empty.sections.global.port
      with ⟨fault | ⟨⟨⟩⟩, listening⟩
    · refine .inl ⟨fault, listening, fun bus => ?_⟩
      simp only [boot, onBus_dry, hdry, onBus_shop, hstart, hfinish, hlisten]
      rfl
    · rcases hserve : listening.serve engine with ⟨fault | ⟨⟨⟩⟩, serving⟩
      · refine .inl ⟨fault, serving, fun bus => ?_⟩
        simp only [boot, onBus_dry, hdry, onBus_shop, hstart, hfinish, hlisten, hserve]
        rfl
      · refine .inr ⟨engine, serving, rfl, fun bus => ?_⟩
        simp only [boot, onBus_dry, hdry, onBus_shop, hstart, hfinish, hlisten, hserve]
        rfl

/-- What is told by a worker that boots. -/
theorem boot_reports (dry : Bool) (shop : Workshop) (bus : Bus) :
    (idle dry shop (.ofBus bus)).Reports boot := by
  set w := idle dry shop (.ofBus bus) with hw
  cases hdry : w.dry with
  | true =>
    set noted : Worker := { w with
      feed := w.feed.note .info "vane_engine" "reload worker running in dry mode" [] }
    refine reports_still (.ok ()) noted (fun bus => ?_) fun told h => ?_
    · rw [boot, onBus_dry, if_pos hdry]
      rfl
    · exact h.congr ⟨rfl, rfl, rfl, rfl⟩ rfl fun _ => rfl
  | false =>
    rcases boot_cases hdry with ⟨fault, shop, hboot⟩ | ⟨engine, shop, hsnapshot, hboot⟩
    · exact reports_still _ _ hboot fun told h => h.congr ⟨rfl, rfl, rfl, rfl⟩ rfl fun _ => rfl
    · set ready : Worker := { w with shop, live := some engine } with hready
      refine reports_news (.ok ()) (ready.enter .listening) (ready.entering .listening)
        (fun bus => ?_) fun told h => ?_
      · rw [hboot, onBus_enter]
      · have hagrees : ready.Agrees told :=
          h.congr ⟨rfl, rfl, rfl, rfl⟩ rfl fun hlistens => absurd hlistens (by simp [hw, idle])
        refine hagrees.enter fun _ => ⟨engine, rfl, ?_⟩
        rw [hsnapshot]
        rfl

end Worker
end ProxyPlane
