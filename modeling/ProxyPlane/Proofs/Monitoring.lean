import ProxyPlane.Proofs.Lifetime
import ProxyPlane.Proofs.Reporting
import ProxyPlane.Proofs.Traffic

/-!
# What monitors see

Monitors read the counters and gauges, observers the events.  Here is everything that can happen to
a control plane and its worker at once: requests are begun at any time and their steps are taken in
any order, the worker is asked, brought to the end of a reload, shut down or abandoned behind the
back of the control plane, and observers come and go.  Whatever happens, the two see the same.

## What is here

* `Request` — what can be asked of the control plane.
* `Site`, `Site.Move`, `Site.move` — a control plane with what was asked of it, and what can happen.
* `Site.opening` — a worker that has booted, or has failed to, and a store.
* `Site.move_reports`, `Site.after_reports` — a move reports, and so does any number of them.
* `Site.monitors_agree` — the counters and gauges agree with the events, after any run.
-/

set_option autoImplicit false
namespace ProxyPlane

open Routine

/-- What can be asked of the control plane: commands, to take up what ran before, and to let the
jobs sleep for some seconds and refresh. -/
inductive Request
  | command (command : Command)
  | resume
  | elapse (seconds : Nat)

/-- What a request does, without its result. -/
def Request.operation : Request → Operation Unit
  | command c => do let _ ← c.operation
  | resume => do let _ ← Operation.resume
  | elapse seconds => do let _ ← Operation.elapse seconds

theorem Request.reporting (r : Request) : r.operation.steps.Reporting := by
  open Operation in
  cases r with
  | command c => exact ignore_reporting c.reporting _
  | resume => exact ignore_reporting resume_reporting _
  | elapse seconds => exact ignore_reporting (elapse_reporting seconds) _

/-- What happens to a worker is told by it. -/
theorem Worker.move_reports (w : Worker) (move : Worker.Move) :
    w.Reports fun w => ((), w.move move) := by
  have hforget {α : Type} {step : Worker → α × Worker} (h : w.Reports step) :
      w.Reports fun w => ((), (step w).2) :=
    h.map fun _ => ()
  cases move with
  | arm armed =>
    refine reports_still () { w with shop := { w.shop with armed } } (fun _ => rfl) fun _ h => ?_
    exact h.congr ⟨rfl, rfl, rfl, rfl⟩ rfl fun _ => rfl
  | request snapshot => exact hforget (w.request_reports snapshot)
  | complete => exact hforget w.complete_reports
  | shutdown | abandon => exact hforget w.shutdown_reports

/-- The control plane and what is left to do of the requests. -/
structure Site where
  plane : Plane
  tasks : List (Routine Plane (Except ControlError Unit))

namespace Site

/-- What can happen next. -/
inductive Move
  | ask (request : Request)
  /-- A request that was begun takes its next step. -/
  | take (task : Nat)
  | change (weather : Weather)
  /-- Something happens to the worker that no request has asked for. -/
  | act (move : Worker.Move)
  /-- An observer comes, reads or goes, or the bus itself goes away. -/
  | observe (move : Bus.Move) (h : move.event? = none)
  | stopScheduler
  | closeStore

/-- The site with its events on another bus. -/
def onBus (s : Site) (bus : Bus) : Site := { s with plane := s.plane.onBus bus }

/-- The bus on which the site tells its events. -/
def bus (s : Site) : Bus := s.plane.worker.feed.bus

/-- What a move comes to. -/
def move (s : Site) : Move → Site
  | .ask request => { s with tasks := s.tasks ++ [request.operation.steps] }
  | .take i =>
    match s.tasks[i]? with
    | some (.step change rest) => ⟨change s.plane, s.tasks.set i (rest s.plane)⟩
    | _ => s
  | .change weather => { s with plane := s.plane.under weather }
  | .act move => { s with plane := { s.plane with worker := s.plane.worker.move move } }
  | .observe move _ => s.onBus (move.on s.bus)
  | .stopScheduler => { s with plane := s.plane.stopScheduler }
  | .closeStore => { s with plane := { s.plane with store := none } }

/-- One move after the other. -/
def after (s : Site) (moves : List Move) : Site := moves.foldl move s

/-- A control plane on a store and a worker that has booted, or has failed to. -/
def opening (dry : Bool) (store : Store) (shop : Workshop) (bus : Bus) (weather : Weather) : Site :=
  let worker := (Worker.idle dry shop (.ofBus bus)).boot.2
  ⟨(Plane.ofParts store worker weather.remote weather.now).under weather, []⟩

/-- A step of a site that reports. -/
abbrev Reports {α : Type} (step : Site → α × Site) (s : Site) : Prop :=
  ProxyPlane.Reports onBus (·.plane.worker) step s

@[simp] theorem onBus_tasks (s : Site) (bus : Bus) : (s.onBus bus).tasks = s.tasks := rfl

@[simp] theorem onBus_plane (s : Site) (bus : Bus) : (s.onBus bus).plane = s.plane.onBus bus := rfl

/-- Whatever is left to do reports. -/
def Sound (s : Site) : Prop := ∀ task ∈ s.tasks, task.Reporting

variable {s : Site}

/-- A silent change of the control plane. -/
theorem reports_silent {f : Plane → Plane} (h : Plane.Silent f) (s : Site) :
    s.Reports fun s => ((), { s with plane := f s.plane }) :=
  reports_still () { s with plane := f s.plane }
    (fun bus => congrArg (fun plane => ((), { s with plane })) (h.onBus s.plane bus))
    (h.agrees s.plane)

/-- **A move reports.** -/
theorem move_reports (h : s.Sound) (m : Move) : s.Reports fun s => ((), s.move m) := by
  cases m with
  | ask request =>
    exact reports_still () { s with tasks := s.tasks ++ [request.operation.steps] } (fun _ => rfl)
      fun _ h => h
  | take i =>
    rcases htask : s.tasks[i]? with _ | ⟨result⟩ | ⟨change, rest⟩
    · refine reports_still () s (fun bus => ?_) fun _ h => h
      simp only [move, onBus_tasks, htask]
    · refine reports_still () s (fun bus => ?_) fun _ h => h
      simp only [move, onBus_tasks, htask]
    · obtain ⟨⟨left, p, moves, hbus, htold⟩, -⟩ := h _ (List.mem_of_getElem? htask) s.plane
      refine ⟨(), ⟨p, s.tasks.set i left⟩, moves, fun bus => ?_, htold⟩
      obtain ⟨hrest, hchange⟩ := Prod.mk.inj (hbus bus)
      simp only [move, onBus_tasks, htask, onBus_plane, hrest, hchange]
      rfl
  | change weather =>
    refine reports_silent ⟨fun _ _ => rfl, fun _ _ h => ?_⟩ s
    exact h.congr ⟨rfl, rfl, rfl, rfl⟩ rfl fun _ => rfl
  | act move =>
    obtain ⟨⟨⟩, w, moves, hbus, htold⟩ := s.plane.worker.move_reports move
    refine ⟨(), { s with plane := { s.plane with worker := w } }, moves, fun bus => ?_, htold⟩
    have hmove : (s.plane.worker.onBus bus).move move = w.onBus (bus.after moves) :=
      congrArg Prod.snd (hbus bus)
    exact congrArg (fun worker => ((), { s with plane := { s.plane with worker } })) hmove
  | observe move hmove =>
    refine ⟨(), s, [move], fun bus => rfl, fun told h => ?_⟩
    rw [Bus.told, List.filterMap_cons_none hmove, List.filterMap_nil, List.append_nil]
    exact h
  | stopScheduler =>
    have hstop : Plane.Silent Plane.stopScheduler := ⟨fun _ _ => rfl, fun _ _ h => h⟩
    exact reports_silent hstop s
  | closeStore =>
    have hclose : Plane.Silent ({ · with store := none }) := ⟨fun _ _ => rfl, fun _ _ h => h⟩
    exact reports_silent hclose s

/-- What is left to do after a move reports as well. -/
theorem Sound.move (h : s.Sound) (m : Move) : (s.move m).Sound := by
  cases m with
  | ask request =>
    intro task htask
    rcases List.mem_append.1 htask with hold | hnew
    · exact h task hold
    · exact List.mem_singleton.1 hnew ▸ request.reporting
  | take i =>
    rw [Site.move]
    split
    · next change rest htask =>
      intro task hmem
      rcases List.mem_or_eq_of_mem_set hmem with hold | rfl
      · exact h task hold
      · exact (h _ (List.mem_of_getElem? htask) s.plane).2
    · exact h
  | change | act | observe | stopScheduler | closeStore => exact h

/-- **Any number of moves report.** -/
theorem after_reports (h : s.Sound) (moves : List Move) :
    s.Reports fun s => ((), s.after moves) := by
  induction moves generalizing s with
  | nil => exact reports_still () s (fun _ => rfl) fun _ h => h
  | cons m rest ih =>
    obtain ⟨⟨⟩, s', moves, hbus, htold⟩ := move_reports h m
    -- the tasks are the same on every bus
    have hmove : s.move m = s'.onBus (s.bus.after moves) := congrArg Prod.snd (hbus s.bus)
    have hs' : s'.Sound := fun task htask => h.move m task (by rw [hmove]; exact htask)
    obtain ⟨⟨⟩, s'', moves', hbus', htold'⟩ := ih hs'
    refine ⟨(), s'', moves ++ moves', fun bus => ?_, fun told hagrees => ?_⟩
    · have hfirst : (s.onBus bus).move m = s'.onBus (bus.after moves) :=
        congrArg Prod.snd (hbus bus)
      rw [Bus.after_append]
      exact (congrArg (fun s => ((), s.after rest)) hfirst).trans (hbus' _)
    · rw [Bus.told_append, ← List.append_assoc]
      exact htold' _ (htold told hagrees)

/-- What has been told when the worker has booted agrees with what it counts then. -/
theorem opening_agrees (dry : Bool) (store : Store) (shop : Workshop) (weather : Weather) :
    ∃ (s : Site) (moves : List Bus.Move), s.Sound ∧ s.plane.worker.Agrees (Bus.told moves) ∧
      ∀ bus, opening dry store shop bus weather = s.onBus (bus.after moves) := by
  obtain ⟨a, w, moves, hbus, htold⟩ := Worker.boot_reports dry shop .standard
  refine ⟨⟨(Plane.ofParts store w weather.remote weather.now).under weather, []⟩, moves,
    List.forall_mem_nil _, ?_, fun bus => ?_⟩
  · have hagrees := htold [] (Worker.agrees_idle dry shop .standard)
    exact hagrees.congr ⟨rfl, rfl, rfl, rfl⟩ rfl fun _ => rfl
  · have hboot : (Worker.idle dry shop (.ofBus bus)).boot.2 = w.onBus (bus.after moves) :=
      congrArg Prod.snd (hbus bus)
    rw [opening, hboot]
    rfl

/-- **Monitors and observers see the same.**  Whatever happens, and whichever reloads fail, the bus
has been moved in one way, whatever bus it is, and what was told on it is what was counted: events
of each kind as often as one was published, and reloads of each outcome as often as one was told.
The gauge of the state shows the state, which is the last one that was told, and none was told twice
in a row.  While an engine serves, the gauge of the nodes shows how many it has. -/
theorem monitors_agree (dry : Bool) (store : Store) (shop : Workshop) (weather : Weather)
    (moves : List Move) : ∃ acts : List Bus.Move, ∀ bus : Bus,
      let worker := ((opening dry store shop bus weather).after moves).plane.worker
      worker.feed.bus = bus.after acts ∧ worker.Agrees (Bus.told acts) ∧
        (worker.state = .listening → ∃ engine, worker.live = some engine ∧
          (engine.snapshot.nodes.length ≤ Text.maxInt64 →
            worker.feed.metrics.resolvedNodes = engine.snapshot.nodes.length)) := by
  obtain ⟨s, moves₀, hsound, hagrees, hopening⟩ := opening_agrees dry store shop weather
  obtain ⟨⟨⟩, s', acts, hbus, htold⟩ := after_reports hsound moves
  refine ⟨moves₀ ++ acts, fun bus => ?_⟩
  have hafter : (opening dry store shop bus weather).after moves =
      s'.onBus (bus.after (moves₀ ++ acts)) := by
    rw [hopening, Bus.after_append]
    exact congrArg Prod.snd (hbus _)
  have hworker : Worker.Agrees (Bus.told (moves₀ ++ acts))
      ((opening dry store shop bus weather).after moves).plane.worker := by
    rw [hafter, Bus.told_append]
    exact (htold _ hagrees).congr ⟨rfl, rfl, rfl, rfl⟩ rfl fun _ => rfl
  refine ⟨by rw [hafter]; rfl, hworker, fun hlistens => ?_⟩
  obtain ⟨engine, hlive, hnodes⟩ := hworker.nodes hlistens
  exact ⟨engine, hlive, fun hbound => hnodes.trans (Metrics.saturate_of_le hbound)⟩

/-- A reload whose engine is not built, and then the end. -/
example :
    let failing : Weather := ⟨⟨1, 0, 0, 0, 0⟩, none, false, [], 0⟩
    let s := (opening false .empty (.fresh .none none) .standard failing).after
      [.act (.request .empty), .act .complete, .act .shutdown]
    s.bus.ring.map (·.event) =
        [.engineStateChanged .listening, .engineStateChanged .reloading,
          .engineStateChanged .listening, .reloadRolledBack "build 2: scripted engine failure",
          .engineStateChanged .closed] ∧
      s.plane.worker.feed.metrics.reloads = [(["rolled_back"], 1)] ∧
      s.plane.worker.feed.metrics.engineState = EngineState.closed.code := by
  decide +kernel

end Site
end ProxyPlane
