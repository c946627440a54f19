import ProxyPlane.Proofs.Outline

/-!
# Crowds

Any number of operations are under way at once, each of them begun at any time, and their steps are
taken in any order.  Nothing is assumed of the worker, the network and the clock, which may do
anything between two steps.  Taking up what ran before is an operation like any other, so it may
meet commands on its way.

## What is here

* `Task`, `Crowd`, `Crowd.Moves` — operations that have been begun, and what can happen next.
* `Crowd.Possible` — the crowds there can be: on a fresh store, after any moves, after any restarts.
* `Task.InFlight` — a task has the gate.
* `Crowd.Outside`, `Crowd.Holding`, `Crowd.Orderly` — the invariant of all crowds: one task has the
  gate at most, and all others spare the store.
* `Crowd.Possible.selection` — of each kind one section is selected at most, and exactly one while
  something is recorded to run, which is the one that was compiled; while a task is in flight, no
  other one changes the selection.
-/

set_option autoImplicit false
namespace ProxyPlane

open Routine Operation Plane
open Store (Coherent SameSelection Spares)

/-! ## Tasks -/

/-- An operation that has been begun. -/
structure Task where
  operation : Operation (Option Prepared)
  /-- How many steps have been taken. -/
  taken : Nat
  /-- What is left to do. -/
  rest : Remainder

/-- A task that has taken no step yet. -/
def Task.of (op : Operation (Option Prepared)) : Task := ⟨op, 0, op.steps⟩

/-- A task that has taken one step more. -/
def Task.stepped (t : Task) (rest : Remainder) : Task := { t with taken := t.taken + 1, rest }

/-- A task is in flight: the gate is taken, and it is this task that gives it back in the end. -/
def Task.InFlight (t : Task) (p : Plane) : Prop := p.gate = true ∧ (t.rest.run p).2.gate = false

instance (p : Plane) : DecidablePred fun t : Task => t.InFlight p :=
  fun _ => inferInstanceAs (Decidable (_ ∧ _))

/-- The control plane and the operations that have been begun. -/
structure Crowd where
  plane : Plane
  tasks : List Task

namespace Crowd

/-- One more operation is begun. -/
def enter (w : Crowd) (op : Operation (Option Prepared)) : Crowd :=
  { w with tasks := w.tasks ++ [.of op] }

/-- A task takes its next step, if there is one left. -/
def take (w : Crowd) (i : Nat) : Crowd :=
  match w.tasks[i]? with
  | none => w
  | some task =>
    match task.rest with
    | .done _ => w
    | .step change rest =>
      ⟨change w.plane, w.tasks.set i (task.stepped (rest w.plane))⟩

/-- What can happen next. -/
inductive Moves (w : Crowd) : Crowd → Prop
  | enter {op : Operation (Option Prepared)} (h : op.Offered) : Moves w (w.enter op)
  | take (i : Nat) : Moves w (w.take i)
  /-- Whatever else happens has nothing to do with the store and the gate. -/
  | elsewhere {p : Plane} (h : Apart w.plane p) : Moves w { w with plane := p }

/-- The crowds there can be. -/
inductive Possible : Crowd → Prop
  /-- The first start, on a fresh store. -/
  | first {p : Plane} (hstore : p.store = some .empty) (hgate : p.gate = false) : Possible ⟨p, []⟩
  | move {w w' : Crowd} (h : Possible w) (hmove : w.Moves w') : Possible w'
  /-- A later start, on the store as it was left, whatever was under way. -/
  | restart {w : Crowd} {p : Plane} (h : Possible w) (hstore : p.store = w.plane.store)
    (hgate : p.gate = false) : Possible ⟨p, []⟩

variable {w w' : Crowd}

/-- A task that takes a step. -/
theorem take_step {i : Nat} {task : Task} {change : Plane → Plane} {rest : Plane → Remainder}
    (htask : w.tasks[i]? = some task) (hrest : task.rest = .step change rest) :
    w.take i = ⟨change w.plane, w.tasks.set i (task.stepped (rest w.plane))⟩ := by
  simp only [take, htask, hrest]

/-- A turn is a step of a task, or nothing if there is none left. -/
theorem take_cases (w : Crowd) (i : Nat) : w.take i = w ∨
    ∃ task change rest, w.tasks[i]? = some task ∧ task.rest = .step change rest := by
  simp only [take]
  split
  · exact .inl rfl
  · next task htask =>
    split
    · exact .inl rfl
    · next change rest hrest => exact .inr ⟨task, change, rest, htask, hrest⟩

/-- A task among those that were there before a new one has come. -/
theorem getElem?_enter {i : Nat} {task : Task} {op : Operation (Option Prepared)}
    (h : (w.enter op).tasks[i]? = some task) :
    w.tasks[i]? = some task ∨ (i = w.tasks.length ∧ task = .of op) := by
  change (w.tasks ++ [Task.of op])[i]? = some task at h
  rw [List.getElem?_append] at h
  split at h
  · exact .inl h
  · obtain ⟨hlt, hget⟩ := List.getElem?_eq_some_iff.1 h
    rw [List.length_singleton] at hlt
    refine .inr ⟨by omega, ?_⟩
    rw [List.mem_singleton.1 (List.mem_of_getElem? h)]

/-- A task after another one, or the same, has taken a step. -/
theorem getElem?_set {tasks : List Task} {i j : Nat} {stepped task : Task}
    (h : (tasks.set i stepped)[j]? = some task) :
    (j = i ∧ task = stepped) ∨ (j ≠ i ∧ tasks[j]? = some task) := by
  rw [List.getElem?_set] at h
  split at h
  · next heq =>
    split at h <;> cases h
    exact .inl ⟨heq.symm, rfl⟩
  · next hne => exact .inr ⟨Ne.symm hne, h⟩

/-! ## With and without the gate -/

/-- An operation that goes through the gate well. -/
structure Fit (op : Operation (Option Prepared)) : Prop where
  gate : op.steps.Within fun p p' => p'.gate = p.gate
  decides : op.steps.Decides Steady KeepsStore Launched
  meets : op.steps.Meets (Stored Spares) (Holds Coherent) Outline.coherent.Ended

/-- What is left to do without having the gate: it spares the store until it asks for the gate, and
it spares the store when it has given it back. -/
inductive Outside : Remainder → Prop
  | done (result : Except ControlError (Option Prepared)) : Outside (.done result)
  | step {change : Plane → Plane} {rest : Plane → Remainder} (hcalm : ∀ p, Calm p (change p))
    (hrest : ∀ p, Outside (rest p)) : Outside (.step change rest)
  | gated {op : Operation (Option Prepared)}
    {after : Except ControlError (Option Prepared) → Remainder} (hop : Fit op)
    (hafter : ∀ result, (after result).Within Calm) : Outside ((gated op).steps.bind after)

/-- What is left to do with the gate: some of the operation behind it, then to give it back, and
then what spares the store. -/
def Holding (r : Remainder) (p : Plane) : Prop :=
  ∃ (body : Remainder) (after : Except ControlError (Option Prepared) → Remainder),
    r = (body.bind release).bind after ∧ (∀ result, (after result).Within Calm) ∧
      body.Within (fun p p' => p'.gate = p.gate) ∧ body.Decides Steady KeepsStore Launched ∧
        body.OnCourse (Stored Spares) Outline.coherent.Ended p

variable {r : Remainder} {p p' : Plane} {change : Plane → Plane} {rest : Plane → Remainder}

theorem outside_bind {α : Type} {r : Routine Plane α} {f : α → Remainder} (h : r.Within Calm)
    (hf : ∀ a, Outside (f a)) : Outside (r.bind f) := by
  induction r with
  | done a => exact hf a
  | step change rest ih => exact .step (fun p => (h p).1) fun p => ih p (h p).2

theorem outside_of_calm (h : r.Within Calm) : Outside r := by
  have hbind := outside_bind h Outside.done
  rwa [bind_done] at hbind

theorem outside_gated {op : Operation (Option Prepared)} (h : Fit op) :
    Outside (Operation.gated op).steps := by
  have hgated : Outside ((Operation.gated op).steps.bind Routine.done) := .gated h fun _ => trivial
  rwa [bind_done] at hgated

/-- A step without the gate while another task has it. -/
theorem Outside.step_taken (h : Outside (.step change rest)) (hgate : p.gate = true) :
    Calm p (change p) ∧ Outside (rest p) := by
  generalize hr : Routine.step change rest = r at h
  cases h with
  | done result => cases hr
  | step hcalm hrest => cases hr; exact ⟨hcalm p, hrest p⟩
  | gated hop hafter =>
    rw [gated_steps] at hr
    cases hr
    simp only [hgate, if_true, acquire]
    exact ⟨calm_of_apart ⟨rfl, rfl⟩, outside_of_calm (hafter _)⟩

/-- A step without the gate while no task has it: the store is spared, or the gate is taken. -/
theorem Outside.step_free (h : Outside (.step change rest)) (hgate : p.gate = false)
    (hp : p.Holds Coherent) :
    (Calm p (change p) ∧ Outside (rest p)) ∨
      ((change p).gate = true ∧ (change p).store = p.store ∧ Holding (rest p) (change p)) := by
  generalize hr : Routine.step change rest = r at h
  cases h with
  | done result => cases hr
  | step hcalm hrest => cases hr; exact .inl ⟨hcalm p, hrest p⟩
  | @gated op after hop hafter =>
    rw [gated_steps] at hr
    cases hr
    simp only [hgate, Bool.false_eq_true, if_false, acquire]
    refine .inr ⟨trivial, trivial, op.steps, after, rfl, hafter, hop.gate, hop.decides,
      Holds Coherent, Outline.coherent.before_lasts, hp, hop.meets⟩

/-- Run to its end, what has not got the gate leaves it with the one who has it. -/
theorem Outside.run_gate (h : Outside r) (hgate : p.gate = true) : (r.run p).2.gate = true := by
  have hkept {r : Remainder} (hr : r.Within Calm) (p : Plane) : (r.run p).2.gate = p.gate :=
    (hr.mono fun _ _ hs => hs.gate).run (fun _ => rfl) (fun _ _ _ h h' => h'.trans h) p
  induction h generalizing p with
  | done result => exact hgate
  | step hcalm hrest ih => exact ih p ((hcalm p).gate.trans hgate)
  | gated hop hafter =>
    rw [run_bind, gated_steps]
    simp only [Routine.run, hgate, if_true, acquire]
    exact (hkept (hafter _) _).trans hgate

/-- What is done without the gate while a task holds it. -/
theorem Holding.spared (h : Holding r p) (hp : Stored Spares p p') : Holding r p' := by
  obtain ⟨body, after, hr, hafter, hgate, hdecides, hcourse⟩ := h
  exact ⟨body, after, hr, hafter, hgate, hdecides, hcourse.kept hp⟩

/-- A step with the gate keeps the invariant of the selection, and keeps the gate or gives it back.
-/
theorem Holding.step (h : Holding (.step change rest) p) (hp : p.Holds Coherent) :
    (change p).Holds Coherent ∧
      (((change p).gate = p.gate ∧ Holding (rest p) (change p)) ∨
        ((change p).gate = false ∧ Outside (rest p))) := by
  obtain ⟨body, after, hr, hafter, hgate, hdecides, hcourse⟩ := h
  cases body with
  | done result =>
    cases hr
    exact ⟨hp, .inr ⟨rfl, outside_of_calm (hafter result)⟩⟩
  | step change' rest' =>
    cases hr
    have hcourse' := hcourse.step
    rcases hdecides p with ⟨hsteady, hdecides'⟩ | ⟨hkeeps, hreturns, -⟩
    · refine ⟨?_, .inl ⟨(hgate p).1, rest' p, after, rfl, hafter, (hgate p).2, hdecides', hcourse'⟩⟩
      obtain ⟨s, hs, hvalid, hcoherent⟩ := hp
      obtain ⟨s', hs', hsteady⟩ := hsteady.exists hs hvalid
      exact ⟨s', hs', hsteady.valid, hsteady.coherent hcoherent⟩
    · -- from here to the end the store is left alone, so what holds there holds now
      have hend := hcourse'.run
      obtain ⟨q, hq⟩ := hreturns.run (change p)
      have hstore := hkeeps.run (fun _ => rfl) (fun _ _ _ h h' => h'.trans h) (change p)
      obtain ⟨s, hs, hcoherent⟩ := hend q hq
      refine ⟨⟨s, hstore.symm.trans hs, hcoherent⟩, .inl ⟨(hgate p).1, rest' p, after, rfl, hafter,
        (hgate p).2, ?_, hcourse'⟩⟩
      exact (hkeeps.mono fun _ _ => steady_of_keepsStore).decides

/-- What is left to do with the gate gives it back. -/
theorem Holding.run_gate (h : Holding r p) : (r.run p).2.gate = false := by
  obtain ⟨body, after, rfl, hafter, -⟩ := h
  rw [run_bind, run_bind]
  exact ((hafter _).mono fun _ _ hs => hs.gate).run (fun _ => rfl) (fun _ _ _ h h' => h'.trans h) _

/-! ## What is offered -/

/-- What a command does behind the gate. -/
theorem fit_inside {c : Command} {op : Operation (Option Prepared)} (h : c.inside = some op) :
    Fit op where
  gate := (Command.inside_within h).mono fun _ _ hs => hs.gate
  decides := Command.inside_decides h
  meets := Outline.coherent.inside h

theorem outside_resume : Outside Operation.resume.steps := by
  have hstop := markStopped_calm
  have hnote (level : LogLevel) (message : String) :
      (modify (·.note level message [])).steps.Within Calm :=
    modify_within fun _ => calm_of_apart ⟨rfl, rfl⟩
  refine outside_bind (α := Except ControlError (Bool × Bool))
    (read_within _ fun _ => calm_of_apart ⟨rfl, rfl⟩) fun found => ?_
  rcases found with e | ⟨running, configured⟩
  · exact .done _
  · show Outside (ExceptT.run (if running = true then _ else _))
    split
    · split
      · refine outside_bind (hnote _ _) fun noted => ?_
        cases noted with
        | error e => exact .done _
        | ok _ =>
          refine .gated (fit_inside (c := .run false) rfl) fun result => ?_
          cases result with
          | ok _ => trivial
          | error e => exact hstop.andThen fun _ => trivial
      · refine outside_of_calm (Within.andThen (hnote _ _) fun _ => ?_)
        exact hstop.andThen fun _ => trivial
    · exact .done _

/-- **Whatever is begun is begun without the gate.** -/
theorem outside_of_offered {op : Operation (Option Prepared)} (h : op.Offered) :
    Outside op.steps := by
  cases h with
  | resume => exact outside_resume
  | command c =>
    cases hinside : c.inside with
    | some op =>
      rw [Command.operation_steps hinside]
      exact outside_gated (fit_inside hinside)
    | none =>
      cases c with
      | edit e => exact outside_of_calm (ignore_within e.calm _)
      | _ => cases hinside

/-! ## All tasks together -/

/-- **The invariant of all crowds**: of each kind one section is selected at most and what is
recorded to run is selected, and either no task has the gate or one has it. -/
inductive Orderly (w : Crowd) : Prop
  | free (hcoherent : w.plane.Holds Coherent) (hgate : w.plane.gate = false)
    (htasks : ∀ task ∈ w.tasks, Outside task.rest)
  | taken (i : Nat) (owner : Task) (hcoherent : w.plane.Holds Coherent)
    (hgate : w.plane.gate = true) (howner : w.tasks[i]? = some owner)
    (hholding : Holding owner.rest w.plane)
    (hothers : ∀ j task, j ≠ i → w.tasks[j]? = some task → Outside task.rest)

theorem Orderly.coherent (h : w.Orderly) : w.plane.Holds Coherent := by
  cases h <;> assumption

theorem Orderly.enter (h : w.Orderly) {op : Operation (Option Prepared)} (hop : op.Offered) :
    (w.enter op).Orderly := by
  have hnew : Outside (Task.of op).rest := outside_of_offered hop
  cases h with
  | free hcoherent hgate htasks =>
    refine .free hcoherent hgate fun task htask => ?_
    rcases List.mem_append.1 htask with hold | htask
    · exact htasks task hold
    · rwa [List.mem_singleton.1 htask]
  | taken i owner hcoherent hgate howner hholding hothers =>
    have hlt := (List.getElem?_eq_some_iff.1 howner).1
    refine .taken i owner hcoherent hgate ((List.getElem?_append_left hlt).trans howner) hholding ?_
    intro j task hne hj
    rcases getElem?_enter hj with hold | ⟨-, rfl⟩
    · exact hothers j task hne hold
    · exact hnew

theorem Orderly.elsewhere (h : w.Orderly) {p : Plane} (hp : Apart w.plane p) :
    ({ w with plane := p } : Crowd).Orderly := by
  have hcoherent := stable_holds_apart _ _ hp h.coherent
  cases h with
  | free _ hgate htasks => exact .free hcoherent (hp.gate.trans hgate) htasks
  | taken i owner _ hgate howner hholding hothers =>
    exact .taken i owner hcoherent (hp.gate.trans hgate) howner
      (hholding.spared (calm_of_apart hp).store) hothers

/-- A step that spares the store keeps the invariant of the selection. -/
theorem holds_coherent_of_calm {p p' : Plane} (h : p.Holds Coherent) (hp : Calm p p') :
    p'.Holds Coherent :=
  Outline.coherent.before_lasts _ _ hp.store h

/-- A step of a task, by who has the gate: no task, the task itself, or another one. -/
theorem Orderly.take (h : w.Orderly) (i : Nat) : (w.take i).Orderly := by
  rcases take_cases w i with hsame | ⟨task, change, rest, htask, hrest⟩
  · rwa [hsame]
  rw [take_step htask hrest]
  have hlt := (List.getElem?_eq_some_iff.1 htask).1
  cases h with
  | free hcoherent hgate htasks =>
    have houtside := htasks task (List.mem_of_getElem? htask)
    rw [hrest] at houtside
    rcases houtside.step_free hgate hcoherent with ⟨hcalm, hnext⟩ | ⟨hgate', hstore, hholding⟩
    · refine .free (holds_coherent_of_calm hcoherent hcalm) (hcalm.gate.trans hgate) ?_
      intro task' htask'
      rcases List.mem_or_eq_of_mem_set htask' with hold | rfl
      · exact htasks task' hold
      · exact hnext
    · obtain ⟨s, hs, hs'⟩ := hcoherent
      refine .taken i _ ⟨s, hstore.trans hs, hs'⟩ hgate' (List.getElem?_set_self hlt) hholding ?_
      intro j task' hne hj
      rw [List.getElem?_set_ne hne.symm] at hj
      exact htasks task' (List.mem_of_getElem? hj)
  | taken k owner hcoherent hgate howner hholding hothers =>
    rcases eq_or_ne i k with rfl | hne
    · cases htask.symm.trans howner
      rw [hrest] at hholding
      obtain ⟨hcoherent', ⟨hgate', hholding'⟩ | ⟨hgate', hnext⟩⟩ := hholding.step hcoherent
      · refine .taken i _ hcoherent' (hgate'.trans hgate) (List.getElem?_set_self hlt) hholding' ?_
        intro j task' hne hj
        rw [List.getElem?_set_ne hne.symm] at hj
        exact hothers j task' hne hj
      · refine .free hcoherent' hgate' fun task' htask' => ?_
        obtain ⟨j, hj⟩ := List.mem_iff_getElem?.1 htask'
        rcases getElem?_set hj with ⟨-, rfl⟩ | ⟨hne, hold⟩
        · exact hnext
        · exact hothers j task' hne hold
    · have houtside := hothers i task hne htask
      rw [hrest] at houtside
      obtain ⟨hcalm, hnext⟩ := houtside.step_taken hgate
      refine .taken k owner (holds_coherent_of_calm hcoherent hcalm) (hcalm.gate.trans hgate)
        ((List.getElem?_set_ne hne).trans howner) (hholding.spared hcalm.store) ?_
      intro j task' hne' hj
      rcases getElem?_set hj with ⟨-, rfl⟩ | ⟨-, hold⟩
      · exact hnext
      · exact hothers j task' hne' hold

theorem Orderly.moves (h : w.Orderly) (hmove : w.Moves w') : w'.Orderly := by
  cases hmove with
  | enter hop => exact h.enter hop
  | take i => exact h.take i
  | elsewhere hp => exact h.elsewhere hp

/-- **All crowds are orderly.** -/
theorem Possible.orderly (h : w.Possible) : w.Orderly := by
  induction h with
  | first hstore hgate =>
    refine .free ⟨_, hstore, Store.valid_empty, Store.coherent_empty⟩ hgate fun task htask => ?_
    cases htask
  | move _ hmove ih => exact ih.moves hmove
  | restart _ hstore hgate ih =>
    obtain ⟨s, hs, hcoherent⟩ := ih.coherent
    exact .free ⟨s, hstore.trans hs, hcoherent⟩ hgate fun task htask => by cases htask

/-! ## In flight -/

/-- The task that is in flight is the one that has the gate. -/
theorem Orderly.owner (h : w.Orderly) {i : Nat} {task : Task} (htask : w.tasks[i]? = some task)
    (hflight : task.InFlight w.plane) :
    ∀ j task', j ≠ i → w.tasks[j]? = some task' → Outside task'.rest := by
  obtain ⟨hgate, hgives⟩ := hflight
  cases h with
  | free _ hfree _ => rw [hfree] at hgate; cases hgate
  | taken k owner _ _ howner _ hothers =>
    rcases eq_or_ne i k with rfl | hne
    · exact hothers
    · rw [(hothers i task hne htask).run_gate hgate] at hgives
      cases hgives

/-- While a task is in flight, no other one changes the selection. -/
theorem Orderly.sameSelection (h : w.Orderly) {i j : Nat} {task : Task}
    (htask : w.tasks[i]? = some task) (hflight : task.InFlight w.plane) (hne : j ≠ i) {s : Store}
    (hs : w.plane.store = some s) :
    ∃ s', (w.take j).plane.store = some s' ∧ s.SameSelection s' := by
  rcases take_cases w j with hsame | ⟨task', change, rest, htask', hrest⟩
  · rw [hsame]
    exact ⟨s, hs, .refl s⟩
  · have houtside := h.owner htask hflight j task' hne htask'
    rw [hrest] at houtside
    obtain ⟨hcalm, -⟩ := houtside.step_taken hflight.1
    obtain ⟨s₁, hs₁, hvalid, -⟩ := h.coherent
    cases hs.symm.trans hs₁
    obtain ⟨s', hs', hspares⟩ := hcalm.store.exists hs hvalid
    rw [take_step htask' hrest]
    exact ⟨s', hs', hspares.selection⟩

/-- What can be left to do of a command behind the gate: all of it, some of the operation behind the
gate, or nothing. -/
def Progress (op : Operation (Option Prepared)) (task : Task) : Prop :=
  (task.taken = 0 ∧ task.rest = (gated op).steps) ∨
    (∃ body : Remainder, task.rest = body.bind release) ∨ ∃ result, task.rest = .done result

theorem Progress.step {op : Operation (Option Prepared)} {task : Task} (h : Progress op task)
    (hrest : task.rest = .step change rest) (p : Plane) : Progress op (task.stepped (rest p)) := by
  rcases h with ⟨-, hwaits⟩ | ⟨body, hbody⟩ | ⟨result, hdone⟩
  · rw [gated_steps, hrest] at hwaits
    cases hwaits
    dsimp only [Progress, Task.stepped]
    split
    · exact .inr (.inr ⟨_, rfl⟩)
    · exact .inr (.inl ⟨op.steps, rfl⟩)
  · rw [hrest] at hbody
    cases body with
    | done result => cases hbody; exact .inr (.inr ⟨result, rfl⟩)
    | step change' rest' => cases hbody; exact .inr (.inl ⟨rest' p, rfl⟩)
  · cases hrest.symm.trans hdone

theorem Possible.progress (h : w.Possible) {task : Task} (htask : task ∈ w.tasks) {c : Command}
    {op : Operation (Option Prepared)} (hc : task.operation = c.operation)
    (hop : c.inside = some op) : Progress op task := by
  induction h generalizing task with
  | first => cases htask
  | restart => cases htask
  | @move w w' _ hmove ih =>
    cases hmove with
    | @enter op' _ =>
      rcases List.mem_append.1 htask with hold | hnew
      · exact ih hold hc
      · rw [List.mem_singleton.1 hnew] at hc ⊢
        change op' = c.operation at hc
        refine .inl ⟨rfl, ?_⟩
        show op'.steps = _
        rw [hc]
        exact Command.operation_steps hop
    | elsewhere => exact ih htask hc
    | take i =>
      rcases take_cases w i with hsame | ⟨old, change, rest, hold, hrest⟩
      · rw [hsame] at htask
        exact ih htask hc
      · rw [take_step hold hrest] at htask
        rcases List.mem_or_eq_of_mem_set htask with hkept | rfl
        · exact ih hkept hc
        · exact (ih (List.mem_of_getElem? hold) hc).step hrest w.plane

/-- **A command behind the gate is in flight** from the step by which it takes the gate to the one
by which it gives it back. -/
theorem Possible.inFlight (h : w.Possible) {task : Task} (htask : task ∈ w.tasks) {c : Command}
    (hc : task.operation = c.operation) (hinside : c.inside.isSome) (hbegun : 0 < task.taken)
    (hleft : task.rest.result? = none) : task.InFlight w.plane := by
  obtain ⟨op, hop⟩ := Option.isSome_iff_exists.1 hinside
  rcases h.progress htask hc hop with ⟨hzero, -⟩ | ⟨body, hbody⟩ | ⟨result, hdone⟩
  · rw [hzero] at hbegun
    exact absurd hbegun (Nat.lt_irrefl 0)
  · have hgives (p : Plane) : (task.rest.run p).2.gate = false := by
      rw [hbody, run_bind]
      rfl
    -- what gives the gate back in every case has it
    have hhas : ¬ Outside task.rest := fun houtside => by
      have hkept := houtside.run_gate (p := { w.plane with gate := true }) rfl
      rw [hgives] at hkept
      cases hkept
    refine ⟨?_, hgives _⟩
    cases h.orderly with
    | free _ _ htasks => exact absurd (htasks task htask) hhas
    | taken _ _ _ hgate _ _ _ => exact hgate
  · rw [hdone] at hleft
    cases hleft

/-- **The selection.** In every crowd there can be: of each kind one section is selected at most;
while something is recorded to run, of each kind exactly one is selected, and it is the one that was
compiled; and while a task is in flight, which every command behind the gate is from its first step
to its last, no other task removes a section or changes which are selected. -/
theorem Possible.selection (h : w.Possible) :
    ∃ s, w.plane.store = some s ∧
      (∀ kind, ((s.sectionsOf kind).filter (·.selected)).length ≤ 1) ∧
      (s.running.running = true → ∀ kind, ∃ row, (s.sectionsOf kind).filter (·.selected) = [row] ∧
        (s.running.state.stamp kind).map (·.id) = some row.id) ∧
      (∀ i task, w.tasks[i]? = some task → task.InFlight w.plane → ∀ j, j ≠ i →
        ∃ s', (w.take j).plane.store = some s' ∧ s.SameSelection s') ∧
      (∀ task ∈ w.tasks, ∀ c : Command, task.operation = c.operation → c.inside.isSome →
        0 < task.taken → task.rest.result? = none → task.InFlight w.plane) := by
  obtain ⟨s, hs, hvalid, hcoherent⟩ := h.orderly.coherent
  refine ⟨s, hs, hcoherent.single.length_le hvalid, fun hrunning kind => ?_, ?_, ?_⟩
  · obtain ⟨q, hq⟩ := hcoherent.running hrunning
    obtain ⟨row, hrows, hid⟩ := hq.filter_eq hcoherent.single hvalid kind
    refine ⟨row, hrows, ?_⟩
    rw [stamp_record hq.running, hid]
    rfl
  · exact fun i task htask hflight j hne => h.orderly.sameSelection htask hflight hne hs
  · exact fun task htask c hc hinside hbegun hleft => h.inFlight htask hc hinside hbegun hleft

/-! ## Some crowds -/

/-- An operation is begun and takes turns with nothing in between. -/
def ask (w : Crowd) (c : Command) (turns : Nat) : Crowd :=
  (List.replicate turns w.tasks.length).foldl take (w.enter c.operation)

theorem Possible.takes (h : w.Possible) (turns : List Nat) : (turns.foldl take w).Possible := by
  induction turns generalizing w with
  | nil => exact h
  | cons i rest ih => exact ih (h.move (.take i))

theorem Possible.ask (h : w.Possible) (c : Command) (turns : Nat) : (w.ask c turns).Possible :=
  (h.move (.enter (.command c))).takes _

/-- Commands one after the other, each with its turns. -/
def asks (w : Crowd) (commands : List (Command × Nat)) : Crowd :=
  commands.foldl (fun w c => w.ask c.1 c.2) w

theorem Possible.asks (h : w.Possible) (commands : List (Command × Nat)) :
    (w.asks commands).Possible := by
  induction commands generalizing w with
  | nil => exact h
  | cons c rest ih => exact ih (h.ask c.1 c.2)

/-- A first start of which nothing is assumed but that the store is fresh. -/
def opened : Crowd := ⟨Traffic.fresh.plane, []⟩

theorem opened_possible : opened.Possible := .first (by decide +kernel) (by decide +kernel)

/-- Three sections are selected, and there is another one of the first kind. -/
def furnished : Crowd := opened.asks
  [(.edit (.createSection .config "c" ""), 1),
    (.edit (.createSection .config "other" ""), 1),
    (.selectSection .config 1, 3),
    (.edit (.createSection .dns "d" ""), 1),
    (.selectSection .dns 1, 3),
    (.edit (.createSection .routing "r" "fallback: direct"), 1),
    (.selectSection .routing 1, 3)]

theorem furnished_possible : furnished.Possible := opened_possible.asks _

/-- They run. -/
def served : Crowd := furnished.ask (.run false) 8

theorem served_possible : served.Possible := furnished_possible.ask _ _

/-- They are run again, and when they have been compiled, somebody selects the other section. -/
def overlapping : Crowd :=
  (served.ask (.run false) 3).enter (Command.selectSection .config 2).operation

theorem overlapping_possible : overlapping.Possible :=
  (served_possible.ask _ _).move (.enter (.command _))

/-- A selection that overlaps a run has no effect. -/
theorem selection_overlapping :
    ∃ s s' task, overlapping.plane.store = some s ∧ s.running.running = true ∧
      (∀ kind, ∃ row, (s.sectionsOf kind).filter (·.selected) = [row] ∧
        (s.running.state.stamp kind).map (·.id) = some row.id) ∧
      overlapping.tasks[8]? = some task ∧ task.InFlight overlapping.plane ∧
      (overlapping.take 9).plane.store = some s' ∧ s.SameSelection s' := by
  obtain ⟨s, hs, -, hselected, hkept, -⟩ := Possible.selection overlapping_possible
  obtain ⟨s₁, hs₁, hrunning⟩ := Traffic.exists_of_any (o := overlapping.plane.store)
    (P := fun s => s.running.running = true) (by decide +kernel)
  cases hs₁.symm.trans hs
  obtain ⟨task, htask, hflight⟩ := Traffic.exists_of_any (o := overlapping.tasks[8]?)
    (P := fun task => task.InFlight overlapping.plane) (by decide +kernel)
  obtain ⟨s', hs', hsame⟩ := hkept 8 task htask hflight 9 (by decide)
  exact ⟨s, s', task, hs, hrunning, hselected hrunning, htask, hflight, hs', hsame⟩

end Crowd
end ProxyPlane
