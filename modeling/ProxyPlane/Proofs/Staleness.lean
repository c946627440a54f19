import Mathlib.Logic.Relation
import ProxyPlane.Proofs.Crowd

/-!
# Drift in crowds

Once the store has drifted from what runs, only something that is run anew ends that.  Whether an
operation has run something is settled by one of its steps and not by the last one, and from that
step on it is certain how it ends.

## What is here

* `Task.Succeeds` — it is certain that a task has run something.
* `Crowd.Alone i` — task `i` and others go on, but the others leave the store alone.
* `Crowd.Possible.inStep_after` — when an operation that was alone has run something, no drift is
  found.
* `Crowd.Possible.drift_persists` — drift persists until a task succeeds.
* `Crowd.Possible.drift_monotone` — both.
-/

set_option autoImplicit false
namespace ProxyPlane

open Routine Operation Plane
open Relation (ReflTransGen)

/-- It is certain that a task has run something: whatever is to come, that is how it ends. -/
def Task.Succeeds (t : Task) : Prop := t.rest.Returns Launched

namespace Crowd

variable {w w' : Crowd}

/-! ## What a move does to a task -/

/-- A task after a move: it is as it was, or it is the one that has taken a step. -/
theorem Moves.task_cases (h : w.Moves w') {i : Nat} {task : Task}
    (htask : w.tasks[i]? = some task) :
    w'.tasks[i]? = some task ∨ ∃ change rest, task.rest = .step change rest ∧
      w'.tasks[i]? = some (task.stepped (rest w.plane)) ∧ w'.plane = change w.plane := by
  have hlt := (List.getElem?_eq_some_iff.1 htask).1
  cases h with
  | enter hop => exact .inl ((List.getElem?_append_left hlt).trans htask)
  | elsewhere hp => exact .inl htask
  | take j =>
    rcases take_cases w j with hsame | ⟨task', change, rest, htask', hrest⟩
    · rw [hsame]
      exact .inl htask
    · rw [take_step htask' hrest]
      rcases eq_or_ne j i with rfl | hne
      · cases htask.symm.trans htask'
        exact .inr ⟨change, rest, hrest, List.getElem?_set_self hlt, rfl⟩
      · exact .inl ((List.getElem?_set_ne hne).trans htask)

/-- What is certain stays certain. -/
theorem Moves.succeeds (h : w.Moves w') {i : Nat} {task : Task} (htask : w.tasks[i]? = some task)
    (hsucceeds : task.Succeeds) : ∃ task', w'.tasks[i]? = some task' ∧ task'.Succeeds := by
  rcases h.task_cases htask with hsame | ⟨change, rest, hrest, hstepped, -⟩
  · exact ⟨task, hsame, hsucceeds⟩
  · refine ⟨_, hstepped, ?_⟩
    rw [Task.Succeeds, hrest] at hsucceeds
    exact hsucceeds w.plane

theorem succeeds_of_path (h : ReflTransGen Moves w w') {i : Nat} {task : Task}
    (htask : w.tasks[i]? = some task) (hsucceeds : task.Succeeds) :
    ∃ task', w'.tasks[i]? = some task' ∧ task'.Succeeds := by
  induction h with
  | refl => exact ⟨task, htask, hsucceeds⟩
  | tail _ hmove ih =>
    obtain ⟨task', htask', hsucceeds'⟩ := ih
    exact hmove.succeeds htask' hsucceeds'

theorem Possible.path (h : w.Possible) (hpath : ReflTransGen Moves w w') : w'.Possible := by
  induction hpath with
  | refl => exact h
  | tail _ hmove ih => exact ih.move hmove

/-! ## Right after something was run -/

/-- Task `i` takes a step, or something else happens that leaves the store alone. -/
inductive Alone (i : Nat) (w : Crowd) : Crowd → Prop
  | own : Alone i w (w.take i)
  | other {w' : Crowd} (h : w.Moves w') (hstore : w'.plane.store = w.plane.store) : Alone i w w'

theorem Alone.moves {i : Nat} (h : Alone i w w') : w.Moves w' := by
  cases h with
  | own => exact .take i
  | other h _ => exact h

/-- A task that is alone goes on as planned. -/
theorem Alone.onCourse {i : Nat} (h : Alone i w w') {task : Task}
    (htask : w.tasks[i]? = some task)
    {post : Except ControlError (Option Prepared) → Plane → Prop}
    (hcourse : task.rest.OnCourse (Stored fun s s' => s' = s) post w.plane) :
    ∃ task', w'.tasks[i]? = some task' ∧
      task'.rest.OnCourse (Stored fun s s' => s' = s) post w'.plane := by
  rcases h.moves.task_cases htask with hsame | ⟨change, rest, hrest, hstepped, hplane⟩
  · refine ⟨task, hsame, ?_⟩
    cases h with
    | other _ hstore => exact hcourse.kept (.of_eq (fun _ _ => rfl) hstore)
    | own =>
      rcases take_cases w i with hidle | ⟨task', change, rest, htask', hrest⟩
      · rwa [hidle]
      · cases htask.symm.trans htask'
        rw [take_step htask hrest, List.getElem?_set_self (List.getElem?_eq_some_iff.1 htask).1]
          at hsame
        have hcount : task.taken + 1 = task.taken := congrArg Task.taken (Option.some.inj hsame)
        omega
  · refine ⟨_, hstepped, ?_⟩
    rw [hplane]
    rw [hrest] at hcourse
    exact hcourse.step

/-- **Right after something was run** by an operation that was alone, the record is about it, and no
drift is found. -/
theorem Possible.inStep_after (h : w.Possible) {op : Operation (Option Prepared)} (hop : op.Offered)
    (hpath : ReflTransGen (Alone w.tasks.length) (w.enter op) w') {task : Task} {q : Prepared}
    (htask : w'.tasks[w.tasks.length]? = some task) (hdone : task.rest = .done (.ok (some q))) :
    ∃ s, w'.plane.store = some s ∧ s.running = q.record.row ∧ (s.Worded → s.drift = none) := by
  obtain ⟨s, hs, hvalid, hcoherent⟩ := h.orderly.coherent
  let o := Outline.undisturbed hcoherent.single
  have hcourse : ∃ task, w'.tasks[w.tasks.length]? = some task ∧
      task.rest.OnCourse (Stored fun s s' => s' = s) o.Ended w'.plane := by
    clear htask
    induction hpath with
    | refl =>
      refine ⟨.of op, ?_, Holds o.before, o.before_lasts, ⟨s, hs, hvalid, rfl⟩, o.offered hop⟩
      exact (List.getElem?_append_right (Nat.le_refl _)).trans (by rw [Nat.sub_self]; rfl)
    | tail _ halone ih =>
      obtain ⟨task', htask', hcourse⟩ := ih
      exact halone.onCourse htask' hcourse
  obtain ⟨task', htask', hcourse⟩ := hcourse
  cases htask.symm.trans htask'
  rw [hdone] at hcourse
  obtain ⟨s', hs', -, hrecorded⟩ := hcourse.done q rfl
  exact ⟨s', hs', hrecorded⟩

/-! ## Drift persists -/

/-- Every task decides by one step whether it runs something. -/
theorem Possible.decides (h : w.Possible) {task : Task} (htask : task ∈ w.tasks) :
    task.rest.Decides Steady KeepsStore Launched := by
  induction h generalizing task with
  | first => cases htask
  | restart => cases htask
  | @move w w' _ hmove ih =>
    obtain ⟨i, hi⟩ := List.mem_iff_getElem?.1 htask
    cases hmove with
    | enter hop =>
      rcases getElem?_enter hi with hold | ⟨-, rfl⟩
      · exact ih (List.mem_of_getElem? hold)
      · exact hop.decides
    | elsewhere => exact ih htask
    | take j =>
      rcases take_cases w j with hsame | ⟨old, change, rest, hold, hrest⟩
      · rw [hsame] at htask
        exact ih htask
      · rw [take_step hold hrest] at hi
        rcases getElem?_set hi with ⟨-, rfl⟩ | ⟨-, hkept⟩
        · have hdecides := ih (List.mem_of_getElem? hold)
          rw [hrest] at hdecides
          rcases hdecides.step w.plane with ⟨-, hnext⟩ | ⟨hkeeps, -⟩
          · exact hnext
          · exact (hkeeps.mono fun _ _ => steady_of_keepsStore).decides
        · exact ih (List.mem_of_getElem? hkept)

/-- **What ends drift**: a move lets no drift go away, or by it a task succeeds that had not
succeeded before. -/
theorem Possible.steady_or_succeeds (h : w.Possible) (hmove : w.Moves w') :
    Steady w.plane w'.plane ∨ ∃ (i : Nat) (task task' : Task), w.tasks[i]? = some task ∧
      ¬ task.Succeeds ∧ w'.tasks[i]? = some task' ∧ task'.Succeeds := by
  cases hmove with
  | enter => exact .inl (steady_of_keepsStore rfl)
  | elsewhere hp => exact .inl (steady_of_apart hp)
  | take i =>
    rcases take_cases w i with hsame | ⟨task, change, rest, htask, hrest⟩
    · rw [hsame]
      exact .inl (steady_of_keepsStore rfl)
    · have hlt := (List.getElem?_eq_some_iff.1 htask).1
      have hdecides := h.decides (List.mem_of_getElem? htask)
      rw [hrest] at hdecides
      rw [take_step htask hrest]
      rcases hdecides.step w.plane with ⟨hsteady, -⟩ | ⟨-, hreturns, hopen⟩
      · exact .inl hsteady
      · refine .inr ⟨i, task, _, htask, ?_, List.getElem?_set_self hlt, hreturns⟩
        rwa [Task.Succeeds, hrest]

/-- The store has drifted from what runs. -/
def Drifted (w : Crowd) : Prop := w.plane.Holds fun s => s.Coherent ∧ s.drift.isSome

/-- **Drift persists** until a task succeeds. -/
theorem Possible.drift_persists (h : w.Possible) (hpath : ReflTransGen Moves w w')
    (hdrift : w.Drifted) : w'.Drifted ∨ ∃ (i : Nat) (task' : Task), w'.tasks[i]? = some task' ∧
      task'.Succeeds ∧ ∀ task : Task, w.tasks[i]? = some task → ¬ task.Succeeds := by
  induction hpath with
  | refl => exact .inl hdrift
  | @tail w₁ w₂ hbefore hmove ih =>
    rcases ih with ⟨s, hs, hvalid, hcoherent, hdrift⟩ | ⟨i, task, htask, hsucceeds, hnew⟩
    · rcases (h.path hbefore).steady_or_succeeds hmove with
        hsteady | ⟨i, task, task', htask, hopen, htask', hsucceeds⟩
      · obtain ⟨s', hs', hsteady⟩ := hsteady.exists hs hvalid
        exact .inl ⟨s', hs', hsteady.valid, hsteady.coherent hcoherent,
          hsteady.drift hcoherent hdrift⟩
      · -- had it succeeded in the beginning, it would have succeeded just before as well
        refine .inr ⟨i, task', htask', hsucceeds, fun first hfirst hcertain => hopen ?_⟩
        obtain ⟨task₁, htask₁, hsucceeds₁⟩ := succeeds_of_path hbefore hfirst hcertain
        cases htask.symm.trans htask₁
        exact hsucceeds₁
    · obtain ⟨task', htask', hsucceeds'⟩ := hmove.succeeds htask hsucceeds
      exact .inr ⟨i, task', htask', hsucceeds', hnew⟩

/-- What is found when one looks for drift. -/
theorem run_drift {s : Store} (hs : w.plane.store = some s) :
    (Operation.drift.steps.run w.plane).1 = .ok s.drift := by
  rw [Operation.drift, look_run Store.drift hs]

/-- **Drift is monotone.** When an operation that is alone has run something, the record is about it
and no drift is found, as long as the groups' numbers fit the columns; and once drift is found, it
is found after every further move, until a task succeeds in running something. -/
theorem Possible.drift_monotone (h : w.Possible) :
    (∀ op : Operation (Option Prepared), op.Offered → ∀ w' task q,
      ReflTransGen (Alone w.tasks.length) (w.enter op) w' →
      w'.tasks[w.tasks.length]? = some task → task.rest = .done (.ok (some q)) →
        ∃ s, w'.plane.store = some s ∧ s.running = q.record.row ∧
          (s.Worded → (Operation.drift.steps.run w'.plane).1 = .ok none)) ∧
      ∀ w' d, ReflTransGen Moves w w' → (Operation.drift.steps.run w.plane).1 = .ok (some d) →
        (∀ (i : Nat) (task' : Task), w'.tasks[i]? = some task' → task'.Succeeds →
          ∃ task : Task, w.tasks[i]? = some task ∧ task.Succeeds) →
        ∃ d', (Operation.drift.steps.run w'.plane).1 = .ok (some d') := by
  refine ⟨fun op hop w' task q hpath htask hdone => ?_, fun w' d hpath hd hold => ?_⟩
  · obtain ⟨s, hs, hrecord, hdrift⟩ := h.inStep_after hop hpath htask hdone
    refine ⟨s, hs, hrecord, fun hworded => ?_⟩
    rw [run_drift hs, hdrift hworded]
  · obtain ⟨s, hs, hvalid, hcoherent⟩ := h.orderly.coherent
    rw [run_drift hs] at hd
    have hdrifted : w.Drifted := ⟨s, hs, hvalid, hcoherent, by rw [Except.ok.inj hd]; rfl⟩
    rcases h.drift_persists hpath hdrifted with
      ⟨s', hs', -, -, hdrift'⟩ | ⟨i, task', htask', hsucceeds, hnew⟩
    · obtain ⟨d', hd'⟩ := Option.isSome_iff_exists.1 hdrift'
      exact ⟨d', by rw [run_drift hs', hd']⟩
    · obtain ⟨task, htask, hcertain⟩ := hold i task' htask' hsucceeds
      exact absurd hcertain (hnew task htask)

/-! ## An edit that is undone -/

/-- A task that takes turns with nothing in between is alone. -/
theorem alone_takes (i n : Nat) (w : Crowd) :
    ReflTransGen (Alone i) w ((List.replicate n i).foldl take w) := by
  induction n generalizing w with
  | zero => exact .refl
  | succ n ih => exact .head .own (ih (w.take i))

/-- Those who were there before are as they were. -/
theorem getElem?_ask {i : Nat} (hi : i < w.tasks.length) (c : Command) (n : Nat) :
    (w.ask c n).tasks[i]? = w.tasks[i]? := by
  have hturns : ∀ (n : Nat) (w' : Crowd),
      ((List.replicate n w.tasks.length).foldl take w').tasks[i]? = w'.tasks[i]? := by
    intro n
    induction n with
    | zero => exact fun _ => rfl
    | succ n ih =>
      refine fun w' => (ih (w'.take w.tasks.length)).trans ?_
      rcases take_cases w' w.tasks.length with hsame | ⟨task, change, rest, htask, hrest⟩
      · rw [hsame]
      · rw [take_step htask hrest]
        exact List.getElem?_set_ne (Nat.ne_of_gt hi)
  exact (hturns n (w.enter c.operation)).trans (List.getElem?_append_left hi)

/-- What has been launched by what is left to do is its result. -/
theorem eq_done_of_launches {r : Remainder} {q : Prepared} (h : q ∈ launches r) :
    r = .done (.ok (some q)) := by
  unfold launches at h
  split at h
  · rw [List.mem_singleton.1 h]
  · cases h

/-- A task that is done and has run nothing does not succeed. -/
theorem not_succeeds_of_launches {task : Task} (hdone : task.rest.result?.isSome)
    (h : launches task.rest = []) : ¬ task.Succeeds := by
  intro hsucceeds
  rw [Task.Succeeds] at hsucceeds
  cases hrest : task.rest with
  | step change rest => rw [hrest] at hdone; cases hdone
  | done result =>
    rw [hrest] at hsucceeds h
    obtain ⟨q, rfl⟩ := hsucceeds
    cases h

/-- The text of what runs is edited. -/
def edited : Crowd := served.ask (.edit (.updateSection .routing 1 "fallback: block")) 1

/-- The edit is undone. -/
def undone : Crowd := edited.ask (.edit (.updateSection .routing 1 "fallback: direct")) 1

/-- Right after the run there is no drift, and an edit makes one that its undoing does not end. -/
theorem drift_monotone_undone :
    (Operation.drift.steps.run served.plane).1 = .ok none ∧
      ∃ d d', (Operation.drift.steps.run edited.plane).1 = .ok (some d) ∧
        (Operation.drift.steps.run undone.plane).1 = .ok (some d') := by
  obtain ⟨hafter, -⟩ := Possible.drift_monotone furnished_possible
  have hedited : edited.Possible := served_possible.ask _ _
  obtain ⟨-, hpersists⟩ := Possible.drift_monotone hedited
  constructor
  · obtain ⟨task, htask, hlaunched⟩ := Traffic.exists_of_any
      (o := served.tasks[furnished.tasks.length]?) (P := fun t => (launches t.rest).length = 1)
      (by decide +kernel)
    obtain ⟨q, hq⟩ := List.length_eq_one_iff.1 hlaunched
    have hdone := eq_done_of_launches (hq ▸ List.mem_singleton.2 rfl)
    obtain ⟨s, hs, -, hdrift⟩ := hafter _ (.command (.run false)) served task q
      (alone_takes _ 8 _) htask hdone
    obtain ⟨s₁, hs₁, hworded⟩ := Traffic.exists_of_any (o := served.plane.store) (P := Store.Worded)
      (by decide +kernel)
    cases hs₁.symm.trans hs
    exact hdrift hworded
  · obtain ⟨s, hs, hdrift⟩ := Traffic.exists_of_any (o := edited.plane.store)
      (P := fun s => s.drift.isSome = true) (by decide +kernel)
    obtain ⟨d, hd⟩ := Option.isSome_iff_exists.1 hdrift
    have hfound : (Operation.drift.steps.run edited.plane).1 = .ok (some d) := by
      rw [run_drift hs, hd]
    have hpath : ReflTransGen Moves edited undone :=
      .head (.enter (.command _)) ((alone_takes _ 1 _).lift id fun _ _ h => Alone.moves h)
    have hold (i : Nat) (task : Task) (htask : undone.tasks[i]? = some task)
        (hsucceeds : task.Succeeds) :
        ∃ task : Task, edited.tasks[i]? = some task ∧ task.Succeeds := by
      by_cases hi : i < edited.tasks.length
      · rw [undone, getElem?_ask hi] at htask
        exact ⟨task, htask, hsucceeds⟩
      · -- the undoing is done and has run nothing
        have hnew : task ∈ undone.tasks.drop edited.tasks.length := by
          refine List.mem_of_getElem? (i := i - edited.tasks.length) ?_
          rw [List.getElem?_drop, Nat.add_sub_cancel' (Nat.le_of_not_lt hi)]
          exact htask
        have hidle : ∀ task ∈ undone.tasks.drop edited.tasks.length,
            task.rest.result?.isSome ∧ launches task.rest = [] := by decide +kernel
        exact absurd hsucceeds (not_succeeds_of_launches (hidle task hnew).1 (hidle task hnew).2)
    obtain ⟨d', hd'⟩ := hpersists undone d hpath hfound hold
    exact ⟨d, d', hfound, hd'⟩

end Crowd
end ProxyPlane
