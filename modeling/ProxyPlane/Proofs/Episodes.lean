import ProxyPlane.Proofs.Drift
import ProxyPlane.Proofs.Scheduler
import ProxyPlane.Proofs.Trail

/-!
# Episodes of drift

A control plane remembers one bit of its past: whether the last commit has left the store adrift.  A
commit that leaves the store adrift tells so, unless that bit is set.  What the bit stands for is a
matter of all that was done before, by operations that commit once, or several times, or not at all,
and that fail in between; so it is the trail that has to be looked at.

## What is here

* `Store.Adrift` — the store says that something runs, and has drifted from it.
* `Worker.alarms` — how often a drift was told, as it is counted; `Plane.commit_alarms`,
  `Plane.Step.quiet` — a commit may tell one, and nothing else does.
* `Footprint.Onset`, `Footprint.Rings` — that an episode begins, and that a drift is told then and
  only then; `Footprint.AllRing.between` — so there was a commit in between that ended the episode.
* `Plane.Remembers` — what the trail says of the bit; `Plane.Remembers.step` for one step,
  `Plane.Remembers.turns` for one turn after the other.
* `Operation.run_alarms` — a run that succeeds tells no drift.
* `Plane.drift_told_once` — a drift is told once in every episode.
-/

set_option autoImplicit false
namespace ProxyPlane

open Routine

/-! ## Stores that have drifted -/

namespace Drift

variable {frozen : RunningState} {live : LiveStamps}

theorem ofSection_ne_notRunning (kind : SectionKind) :
    ofSection frozen live kind ≠ some .notRunning := by
  rw [ofSection]
  split
  · simp
  · split <;> simp

theorem ofGroup_ne_notRunning (group : Id × Version) :
    ofGroup live group ≠ some .notRunning := by
  rw [ofGroup]
  split
  · simp
  · split <;> simp

theorem ofGroups_ne_notRunning : ofGroups frozen live ≠ some .notRunning := by
  rw [ofGroups]
  split
  · simp
  · split
    · intro hfound
      obtain ⟨group, -, hgroup⟩ := List.exists_of_findSome?_eq_some hfound
      exact ofGroup_ne_notRunning group hgroup
    · simp

/-- While something runs, no drift says that nothing does. -/
theorem detect_ne_notRunning (h : frozen.running = true) :
    detect frozen live ≠ some .notRunning := by
  rw [detect, if_pos h]
  intro hfound
  rcases Option.or_eq_some_iff.1 hfound with hfound | ⟨-, hfound⟩
  · obtain ⟨kind, -, hkind⟩ := List.exists_of_findSome?_eq_some hfound
    exact ofSection_ne_notRunning kind hkind
  · exact ofGroups_ne_notRunning hfound

end Drift

namespace Store

variable {s : Store}

/-- The store says that something runs, and has drifted from it. -/
def Adrift (s : Store) : Prop := s.running.running = true ∧ s.drift ≠ none

instance : DecidablePred Adrift := fun s =>
  inferInstanceAs (Decidable (s.running.running = true ∧ s.drift ≠ none))

theorem adrift_iff : s.Adrift ↔ (s.drift.filter (· ≠ .notRunning)).isSome = true := by
  cases hrunning : s.running.running with
  | false => simp [Adrift, hrunning, drift_of_stopped hrunning]
  | true =>
    have hne : s.drift ≠ some .notRunning := Drift.detect_ne_notRunning hrunning
    cases hdrift : s.drift with
    | none => simp [Adrift, hdrift]
    | some drift =>
      rw [hdrift] at hne
      have hkept : drift ≠ .notRunning := fun heq => hne (heq ▸ rfl)
      simp [Adrift, hrunning, hdrift, hkept]

theorem not_adrift_iff : ¬ s.Adrift ↔ s.running.running = false ∨ s.drift = none := by
  rw [Adrift, not_and_or, Bool.not_eq_true, not_not]

end Store

/-! ## How often a drift was told -/

theorem Event.kind_eq_driftDetected {e : Event} :
    e.kind = Event.driftDetected.kind ↔ e = .driftDetected := by
  cases e <;> simp [kind]

namespace Worker

variable {w w' : Worker} {told : List Event}

/-- How often a drift was told, as it is counted. -/
def alarms (w : Worker) : Nat := w.feed.metrics.events.count [Event.driftDetected.kind]

theorem alarms_emit (w : Worker) (event : Event) :
    (w.emit event).alarms = w.alarms + if event = .driftDetected then 1 else 0 := by
  have hcount := w.feed.metrics.events.count_add [event.kind] [Event.driftDetected.kind]
  simp only [List.cons.injEq, and_true, Event.kind_eq_driftDetected] at hcount
  exact hcount

theorem alarms_emit_other (w : Worker) {event : Event} (h : event ≠ .driftDetected) :
    (w.emit event).alarms = w.alarms := by
  rw [alarms_emit, if_neg h, Nat.add_zero]

theorem alarms_congr (h : w'.feed.metrics.events = w.feed.metrics.events) :
    w'.alarms = w.alarms := by
  rw [alarms, h, alarms]

theorem alarms_enter (w : Worker) (state : EngineState) : (w.enter state).alarms = w.alarms := by
  rw [enter]
  split
  · rfl
  · exact alarms_emit_other _ (by simp)

theorem alarms_die (w : Worker) (fault : Fault) : (w.die fault).2.alarms = w.alarms := by
  have hentered := alarms_enter ((w.count "fatal").emit (.reloadFatal fault.message)) .closed
  exact hentered.trans (alarms_emit_other (w.count "fatal") (by simp))

theorem alarms_takeOver (w : Worker) (r : Rebuild) (engine : Engine) (refused : Option Fault) :
    (w.takeOver r engine refused).2.alarms = w.alarms := by
  rcases hserve : ((handOver w.shop r engine).2.close r.previous).serve (handOver w.shop r engine).1
    with ⟨fault | ⟨⟨⟩⟩, served⟩
  · rw [takeOver_of_error refused hserve]
    exact alarms_die _ _
  · rw [takeOver_of_ok refused hserve]
    have hentered := alarms_enter (w.ready served (handOver w.shop r engine).1) .listening
    cases refused with
    | none => exact (alarms_emit_other (count _ "applied") (by simp)).trans hentered
    | some fault => exact (alarms_emit_other (count _ "rolled_back") (by simp)).trans hentered

theorem alarms_complete (w : Worker) : w.complete.2.alarms = w.alarms := by
  cases hrebuild : w.rebuild with
  | none => rw [complete, hrebuild]
  | some r =>
    obtain ⟨shop, heq, -⟩ | ⟨n, -, ⟨fault, shop, heq, -⟩ | ⟨fault, shop, heq, -⟩⟩ :=
      complete_cases hrebuild
    · rw [heq]
      exact alarms_takeOver _ _ _ _
    · rw [heq]
      exact alarms_takeOver _ _ _ _
    · rw [heq]
      exact alarms_die _ _

theorem alarms_begin (w : Worker) (snapshot : Snapshot) :
    (w.begin snapshot).alarms = w.alarms := by
  rw [begin]
  split
  · rfl
  · exact w.alarms_enter .reloading

theorem alarms_request (w : Worker) (snapshot : Snapshot) :
    (w.request snapshot).2.alarms = w.alarms := by
  rw [request]
  split
  · rfl
  · split
    · rfl
    · exact w.alarms_begin snapshot

/-- What was told and what is counted. -/
theorem Agrees.alarms_eq (h : w.Agrees told) : w.alarms = told.count .driftDetected := by
  rw [alarms, h.events, List.count]
  refine List.countP_congr fun e _ => ?_
  simp [Event.kind_eq_driftDetected]

end Worker

namespace Plane

variable {p p' : Plane}

theorem drifts_drifted (p : Plane) (drift : Option Drift) :
    (p.drifts drift).drifted = drift.isSome := by
  cases drift <;> rfl

theorem drifts_alarms (p : Plane) (drift : Option Drift) :
    (p.drifts drift).worker.alarms =
      p.worker.alarms + if drift.isSome = true ∧ p.drifted = false then 1 else 0 := by
  cases drift with
  | none => simp [drifts]
  | some drift =>
    cases hdrifted : p.drifted with
    | true => simp [drifts, hdrifted]
    | false =>
      rw [drifts, if_neg (by simp [hdrifted])]
      exact Worker.alarms_emit _ _

/-- **A commit** remembers whether it has left the store adrift. -/
theorem commit_drifted (p : Plane) (s : Store) (marked : Option Bool) :
    (p.commit s marked).drifted = true ↔ s.Adrift := by
  rw [Store.adrift_iff]
  cases marked <;> exact Eq.congr_left (drifts_drifted _ _)

/-- **A commit** tells a drift if it leaves the store adrift, and the one before it did not. -/
theorem commit_alarms (p : Plane) (s : Store) (marked : Option Bool) :
    (p.commit s marked).worker.alarms =
      p.worker.alarms + if s.Adrift ∧ p.drifted = false then 1 else 0 := by
  simp only [Store.adrift_iff]
  cases marked with
  | none => exact drifts_alarms { p with store := some s } _
  | some running =>
    refine (drifts_alarms ({ p with store := some s }.emit (.runningChanged running)) _).trans ?_
    congr 1
    exact p.worker.alarms_emit_other (by simp)

theorem commit_alarms_of_not_adrift {s : Store} (h : ¬ s.Adrift) (marked : Option Bool) :
    (p.commit s marked).worker.alarms = p.worker.alarms := by
  rw [commit_alarms, if_neg fun hs => h hs.1, Nat.add_zero]

/-- **A step that commits nothing** tells no drift, and remembers what was remembered. -/
theorem Step.quiet (h : p.Step none p') :
    p'.drifted = p.drifted ∧ p'.worker.alarms = p.worker.alarms := by
  cases h with
  | mute h => exact ⟨h.drifted, Worker.alarms_congr h.events⟩
  | request snapshot => exact ⟨rfl, p.worker.alarms_request snapshot⟩
  | complete => exact ⟨rfl, p.worker.alarms_complete⟩
  | updated id nodes => exact ⟨rfl, p.worker.alarms_emit_other (by simp)⟩

theorem Step.commits {s : Store} (h : p.Step (some s) p') : ∃ marked, p' = p.commit s marked := by
  cases h with
  | commit hs ht marked => exact ⟨marked, rfl⟩

end Plane

/-! ## Episodes -/

namespace Footprint

/-- The store that was committed last. -/
def lastCommit (past : List Footprint) : Option Store := (past.filterMap (·.committed)).getLast?

/-- An episode begins with a commit that leaves the store adrift, if the commit before it did not,
or if there was none. -/
def Onset (past : List Footprint) (f : Footprint) : Prop :=
  ∃ s, f.committed = some s ∧ s.Adrift ∧ ∀ s', lastCommit past = some s' → ¬ s'.Adrift

/-- A drift is told where an episode begins, and once, and nowhere else. -/
structure Rings (past : List Footprint) (f : Footprint) : Prop where
  once : f.told.count .driftDetected ≤ 1
  onset : Event.driftDetected ∈ f.told ↔ f.Onset past

/-- So it is all along a trail. -/
def AllRing (past trail : List Footprint) : Prop :=
  ∀ earlier f later, trail = earlier ++ f :: later → f.Rings (past ++ earlier)

variable {past trail trail' : List Footprint} {f f' : Footprint}

theorem lastCommit_append (past trail : List Footprint) :
    lastCommit (past ++ trail) = (lastCommit trail).or (lastCommit past) := by
  rw [lastCommit, List.filterMap_append, List.getLast?_append, lastCommit, lastCommit]

theorem lastCommit_singleton (f : Footprint) : lastCommit [f] = f.committed := by
  rw [lastCommit]
  cases hcommitted : f.committed <;> simp [hcommitted]

theorem rings_of_count {P : Prop} [Decidable P]
    (hcount : f.told.count .driftDetected = if P then 1 else 0) (honset : f.Onset past ↔ P) :
    f.Rings past := by
  refine ⟨?_, ?_⟩
  · rw [hcount]
    split <;> decide
  · rw [honset, ← List.count_pos_iff, hcount]
    split
    · next h => simp [h]
    · next h => simp [h]

theorem allRing_nil : AllRing past [] := fun earlier _ _ heq => by
  cases earlier <;> cases heq

theorem AllRing.append (h : AllRing past trail) (h' : AllRing (past ++ trail) trail') :
    AllRing past (trail ++ trail') := by
  intro earlier f later heq
  rcases List.append_eq_append_iff.1 heq with ⟨mid, rfl, hlater⟩ | ⟨mid, htrail, hlater⟩
  · rw [← List.append_assoc]
    exact h' mid f later hlater
  · cases mid with
    | nil =>
      rw [List.append_nil] at htrail
      rw [← htrail, ← List.append_nil (past ++ trail)]
      exact h' [] f later hlater.symm
    | cons g mid =>
      obtain ⟨rfl, -⟩ := List.cons.inj hlater
      exact h earlier f mid htrail

theorem allRing_singleton (h : f.Rings past) : AllRing past [f] := by
  intro earlier g later heq
  cases earlier with
  | nil =>
    obtain ⟨rfl, -⟩ := List.cons.inj heq
    rwa [List.append_nil]
  | cons _ rest =>
    obtain ⟨-, hrest⟩ := List.cons.inj heq
    cases rest <;> cases hrest

/-- **Between two episodes** there was a commit after which the store was not adrift. -/
theorem AllRing.between {earlier mid later : List Footprint}
    (h : AllRing past (earlier ++ f :: mid ++ f' :: later)) (hf : Event.driftDetected ∈ f.told)
    (hf' : Event.driftDetected ∈ f'.told) : ∃ g ∈ mid, ∃ s, g.committed = some s ∧ ¬ s.Adrift := by
  have hfirst : f.Rings (past ++ earlier) := h earlier f (mid ++ f' :: later) (by simp)
  obtain ⟨s, hs, hadrift, -⟩ := hfirst.onset.1 hf
  have hsecond : f'.Rings (past ++ (earlier ++ f :: mid)) := h _ f' later rfl
  obtain ⟨-, -, -, hquiet⟩ := hsecond.onset.1 hf'
  have hlast : lastCommit (past ++ (earlier ++ f :: mid)) = (lastCommit mid).or (some s) := by
    rw [List.append_cons, ← List.append_assoc, lastCommit_append, ← List.append_assoc,
      lastCommit_append, lastCommit_singleton, hs, Option.some_or]
  cases hmid : lastCommit mid with
  | none => exact absurd hadrift (hquiet s (by rw [hlast, hmid, Option.none_or]))
  | some s' =>
    obtain ⟨g, hg, hcommitted⟩ := List.mem_filterMap.1 (List.mem_of_getLast? hmid)
    exact ⟨g, hg, s', hcommitted, hquiet s' (by rw [hlast, hmid, Option.some_or])⟩

end Footprint

/-! ## What is remembered -/

/-- What the trail of all that was done says of a control plane: the bit that it remembers tells
whether the last commit has left the store adrift.  What was told before the trail begins has been
counted. -/
structure Plane.Remembers (past : List Footprint) (p : Plane) : Prop where
  drifted : p.drifted = true ↔ ∃ s, Footprint.lastCommit past = some s ∧ s.Adrift
  agrees : ∃ told, p.worker.Agrees told

namespace Plane
open Footprint

variable {p : Plane} {change : Plane → Plane} {past trail : List Footprint} {f : Footprint}

/-- An episode begins with a commit if the bit is not set. -/
theorem Remembers.onset_iff {s : Store} (h : p.Remembers past) (hs : f.committed = some s) :
    f.Onset past ↔ s.Adrift ∧ p.drifted = false := by
  rw [← Bool.not_eq_true, h.drifted]
  constructor
  · rintro ⟨s', hs', hadrift, hquiet⟩
    obtain rfl := Option.some.inj (hs.symm.trans hs')
    exact ⟨hadrift, fun ⟨s', hlast, hbefore⟩ => hquiet s' hlast hbefore⟩
  · rintro ⟨hadrift, hquiet⟩
    exact ⟨s, hs, hadrift, fun s' hlast hbefore => hquiet ⟨s', hlast, hbefore⟩⟩

/-- **One step more**: a drift is told where an episode begins, and the bit is as the trail says. -/
theorem Remembers.step {α : Type} {next : Plane → α} (h : p.Remembers past)
    (hf : p.Treads change f) (hreports : p.Reports fun p => (next p, change p)) :
    f.Rings past ∧ (change p).Remembers (past ++ [f]) := by
  obtain ⟨told, hagrees⟩ := h.agrees
  have hafter := hf.agrees hreports hagrees
  have hcount : (change p).worker.alarms = p.worker.alarms + f.told.count .driftDetected := by
    rw [hafter.alarms_eq, hagrees.alarms_eq, List.count_append]
  have hlast : lastCommit (past ++ [f]) = f.committed.or (lastCommit past) := by
    rw [lastCommit_append, lastCommit_singleton]
  have hstep := hf.step
  cases hcommitted : f.committed with
  | none =>
    rw [hcommitted] at hstep
    obtain ⟨hdrifted, halarms⟩ := hstep.quiet
    have hsilent : f.told.count .driftDetected = if False then 1 else 0 := by
      rw [if_neg not_false]
      omega
    refine ⟨rings_of_count hsilent ⟨fun ⟨s, hs, _⟩ => ?_, False.elim⟩, ?_, _, hafter⟩
    · rw [hcommitted] at hs
      cases hs
    · rw [hdrifted, hlast, hcommitted, Option.none_or]
      exact h.drifted
  | some s =>
    rw [hcommitted] at hstep
    obtain ⟨marked, heq⟩ := hstep.commits
    have halarms := p.commit_alarms s marked
    rw [← heq] at halarms
    refine ⟨rings_of_count (by omega) (h.onset_iff hcommitted), ?_, _, hafter⟩
    rw [heq, commit_drifted, hlast, hcommitted, Option.some_or]
    exact ⟨fun hadrift => ⟨s, rfl, hadrift⟩, fun ⟨_, hs, hadrift⟩ => Option.some.inj hs ▸ hadrift⟩

/-- **A run**, step by step. -/
theorem Remembers.routine {α : Type} {r : Routine Plane α} (h : p.Remembers past)
    (hr : r.Reporting) (htrail : r.Leaves p trail) :
    AllRing past trail ∧ (r.run p).2.Remembers (past ++ trail) := by
  induction r generalizing p past trail with
  | done a =>
    obtain rfl := htrail
    exact ⟨allRing_nil, (List.append_nil past).symm ▸ h⟩
  | step change rest ih =>
    cases trail with
    | nil => exact htrail.elim
    | cons f trail =>
      obtain ⟨hf, hlater⟩ := htrail
      obtain ⟨hreports, hrest⟩ := hr p
      obtain ⟨hrings, hnext⟩ := h.step hf hreports
      obtain ⟨hall, hend⟩ := ih p hnext hrest hlater
      rw [List.append_assoc] at hend
      exact ⟨(allRing_singleton hrings).append hall, hend⟩

/-- **One turn after the other.** -/
theorem Remembers.turns {ts : List Turn} (h : p.Remembers past) (htrail : p.Leaves ts trail) :
    AllRing past trail ∧ (p.turns ts).Remembers (past ++ trail) := by
  induction ts generalizing p past trail with
  | nil =>
    obtain rfl := htrail
    exact ⟨allRing_nil, (List.append_nil past).symm ▸ h⟩
  | cons t rest ih =>
    obtain ⟨first, later, rfl, hfirst, hlater⟩ := htrail
    obtain ⟨hrings, hnext⟩ := h.routine t.reporting hfirst
    obtain ⟨hall, hend⟩ := ih hnext hlater
    rw [List.append_assoc] at hend
    exact ⟨hrings.append hall, hend⟩

/-- A control plane that has just been made remembers no drift, whatever its worker was asked
before. -/
theorem remembers_ofParts (store : Store) (dry : Bool) (shop : Workshop) (bus : Bus)
    (acts : List Worker.Move) (remote : Remote) (now : Instant) :
    (ofParts store (acts.foldl Worker.move (Worker.idle dry shop (.ofBus bus)).boot.2) remote
      now).Remembers [] := by
  refine ⟨⟨fun hset => (by cases hset), fun ⟨_, hlast, _⟩ => (by cases hlast)⟩, ?_⟩
  have hboot : ∃ told, (Worker.idle dry shop (.ofBus bus)).boot.2.Agrees told :=
    agrees_of_reports (Worker.boot_reports dry shop bus) ⟨[], Worker.agrees_idle dry shop bus⟩
  show ∃ told, (acts.foldl Worker.move _).Agrees told
  generalize (Worker.idle dry shop (.ofBus bus)).boot.2 = w at hboot
  induction acts generalizing w with
  | nil => exact hboot
  | cons act rest ih => exact ih _ (agrees_of_reports (w.move_reports act) hboot)

end Plane

/-! ## Runs that succeed -/

namespace Operation
open Transaction Plane

variable {s : Store}

/-- What is known of the store, and how often a drift was told. -/
def Counted (s : Store) (n : Nat) (p : Plane) : Prop := p.store = some s ∧ p.worker.alarms = n

theorem covers_counted {n : Nat} : Covers fun p p' => Counted s n p → Counted s n p' where
  word _ _ _ hevents := fun h => ⟨h.1, (Worker.alarms_congr hevents).trans h.2⟩
  request p snapshot := fun h => ⟨h.1, (p.worker.alarms_request snapshot).trans h.2⟩
  complete p := fun h => ⟨h.1, p.worker.alarms_complete.trans h.2⟩

/-- **A run that succeeds** tells no drift, if it is left alone: what it records is what it has
compiled from the store. -/
theorem starting_alone (hs : s.Valid) (hwords : s.Worded) (dry : Bool) (n : Nat) :
    (starting dry).Alone (Counted s n) (fun _ p => p.worker.alarms = n) fun _ => True := by
  have hcommit {s' : Store} {p : Plane} (hp : Counted s n p) (hs' : ¬ s'.Adrift)
      (marked : Option Bool) : (p.commit s' marked).worker.alarms = n :=
    (commit_alarms_of_not_adrift hs' marked).trans hp.2
  rw [starting]
  split
  · refine Meets.andThen (?_ : Alone (Counted s n) _ (fun _ => Counted s n) fun _ => True)
      fun _ => ?_
    · exact (alone_of_within (halt_within covers_counted) fun _ _ hR hp => hR hp).ends
        (fun _ _ hp => hp) fun _ _ _ => trivial
    · refine Meets.andThen (?_ : Alone (Counted s n) _ (fun _ p => p.worker.alarms = n)
        fun _ => True) fun _ _ hp => hp
      refine alone_transact (fun _ _ => trivial) fun p s' hp hs' => ensures_map.2 ?_
      exact ensures_setRunning.2 (hcommit hp (Store.not_adrift_iff.2 (.inl rfl)) _)
  · refine Meets.andThen (?_ : Alone (Counted s n) _
      (fun q p => Counted s n p ∧ s.prepare none = .ok q) fun _ => True) fun q => ?_
    · exact (launch_alone covers_counted fun _ hp => hp.1).ends (fun _ _ hp => hp)
        fun _ _ _ => trivial
    · refine Meets.andThen (?_ : Alone (fun p => Counted s n p ∧ s.prepare none = .ok q) _
        (fun _ p => p.worker.alarms = n) fun _ => True) fun _ _ hp => hp
      refine alone_transact (fun _ _ => trivial) fun p s' hp hs' => ensures_map.2 ?_
      obtain rfl := Option.some.inj (hp.1.1.symm.trans hs')
      have hdrift := Store.drift_of_prepare hs hp.2 hwords
      exact ensures_saveRunning.2 (hcommit hp.1 (Store.not_adrift_iff.2 (.inr hdrift)) _)

/-- The same with the gate, and without the result. -/
theorem run_alarms (hs : s.Valid) (hwords : s.Worded) (dry : Bool) {p : Plane}
    (hstore : p.store = some s) (hok : ((Operation.run dry).steps.run p).1 = .ok ()) :
    ((Operation.run dry).steps.run p).2.worker.alarms = p.worker.alarms := by
  have hgated : (gated (starting dry)).Alone (Counted s p.worker.alarms)
      (fun _ p' => p'.worker.alarms = p.worker.alarms) fun _ => True := by
    refine gated_alone (starting_alone hs hwords dry _) (fun p' hp' hgate => ?_)
      (fun _ _ _ => trivial) (fun _ _ h => h) fun _ _ => trivial
    rw [acquire, if_neg (by simp [hgate])]
    exact hp'
  have hrun : (Operation.run dry).Alone (Counted s p.worker.alarms)
      (fun _ p' => p'.worker.alarms = p.worker.alarms) fun _ => True :=
    Meets.andThen hgated fun _ _ hp => hp
  have hends := hrun.run ⟨hstore, rfl⟩
  rwa [hok] at hends

end Operation

/-! ## One drift in every episode -/

namespace Plane
open Footprint

/-- **A drift is told once in every episode.**  Take a control plane that was made on any valid
store, with a worker that was started and of which anything was asked before.  Whatever is done with
it, one operation after another and whether they succeed or fail, it leaves a trail; and whatever
trail it leaves, a drift is told by those commits that leave the store adrift where the commit
before them did not, or where there was none before them, and by each of them once.  Between two of
them there is a commit that has left the store stopped or in step.  A run that succeeds then tells
no drift. -/
theorem drift_told_once {store : Store} (hs : store.Valid) (dry : Bool) (shop : Workshop)
    (bus : Bus) (acts : List Worker.Move) (remote : Remote) (now : Instant) (ts : List Turn) :
    let worker := acts.foldl Worker.move (Worker.idle dry shop (.ofBus bus)).boot.2
    let made := ofParts store worker remote now
    (∃ trail, made.Leaves ts trail) ∧
      (∀ trail, made.Leaves ts trail →
        (∀ past f later, trail = past ++ f :: later → f.Rings past) ∧
        ∀ past f mid f' later, trail = past ++ f :: mid ++ f' :: later →
          Event.driftDetected ∈ f.told → Event.driftDetected ∈ f'.told →
          ∃ g ∈ mid, ∃ s, g.committed = some s ∧ (s.running.running = false ∨ s.drift = none)) ∧
      ∀ (dry : Bool) (s : Store) (trail : List Footprint), (made.turns ts).store = some s →
        s.Worded → ((Operation.run dry).steps.run (made.turns ts)).1 = .ok () →
        (Operation.run dry).steps.Leaves (made.turns ts) trail →
        ∀ f ∈ trail, Event.driftDetected ∉ f.told := by
  intro worker made
  have hmade : made.Remembers [] := remembers_ofParts store dry shop bus acts remote now
  refine ⟨made.exists_leaves ts, fun trail htrail => ⟨?_, ?_⟩, ?_⟩
  · intro past f later heq
    exact (hmade.turns htrail).1 past f later heq
  · rintro past f mid f' later rfl hf hf'
    obtain ⟨g, hg, s, hcommitted, hquiet⟩ := (hmade.turns htrail).1.between hf hf'
    exact ⟨g, hg, s, hcommitted, Store.not_adrift_iff.1 hquiet⟩
  · intro dry s trail hstore hwords hok htrail f hf hdrift
    obtain ⟨s', htended⟩ := (tended_ofParts hs worker remote now).turns ts False.elim
    obtain rfl := Option.some.inj (htended.store.symm.trans hstore)
    obtain ⟨before, hbefore⟩ := made.exists_leaves ts
    obtain ⟨told, hagrees⟩ := (hmade.turns hbefore).2.agrees
    have hafter := htrail.agrees (Turn.ask (.run dry)).reporting hagrees
    have halarms := Operation.run_alarms htended.valid hwords dry hstore hok
    rw [hafter.alarms_eq, hagrees.alarms_eq, List.count_append] at halarms
    have hnone : Event.driftDetected ∉ trail.flatMap (·.told) :=
      List.count_eq_zero.1 (by omega)
    exact hnone (List.mem_flatMap.2 ⟨f, hf, hdrift⟩)

/-- Three sections are made, selected and run.  The group that they refer to is changed three times,
of which the first is told; they run again, and one of them is changed, which is told as well. -/
theorem drift_told_once_twice :
    let ts : List Turn :=
      [.ask (.edit (.importNodes [⟨"socks5://n1.example:1080#N1", none⟩] false)),
        .ask (.edit (.createGroup "proxy" "random" [])), .ask (.edit (.attachNodes 1 [1])),
        .ask (.edit (.createSection .config "c" "")), .ask (.selectSection .config 1),
        .ask (.edit (.createSection .dns "d" "")), .ask (.selectSection .dns 1),
        .ask (.edit (.createSection .routing "r" "fallback: proxy")),
        .ask (.selectSection .routing 1), .ask (.run false),
        .ask (.edit (.setPolicy 1 "fixed" [])), .ask (.edit (.detachNodes 1 [1])),
        .ask (.edit (.attachNodes 1 [1])), .ask (.run false),
        .ask (.edit (.updateSection .config 1 "log_level: info"))]
    let worker := (Worker.idle false (.fresh .none none) (.ofBus .standard)).boot.2
    let made := ofParts .empty worker [] 0
    (made.turns ts).worker.alarms = 2 ∧ (∃ trail, made.Leaves ts trail ∧
      ∀ past f later, trail = past ++ f :: later → f.Rings past) ∧
      ((Operation.run false).steps.run (made.turns ts)).1 = .ok () ∧
      ∀ trail, (Operation.run false).steps.Leaves (made.turns ts) trail →
        ∀ f ∈ trail, Event.driftDetected ∉ f.told := by
  intro ts worker made
  obtain ⟨s, hs, hwords⟩ := Traffic.exists_of_any (o := (made.turns ts).store)
    (P := Store.Worded) (by decide +kernel)
  have hok : ((Operation.run false).steps.run (made.turns ts)).1 = .ok () := by decide +kernel
  obtain ⟨⟨trail, htrail⟩, hall, hrun⟩ :=
    drift_told_once Store.valid_empty false (.fresh .none none) .standard [] [] 0 ts
  exact ⟨by decide +kernel, ⟨trail, htrail, (hall trail htrail).1⟩, hok,
    fun trail => hrun false s trail hs hwords hok⟩

end Plane

end ProxyPlane
