import ProxyPlane.Proofs.Steady

/-!
# What is known while something is run

To run something takes several steps: the sections are read, compiled and handed over, and only then
recorded.  An outline says what is known of the store at each of these stages, whatever others do to
it within a relation `R`; what holds once the record is written follows from it.

## What is here

* `Operation.Outline R` — what is known at each stage, and why it stays known.
* `Outline.starting`, `Outline.choosing` — an operation behind the gate that has run something ends
  with what is known of the record.
* `Outline.coherent` — while others spare the store, what is recorded keeps the invariant of the
  selection.
* `Outline.undisturbed` — while others leave the store alone, what is recorded shows no drift.
-/

set_option autoImplicit false
namespace ProxyPlane

open Store Routine Plane

namespace Operation
open Transaction

variable {R : Store → Store → Prop} {α : Type}

/-- What is known of the store at each stage of an operation that runs something, while others
change the store within `R`. -/
structure Outline (R : Store → Store → Prop) where
  /-- Before anything is done. -/
  before : Store → Prop
  /-- Once a section has been found that is to be selected. -/
  found : Section → Store → Prop
  /-- Once the selected sections have been compiled, with a candidate or without one. -/
  compiled : Option Section → Prepared → Store → Prop
  /-- Once what was compiled is recorded to run. -/
  recorded : Prepared → Store → Prop
  before_lasts : Stable (Stored R) (Holds before)
  found_lasts : ∀ row, Stable (Stored R) (Holds (found row))
  compiled_lasts : ∀ candidate q, Stable (Stored R) (Holds (compiled candidate q))
  recorded_lasts : ∀ q, Stable (Stored R) (Holds (recorded q))
  finds : ∀ {s : Store} {kind : SectionKind} {row : Section}, s.Valid → before s →
    row ∈ s.sectionsOf kind → found row s
  compiles : ∀ {s : Store} {q : Prepared}, s.Valid → before s → s.prepare none = .ok q →
    compiled none q s
  compiles_found : ∀ {s : Store} {q : Prepared} {row : Section}, s.Valid → found row s →
    s.prepare (some row) = .ok q → compiled (some row) q s
  records : ∀ {s : Store} {q : Prepared}, s.Valid → compiled none q s →
    recorded q { s with running := q.record.row }
  records_found : ∀ {s : Store} {q : Prepared} {row : Section}, s.Valid →
    compiled (some row) q s → HasSection row.kind row.id s →
      Changes KeepsGroups s (s.selecting row.kind row.id) →
        recorded q { s.selecting row.kind row.id with running := q.record.row }

/-! ## The steps -/

variable {others : Plane → Plane → Prop} {P Q : Store → Prop}

/-- A result with what is known then; of a failure nothing is known. -/
abbrev Known (good : α → Plane → Prop) : Except ControlError α → Plane → Prop :=
  Ends good fun _ _ => True

theorem stable_known {good : α → Plane → Prop} (h : ∀ a, Stable others (good a))
    (result : Except ControlError α) : Stable others (Known good result) := by
  cases result with
  | ok a => exact h a
  | error e => exact fun _ _ _ _ => trivial

/-- What is known of the store does not depend on anything else. -/
theorem stable_holds_apart : Stable Apart (Holds P) := by
  rintro p p' ⟨-, hstore⟩ ⟨s, hs, hP⟩
  exact ⟨s, hstore.trans hs, hP⟩

theorem apart_known {op : Operation α} (h : op.steps.Within Apart)
    (hothers : Stable others (Holds P)) :
    op.steps.Meets others (Holds P) (Known fun _ => Holds P) := by
  refine (h.meets hothers stable_holds_apart).imp fun result p hp => ?_
  cases result with
  | ok a => exact hp
  | error e => trivial

theorem transact_known {t : Transaction (α × Closing)} {good : α → Plane → Prop}
    (hgood : ∀ a, Stable others (good a))
    (h : ∀ p s, p.store = some s → s.Valid → P s →
      t.Ensures s fun r s' => good r.1 (r.2.close p s')) :
    (transact t).steps.Meets others (Holds P) (Known good) := by
  refine Meets.atomic (stable_known hgood) fun p hp => ?_
  obtain ⟨s, hs, hvalid, hP⟩ := hp
  show Known good ((transact t).steps.run p).1 ((transact t).steps.run p).2
  rcases hon : t.on s with ⟨e | ⟨a, closing⟩, s'⟩
  · rw [transact_run_error hs hon]
    trivial
  · rw [transact_run_ok hs hon]
    exact h p s hs hvalid hP _ s' hon

theorem mark_known {t : Transaction α} {running : Bool} (hQ : Stable others (Holds Q))
    (h : ∀ s : Store, s.Valid → P s → t.Ensures s fun _ s' => s'.Valid ∧ Q s') :
    (mark running t).steps.Meets others (Holds P) (Known fun _ => Holds Q) := by
  refine transact_known (fun _ => hQ) fun p s _ hvalid hP => ensures_map.2 ?_
  exact (h s hvalid hP).mono fun _ s' hs' => ⟨s', p.commit_store _ _, hs'⟩

theorem counted_known {outcome : String} {dry : Bool} {op : Operation α} {good : α → Store → Prop}
    (h : op.steps.Meets others (Holds P) (Known fun a => Holds (good a)))
    (hgood : ∀ a, Stable others (Holds (good a))) :
    (counted outcome dry op).steps.Meets others (Holds P) (Known fun a => Holds (good a)) := by
  refine Meets.bind h fun result p hp => ⟨_, stable_known hgood result, ?_, fun _ h => h⟩
  cases result with
  | ok a => exact hp
  | error e => trivial

/-- An operation of which the result is passed over has run nothing. -/
theorem returns_ignore (op : Operation α) :
    (do let _ ← op; return none : Operation (Option Prepared)).steps.Returns
      fun r => ¬ Launched r := by
  refine Returns.bind (returns_all (P := fun _ => True) op.steps fun _ => trivial) fun r _ => ?_
  cases r with
  | ok _ => exact not_launched_none
  | error e => exact not_launched_error e

/-! ## The operations -/

namespace Outline

variable (o : Outline R)

/-- What is known at the end of an operation that may have run something. -/
def Ended (result : Except ControlError (Option Prepared)) (p : Plane) : Prop :=
  ∀ q, result = .ok (some q) → p.Holds (o.recorded q)

theorem stable_ended (result : Except ControlError (Option Prepared)) :
    Stable (Stored R) (o.Ended result) :=
  fun _ _ hR h q hq => o.recorded_lasts q _ _ hR (h q hq)

/-- Nothing is to be known of an operation that runs nothing. -/
theorem idle {op : Operation (Option Prepared)} (h : op.steps.Returns fun r => ¬ Launched r)
    {pre : Plane → Prop} : op.steps.Meets (Stored R) pre o.Ended :=
  h.meets.imp fun _ _ hfailed q hq => absurd ⟨q, hq⟩ hfailed

/-- A launch knows what was compiled. -/
theorem launch {candidate : Option Section}
    (h : ∀ {s q}, s.Valid → P s → s.prepare candidate = .ok q → o.compiled candidate q s) :
    (launch candidate).steps.Meets (Stored R) (Holds P)
      (Known fun q => Holds (o.compiled candidate q)) := by
  have hcompiled := o.compiled_lasts candidate
  refine counted_known ?_ hcompiled
  let read : Prepared → Plane → Prop := fun q => Holds (o.compiled candidate q)
  refine Meets.andThen (?_ : Meets (Stored R) (Holds P) (Known read) _) fun q => ?_
  · refine Meets.atomic (stable_known hcompiled) fun p hp => ?_
    obtain ⟨s, hs, hvalid, hPs⟩ := hp
    rw [hs]
    show Known _ (s.prepare candidate) p
    cases hq : s.prepare candidate with
    | ok q => exact ⟨s, hs, hvalid, h hvalid hPs hq⟩
    | error e => trivial
  · refine (apart_known (tell_apart _) (hcompiled q)).andThen fun _ => ?_
    exact (apart_known (submit_apart _) (hcompiled q)).andThen fun _ => fun _ h => h

/-- An operation that fails early has nothing to answer for. -/
theorem andThen {m : Operation α} {f : α → Operation (Option Prepared)} {pre : Plane → Prop}
    {good : α → Plane → Prop} (hm : m.steps.Meets (Stored R) pre (Known good))
    (hf : ∀ a, (f a).steps.Meets (Stored R) (good a) o.Ended) :
    (m >>= f).steps.Meets (Stored R) pre o.Ended := by
  refine Meets.bind hm fun result => ?_
  cases result with
  | ok a => exact hf a
  | error e => exact fun _ _ q hq => by cases hq

/-- **What has been run is known to be recorded**, if it was started from the selected sections. -/
theorem starting (dry : Bool) :
    (starting dry).steps.Meets (Stored R) (Holds o.before) o.Ended := by
  rw [Operation.starting]
  split
  · refine o.idle (Returns.bind (returns_all (P := fun _ => True) _ fun _ => trivial) fun r _ => ?_)
    cases r with
    | error e => exact not_launched_error e
    | ok _ => exact returns_ignore (mark false (.setRunning false))
  · refine o.andThen (o.launch o.compiles) fun q => ?_
    refine o.andThen (mark_known (o.recorded_lasts q) fun s hvalid hs => ?_) fun _ => ?_
    · exact ensures_saveRunning.2 ⟨valid_running hvalid _, o.records hvalid hs⟩
    · exact fun p hp q' hq' => by cases hq'; exact hp

/-- The same for a section that is selected instead of another one. -/
theorem reselect (row : Section) :
    (reselect row).steps.Meets (Stored R) (Holds (o.found row))
      (Known fun q => Holds (o.recorded q)) := by
  refine (o.launch o.compiles_found).andThen fun q => ?_
  refine (mark_known (o.recorded_lasts q) fun s hvalid hs => ?_).andThen fun _ _ h => h
  refine ensures_bind.2 ((selectSection_selects hvalid).mono fun _ s' hselects => ?_)
  obtain ⟨rfl, hthere, hchanges⟩ := hselects
  exact ensures_saveRunning.2 ⟨valid_running hchanges.valid _,
    o.records_found hvalid hs hthere hchanges⟩

/-- What is known of the section that is to be selected, if that takes a reload. -/
def Looked : Option Section → Plane → Prop
  | some row => Holds (o.found row)
  | none => fun _ => True

theorem stable_looked (candidate : Option Section) : Stable (Stored R) (o.Looked candidate) := by
  cases candidate with
  | none => exact fun _ _ _ _ => trivial
  | some row => exact o.found_lasts row

theorem choosing (kind : SectionKind) (id : Id) :
    (choosing kind id).steps.Meets (Stored R) (Holds o.before) o.Ended := by
  refine o.andThen (transact_known o.stable_looked fun p s hs hvalid hbefore => ?_)
    fun candidate => ?_
  · simp only [ensures_bind, ensures_loadSection, ensures_get]
    refine fun row hrow => ensures_ite.2 ⟨fun _ => ensures_pure.2 ?_, fun _ => ?_⟩
    · exact ⟨s, hs, hvalid, o.finds hvalid hbefore (Table.mem_of_find? hrow).1⟩
    · exact ensures_bind.2 fun _ _ _ => ensures_pure.2 trivial
  · cases candidate with
    | none => exact fun _ _ q hq => by cases hq
    | some row =>
      refine o.andThen (apart_known (tell_apart _) (o.found_lasts row)) fun _ => ?_
      refine o.andThen (o.reselect row) fun q => ?_
      exact fun p hp q' hq' => by cases hq'; exact hp

/-- What holds behind the gate holds with the gate around it. -/
theorem gated {op : Operation (Option Prepared)}
    (h : op.steps.Meets (Stored R) (Holds o.before) o.Ended) :
    (gated op).steps.Meets (Stored R) (Holds o.before) o.Ended := by
  rw [gated_steps]
  refine fun p hp => ⟨Holds o.before, o.before_lasts, ?_, ?_⟩
  · obtain ⟨s, hs, hbefore⟩ := hp
    refine ⟨s, ?_, hbefore⟩
    rw [acquire]
    split <;> exact hs
  · dsimp only
    split
    · exact fun _ _ q hq => by cases hq
    · refine Meets.bind h fun result p hp =>
        ⟨o.Ended result, o.stable_ended result, ?_, fun _ h => h⟩
      exact fun q hq => hp q hq

theorem inside {c : Command} {op : Operation (Option Prepared)} (h : c.inside = some op) :
    op.steps.Meets (Stored R) (Holds o.before) o.Ended := by
  cases c <;> cases h
  · exact o.starting _
  · exact o.choosing _ _
  · exact o.idle (returns_ignore _)

theorem resume : resume.steps.Meets (Stored R) (Holds o.before) o.Ended := by
  have hnote (level : LogLevel) (message : String) :
      (modify (·.note level message [])).steps.Within Apart :=
    modify_within fun _ => ⟨rfl, rfl⟩
  refine o.andThen (apart_known (read_within _ fun _ => ⟨rfl, rfl⟩) o.before_lasts) fun found => ?_
  obtain ⟨running, configured⟩ := found
  dsimp only
  split
  · split
    · refine o.andThen (apart_known (hnote _ _) o.before_lasts) fun _ => ?_
      refine Meets.bind (o.gated (o.starting false)) fun result => ?_
      cases result with
      | ok r => exact fun p hp => hp
      | error e =>
        refine o.idle (Returns.bind (returns_all (P := fun _ => True) markStopped.steps fun _ =>
          trivial) fun r _ => ?_)
        cases r <;> exact not_launched_error _
    · refine o.andThen (apart_known (hnote _ _) o.before_lasts) fun _ => ?_
      exact o.idle (returns_ignore markStopped)
  · exact fun _ _ q hq => by cases hq

/-- **What has been run is known to be recorded**, whatever the operation was. -/
theorem offered {op : Operation (Option Prepared)} (h : op.Offered) :
    op.steps.Meets (Stored R) (Holds o.before) o.Ended := by
  cases h with
  | resume => exact o.resume
  | command c =>
    cases hinside : c.inside with
    | some op =>
      rw [Command.operation_steps hinside]
      exact o.gated (o.inside hinside)
    | none =>
      cases c with
      | edit e => exact o.idle (returns_ignore _)
      | _ => cases hinside

/-! ## Two outlines -/

/-- A condition that is kept by what is done to valid stores. -/
theorem stable_holds (h : ∀ s s', s.Valid → R s s' → P s → s'.Valid ∧ P s') :
    Stable (Stored R) (Holds P) := by
  rintro p p' hR ⟨s, hs, hvalid, hP⟩
  obtain ⟨s', hs', hRs⟩ := hR.exists hs hvalid
  exact ⟨s', hs', h s s' hvalid hRs hP⟩

/-- While others spare the store, what is recorded keeps the invariant of the selection. -/
def coherent : Outline Spares where
  before := Coherent
  found row s := s.Coherent ∧ s.RecallsSection row.kind row
  compiled candidate q s := s.Coherent ∧ s.Ready candidate q
  recorded _ := Coherent
  before_lasts := stable_holds fun _ _ _ hs h => ⟨hs.valid, h.spares hs⟩
  found_lasts _ := stable_holds fun _ _ _ hs h =>
    ⟨hs.valid, h.1.spares hs, h.2.advance hs.advances⟩
  compiled_lasts _ _ := stable_holds fun _ _ _ hs h => ⟨hs.valid, h.1.spares hs, h.2.spares hs⟩
  recorded_lasts _ := stable_holds fun _ _ _ hs h => ⟨hs.valid, h.spares hs⟩
  finds {s kind row} hvalid h hrow := by
    have hself := recallsSection_self hvalid hrow
    rw [← hvalid.kinds kind row hrow] at hself
    exact ⟨h, hself⟩
  compiles hvalid h hq := ⟨h, ready_prepare hvalid (fun _ hnone => by cases hnone) hq⟩
  compiles_found hvalid h hq :=
    ⟨h.1, ready_prepare hvalid (fun _ hrow => by cases hrow; exact h.2) hq⟩
  records _ h := h.2.coherent h.1.single
  records_found _ h hthere hchanges :=
    h.2.coherent_selecting h.1.single hchanges.loosen.advances hthere

theorem stable_holds_eq : Stable (Stored fun s s' => s' = s) (Holds P) :=
  stable_holds fun _ _ hvalid hs h => hs ▸ ⟨hvalid, h⟩

/-- While others leave the store alone, what is recorded shows no drift. -/
def undisturbed {start : Store} (hsingle : start.Single) : Outline fun s s' => s' = s where
  before s := s = start
  found row s := s = start ∧ row ∈ s.sectionsOf row.kind
  compiled candidate q s := s = start ∧ s.prepare candidate = .ok q ∧
    ∀ row, candidate = some row → row ∈ s.sectionsOf row.kind
  recorded q s := s.running = q.record.row ∧ (s.Worded → s.drift = none)
  before_lasts := stable_holds_eq
  found_lasts _ := stable_holds_eq
  compiled_lasts _ _ := stable_holds_eq
  recorded_lasts _ := stable_holds_eq
  finds {s kind row} hvalid h hrow := by
    rw [← hvalid.kinds kind row hrow] at hrow
    exact ⟨h, hrow⟩
  compiles _ h hq := ⟨h, hq, fun _ hnone => by cases hnone⟩
  compiles_found _ h hq := ⟨h.1, hq, fun _ hrow => by cases hrow; exact h.2⟩
  records hvalid h := by
    have hdrift := drift_of_prepare hvalid h.2.1
    exact ⟨rfl, hdrift⟩
  records_found {s q row} hvalid h _ hchanges := by
    obtain ⟨rfl, hq, hrow⟩ := h
    have hdrift := drift_of_prepare_selecting hvalid hsingle (hrow row rfl) hchanges.valid hq
    exact ⟨rfl, hdrift⟩

end Outline
end Operation
end ProxyPlane
