import ProxyPlane.Proofs.Gate

/-!
# Commands

Everything that can be asked of the control plane, as data: the three operations on the engine,
which go through the gate, and the edits, which do not.

## What is here

* `Command`, `Command.operation` — what can be asked and what it is.
* `Operation.gated_steps` — an operation behind the gate is one step that takes the gate, the
  operation, and one step that gives it back.
* `Command.inside` — what a command does behind the gate, if it goes through it.
* `Operation.Covers R` — a relation that covers all that operations do to the engine;
  `submit_within`, `halt_within`, `launch_within` — so they are within `R`.
* `Operation.Spans Q R` — the same with the transactions, of which `Q` admits what they do to the
  store; `starting_within`, `choosing_within`, `removing_within`, `resume_within` — so are the
  operations on the engine as a whole.
* `Command.once` — every step of a command keeps all groups, but for one step at most, which moves
  the groups it touches by one version.
-/

set_option autoImplicit false
namespace ProxyPlane

open Store Routine

/-- What can be asked of the control plane. -/
inductive Command
  | run (dry : Bool)
  | selectSection (kind : SectionKind) (id : Id)
  | removeSection (kind : SectionKind) (id : Id)
  | edit (e : Edit)

namespace Command

/-- What a command does; what runs then is given, if the command has run something. -/
def operation : Command → Operation (Option Prepared)
  | run dry => Operation.start dry
  | selectSection kind id => Operation.choose kind id
  | removeSection kind id => do
    let _ ← Operation.removeSection kind id
    return none
  | edit e => do
    e.operation
    return none

/-- What a command does behind the gate, if it goes through it. -/
def inside : Command → Option (Operation (Option Prepared))
  | run dry => some (Operation.starting dry)
  | selectSection kind id => some (Operation.choosing kind id)
  | removeSection kind id => some do
    let _ ← Operation.removing kind id
    return none
  | edit _ => none

end Command

namespace Operation
open Transaction

variable {α β : Type}

/-! ## The gate -/

/-- Taking the gate, which is refused while somebody has it. -/
def acquire (p : Plane) : Plane :=
  if p.gate then p.tell (·.measure (·.countBusyRun)) else { p with gate := true }

/-- Giving the gate back. -/
def release (result : Except ControlError α) : Routine Plane (Except ControlError α) :=
  .step (fun p => { p with gate := false }) fun _ => .done result

/-- **An operation behind the gate** takes it first and gives it back last, whatever comes of it. -/
theorem gated_steps (op : Operation α) : (gated op).steps =
    .step acquire fun p => if p.gate then .done (.error .busy) else op.steps.bind release := by
  show Routine.step _ _ = _
  congr 1
  · funext p
    rw [acquire]
    show Prod.snd (if p.gate = true then _ else _) = _
    split <;> rfl
  · funext p
    show Routine.bind (.done (Prod.fst (if p.gate = true then _ else _))) _ = _
    cases h : p.gate
    · rfl
    · rfl

/-- What is done with the result may as well be done before the gate is given back. -/
theorem gated_ignore (op : Operation α) (b : β) :
    (do let _ ← gated op; return b : Operation β).steps =
    (gated do let _ ← op; return b).steps := by
  rw [gated_steps]
  show (gated op).steps.bind _ = _
  rw [gated_steps]
  simp only [Routine.bind]
  congr 1
  funext p
  split
  · rfl
  · show (op.steps.bind release).bind _ = (op.steps.bind _).bind release
    rw [Routine.bind_assoc, Routine.bind_assoc]
    congr 1
    funext result
    cases result <;> rfl

/-! ## Steps behind the gate -/

/-- A step that keeps all groups. -/
abbrev Still : Plane → Plane → Prop := Plane.Stored (Changes KeepsGroups)

/-- A step that moves the groups it touches by one version. -/
abbrev Moving : Plane → Plane → Prop := Plane.Stored (Changes MovesGroups)

/-- A step behind the gate: it keeps the gate, and all groups. -/
structure Inside (p p' : Plane) : Prop where
  gate : p'.gate = p.gate
  still : Still p p'

theorem changes_refl {s : Store} (h : s.Valid) : Changes KeepsGroups s s :=
  (Plane.edits_refl h).toChanges

theorem still_of_eq {p p' : Plane} (h : p'.store = p.store) : Still p p' :=
  .of_eq (fun _ => changes_refl) h

theorem still_of_quiet {p p' : Plane} (h : Quiet p p') : Still p p' :=
  h.store.mono fun _ _ _ he => he.toChanges

theorem moving_of_loud {p p' : Plane} (h : Loud p p') : Moving p p' :=
  h.store.mono fun _ _ _ he => he.toChanges

/-- A step that leaves the gate and the store alone. -/
structure Apart (p p' : Plane) : Prop where
  gate : p'.gate = p.gate
  store : p'.store = p.store

theorem inside_of_apart {p p' : Plane} (h : Apart p p') : Inside p p' :=
  ⟨h.gate, still_of_eq h.store⟩

theorem transact_inside {t : Transaction (α × Closing)} (h : t.Does (Changes KeepsGroups)) :
    (transact t).steps.Within Inside := by
  refine transact_within (fun p => inside_of_apart ⟨rfl, rfl⟩) fun p s hs r s' hon _ _ => ?_
  exact ⟨p.commit_gate _ _, Plane.stored_commit hs (fun hvalid => h s hvalid r s' hon) _⟩

/-- A relation that covers all that operations do to the engine: they ask the worker, and they tell
observers what is no event. -/
structure Covers (R : Plane → Plane → Prop) : Prop where
  word : ∀ (p : Plane) (feed : Feed), feed.bus = p.worker.feed.bus →
    feed.metrics.events = p.worker.feed.metrics.events →
      R p { p with worker := { p.worker with feed } }
  request : ∀ (p : Plane) snapshot, R p { p with worker := (p.worker.request snapshot).2 }
  complete : ∀ p : Plane, R p { p with worker := p.worker.complete.2 }

section Covers
variable {R : Plane → Plane → Prop}

theorem note_within (h : Covers R) (level : LogLevel) (message : String)
    (fields : List (String × LogValue)) : (modify (·.note level message fields)).steps.Within R :=
  modify_within fun p => h.word p _ rfl rfl

theorem submit_within (h : Covers R) (snapshot : Snapshot) : (submit snapshot).steps.Within R := by
  refine Within.bind ?_ fun _ => trivial
  refine Within.bind (fun p => ⟨h.request p snapshot, trivial⟩) fun begun => ?_
  cases begun with
  | some _ => trivial
  | none => exact fun p => ⟨h.complete p, trivial⟩

theorem counted_within (h : Covers R) {op : Operation α} (outcome : String) (dry : Bool)
    (hop : op.steps.Within R) : (counted outcome dry op).steps.Within R := by
  refine Within.bind hop fun result => Within.bind (modify_within fun p => ?_) fun _ => trivial
  cases result <;> exact h.word p _ rfl rfl

theorem halt_within (h : Covers R) : halt.steps.Within R :=
  (counted_within h _ _ (submit_within h _)).andThen fun _ => note_within h _ _ _

theorem launch_within (h : Covers R) (candidate : Option Section) :
    (launch candidate).steps.Within R := by
  refine counted_within h _ _ (Within.andThen (atomic_within fun p => ?_) fun q => ?_)
  · split <;> exact h.word p _ rfl rfl
  · refine Within.andThen (modify_within fun p => ?_) fun _ => ?_
    · exact h.word p _ rfl rfl
    · exact (submit_within h _).andThen fun _ => trivial

theorem Covers.mono {R' : Plane → Plane → Prop} (h : Covers R) (hR : ∀ p p', R p p' → R' p p') :
    Covers R' :=
  ⟨fun p feed hbus hevents => hR _ _ (h.word p feed hbus hevents),
    fun p snapshot => hR _ _ (h.request p snapshot), fun p => hR _ _ (h.complete p)⟩

theorem Covers.refl (h : Covers R) (p : Plane) : R p p := h.word p p.worker.feed rfl rfl

end Covers

/-! ### What operations on the engine do to the store -/

/-- A relation between stores that admits all that operations on the engine do to the store: they
select and remove sections and set the record of what runs. -/
structure Admits (Q : Store → Store → Prop) : Prop where
  refl : ∀ s : Store, s.Valid → Q s s
  valid : ∀ s s' : Store, Q s s' → s'.Valid
  trans : ∀ s s' s'' : Store, Q s s' → Q s' s'' → Q s s''
  running : ∀ (s : Store) (row : RunningRow), s.Valid → Q s { s with running := row }
  select : ∀ kind id, (Transaction.selectSection kind id).Does Q
  remove : ∀ kind id, (Transaction.removeSection kind id).Does Q

/-- A relation that spans whole operations on the engine: what they do to the engine, and the
transactions of which `Q` admits what they do to the store. -/
structure Spans (Q : Store → Store → Prop) (R : Plane → Plane → Prop) : Prop where
  covers : Covers R
  admits : Admits Q
  transacts : ∀ {α : Type} {t : Transaction (α × Closing)}, t.Does Q → (transact t).steps.Within R

section Spans
variable {Q : Store → Store → Prop} {R : Plane → Plane → Prop}

theorem Spans.mono {R' : Plane → Plane → Prop} (h : Spans Q R) (hR : ∀ p p', R p p' → R' p p') :
    Spans Q R' :=
  ⟨h.covers.mono hR, h.admits, fun ht => (h.transacts ht).mono hR⟩

theorem mark_within (h : Spans Q R) {t : Transaction α} {running : Bool} (ht : t.Does Q) :
    (mark running t).steps.Within R :=
  h.transacts fun s hs => ensures_map.2 (ht s hs)

theorem markStopped_within (h : Spans Q R) : markStopped.steps.Within R :=
  mark_within h fun s hs => ensures_setRunning.2 (h.admits.running s _ hs)

theorem starting_within (h : Spans Q R) (dry : Bool) : (starting dry).steps.Within R := by
  rw [starting]
  split
  · refine (halt_within h.covers).andThen fun _ => ?_
    exact (markStopped_within h).andThen fun _ => trivial
  · refine (launch_within h.covers none).andThen fun q => ?_
    refine Within.andThen (mark_within h fun s hs => ?_) fun _ => trivial
    exact ensures_saveRunning.2 (h.admits.running s _ hs)

theorem choosing_within (h : Spans Q R) (kind : SectionKind) (id : Id) :
    (choosing kind id).steps.Within R := by
  have hselect := h.admits.select
  refine Within.andThen (h.transacts fun s hs => ?_) fun candidate => ?_
  · simp only [ensures_bind, ensures_loadSection, ensures_get]
    refine fun row _ =>
      ensures_ite.2 ⟨fun _ => ensures_pure.2 (h.admits.refl s hs), fun _ => ?_⟩
    exact ensures_bind.2 ((hselect _ _ s hs).mono fun _ _ h => ensures_pure.2 h)
  · cases candidate with
    | none => trivial
    | some row =>
      refine (note_within h.covers _ _ _).andThen fun _ => Within.andThen ?_ fun _ => trivial
      refine (launch_within h.covers _).andThen fun q => ?_
      refine Within.andThen (mark_within h fun s hs => ?_) fun _ => trivial
      refine ensures_bind.2 ((hselect _ _ s hs).mono fun _ s' hs' => ensures_saveRunning.2 ?_)
      exact h.admits.trans _ _ _ hs' (h.admits.running s' _ (h.admits.valid _ _ hs'))

theorem removing_within (h : Spans Q R) (kind : SectionKind) (id : Id) :
    (removing kind id).steps.Within R := by
  have hremove := h.admits.remove
  refine Within.andThen (h.transacts fun s hs => ?_) fun removed => ?_
  · refine ensures_bind.2 (ensures_get.2 ?_)
    split
    · exact ensures_pure.2 (h.admits.refl s hs)
    · refine ensures_ite.2 ⟨fun _ => ensures_pure.2 (h.admits.refl s hs), fun _ => ?_⟩
      exact ensures_bind.2 ((hremove _ _ s hs).mono fun _ _ h => ensures_pure.2 h)
  · cases removed with
    | some _ => trivial
    | none =>
      refine (note_within h.covers _ _ _).andThen fun _ => ?_
      refine (halt_within h.covers).andThen fun _ => mark_within h fun s hs => ?_
      refine ensures_bind.2 (ensures_setRunning.2 ?_)
      have hstopped := h.admits.running s { s.running with running := false } hs
      refine ensures_bind.2 ((hremove _ _ _ (h.admits.valid _ _ hstopped)).mono fun _ _ hs' => ?_)
      exact ensures_pure.2 (h.admits.trans _ _ _ hstopped hs')

theorem resume_within (h : Spans Q R) (hgated : (gated (starting false)).steps.Within R) :
    resume.steps.Within R := by
  refine (read_within _ h.covers.refl).andThen fun found => ?_
  dsimp only
  split
  · split
    · refine (note_within h.covers _ _ _).andThen fun _ => hgated.orElse fun e => ?_
      exact (markStopped_within h).andThen fun _ => trivial
    · refine (note_within h.covers _ _ _).andThen fun _ => ?_
      exact (markStopped_within h).andThen fun _ => trivial
  · trivial

end Spans

/-! ### Behind the gate -/

theorem covers_apart : Covers Apart :=
  ⟨fun _ _ _ _ => ⟨rfl, rfl⟩, fun _ _ => ⟨rfl, rfl⟩, fun _ => ⟨rfl, rfl⟩⟩

/-- A word to observers. -/
theorem tell_apart (f : Feed → Feed) : (modify (·.tell f)).steps.Within Apart :=
  modify_within fun _ => ⟨rfl, rfl⟩

theorem submit_apart (snapshot : Snapshot) : (submit snapshot).steps.Within Apart :=
  submit_within covers_apart snapshot

theorem halt_apart : halt.steps.Within Apart := halt_within covers_apart

theorem launch_apart (candidate : Option Section) : (launch candidate).steps.Within Apart :=
  launch_within covers_apart candidate

theorem changes_running {s : Store} (h : s.Valid) (row : RunningRow) :
    Changes KeepsGroups s { s with running := row } :=
  ⟨valid_running h row, keepsGroups_of_eq rfl rfl, movesSections_of_eq rfl⟩

theorem changes_trans {s s' s'' : Store} (h : Changes KeepsGroups s s')
    (h' : Changes KeepsGroups s' s'') : Changes KeepsGroups s s'' :=
  ⟨h'.valid, h.groups.trans h'.groups, h.sections.trans h'.sections⟩

theorem admits_changes : Admits (Changes KeepsGroups) where
  refl _ := changes_refl
  valid _ _ h := h.valid
  trans _ _ _ := changes_trans
  running _ row hs := changes_running hs row
  select _ _ s hs := (selectSection_does s hs).mono fun _ _ h => h.1
  remove _ _ s hs := (removeSection_does s hs).mono fun _ _ h => h.1

theorem spans_inside : Spans (Changes KeepsGroups) Inside :=
  ⟨covers_apart.mono fun _ _ => inside_of_apart, admits_changes, transact_inside⟩

/-! ## The gate and what is behind it -/

theorem acquire_still (p : Plane) : Still p (acquire p) := by
  rw [acquire]
  split
  · exact still_of_quiet (p.aside_tell _)
  · exact still_of_eq rfl

/-- Around an operation, the gate is taken and given back. -/
theorem gated_within {R : Plane → Plane → Prop} {op : Operation α} (hacquire : ∀ p, R p (acquire p))
    (hrelease : ∀ p : Plane, R p { p with gate := false }) (h : op.steps.Within R) :
    (gated op).steps.Within R := by
  rw [gated_steps]
  refine fun p => ⟨hacquire p, ?_⟩
  dsimp only
  split
  · trivial
  · exact h.bind fun _ p => ⟨hrelease p, trivial⟩

theorem gated_still {op : Operation α} (h : op.steps.Within Inside) :
    (gated op).steps.Within Still :=
  gated_within acquire_still (fun _ => still_of_eq rfl) (h.mono fun _ _ hi => hi.still)

end Operation

theorem Command.operation_steps {c : Command} {op : Operation (Option Prepared)}
    (h : c.inside = some op) : c.operation.steps = (Operation.gated op).steps := by
  cases c <;> cases h
  · rfl
  · rfl
  · exact Operation.gated_ignore _ _

/-- Behind the gate, no command touches the gate, and all groups are kept. -/
theorem Command.inside_within {c : Command} {op : Operation (Option Prepared)}
    (h : c.inside = some op) : op.steps.Within Operation.Inside := by
  cases c <;> cases h
  · exact Operation.starting_within Operation.spans_inside _
  · exact Operation.choosing_within Operation.spans_inside _ _
  · exact Operation.ignore_within (Operation.removing_within Operation.spans_inside _ _) _

/-- **A command moves a group once at most**: all its steps keep all groups, but for one, which
moves the groups that it touches by one version. -/
theorem Command.once (c : Command) : c.operation.steps.Once Operation.Still Operation.Moving := by
  cases hinside : c.inside with
  | some op =>
    rw [operation_steps hinside]
    exact (Operation.gated_still (inside_within hinside)).once
  | none =>
    cases c with
    | edit e =>
      refine Operation.ignore_once (e.once.mono ?_ ?_) _
      · exact fun _ _ => Operation.still_of_quiet
      · exact fun _ _ => Operation.moving_of_loud
    | _ => cases hinside

end ProxyPlane
