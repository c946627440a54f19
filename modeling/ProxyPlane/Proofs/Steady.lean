import ProxyPlane.Proofs.Decision
import ProxyPlane.Proofs.Drift
import ProxyPlane.Proofs.Versions

/-!
# What a step does to the selection

All steps keep the invariant of the selection and let no drift go away, except those by which
something is recorded to run.  Such a step is the one that decides that its operation succeeds.

## What is here

* `Store.Steady` — what all transactions do but those that record what runs.
* `Operation.Calm` — a step without the gate, which spares the store.
* `Operation.Launched` — the result of an operation that has run something.
* `Operation.starting_decides`, `choosing_decides`, `removing_steady` — the operations behind the
  gate: all their steps are steady, but for the one that decides that something has been run.
* `Edit.calm`, `Operation.markStopped_calm` — the operations that do without the gate.
* `Operation.Offered.decides` — all that the control plane offers.
-/

set_option autoImplicit false
namespace ProxyPlane

open Store Routine

/-! ## Steady transactions -/

/-- A transaction that keeps the invariant of the selection and lets no drift go away. -/
structure Store.Steady (s s' : Store) : Prop where
  valid : s'.Valid
  coherent : s.Coherent → s'.Coherent
  drift : s.Coherent → s.drift.isSome → s'.drift.isSome

namespace Store

variable {s s' : Store} {kind : SectionKind} {id : Id}

theorem steady_of_spares (hvalid : s.Valid) (h : s.Spares s') : s.Steady s' where
  valid := h.valid
  coherent hs := hs.spares h
  drift hs := hs.drift_sustained hvalid h.advances h.selection.chosen h.running

theorem steady_refl (h : s.Valid) : s.Steady s := ⟨h, fun hs => hs, fun _ hdrift => hdrift⟩

/-- A transaction that ends with nothing running. -/
theorem steady_of_stopped (hvalid : s'.Valid) (hsingle : s.Single → s'.Single)
    (hstopped : s'.running.running = false) : s.Steady s' where
  valid := hvalid
  coherent hs := coherent_of_stopped (hsingle hs.single) hstopped
  drift _ _ := by rw [drift_of_stopped hstopped]; rfl

/-- To select a section is steady, unless it would replace one that runs. -/
theorem steady_selecting (hvalid : (s.selecting kind id).Valid) (hs : s.Valid)
    (h : ¬ (s.running.running && (s.selected? kind).any (·.id != id)) = true) :
    s.Steady (s.selecting kind id) := by
  cases hrunning : s.running.running with
  | false => exact steady_of_stopped hvalid single_selecting hrunning
  | true =>
    -- what is selected already is selected again
    have hsame (hcoherent : s.Coherent) : s.selecting kind id = s := by
      obtain ⟨q, hq⟩ := hcoherent.running hrunning
      obtain ⟨row, hrow, -, hselected⟩ := hq.selects kind
      have hid : row.id = id := by
        simpa [hrunning, hcoherent.single.selected?_eq hs hrow hselected] using h
      rw [← hid]
      exact selecting_eq_self hcoherent.single hs hrow hselected
    refine ⟨hvalid, fun hcoherent => ?_, fun hcoherent hdrift => ?_⟩
    · rwa [hsame hcoherent]
    · rwa [hsame hcoherent]

/-- To remove a section is steady, unless it is one that runs. -/
theorem steady_without {row : Section} (hs : s.Valid)
    (hchanges : Changes KeepsGroups s (s.without kind id))
    (hrow : (s.sections.get kind).find? id = some row)
    (h : ¬ (row.selected && s.running.running) = true) : s.Steady (s.without kind id) := by
  obtain ⟨hrow, hid⟩ := Table.mem_of_find? hrow
  have ha := hchanges.loosen.advances
  cases hrunning : s.running.running with
  | false => exact steady_of_stopped hchanges.valid selectsNoMore_without.single hrunning
  | true =>
    have hselected : row.selected = false := by simpa [hrunning] using h
    exact ⟨hchanges.valid, fun hcoherent => coherent_without hcoherent hs ha hrow hid hselected,
      fun hcoherent => hcoherent.drift_sustained hs ha selectsNoMore_without (.inl rfl)⟩

end Store

namespace Operation
open Transaction

variable {α : Type}

/-! ## Steady steps -/

/-- A step that keeps the invariant of the selection and lets no drift go away. -/
abbrev Steady : Plane → Plane → Prop := Plane.Stored Store.Steady

/-- A step without the gate. -/
structure Calm (p p' : Plane) : Prop where
  gate : p'.gate = p.gate
  store : Plane.Stored Spares p p'

/-- A step that leaves the store alone. -/
def KeepsStore (p p' : Plane) : Prop := p'.store = p.store

theorem steady_of_keepsStore {p p' : Plane} (h : KeepsStore p p') : Steady p p' :=
  .of_eq (fun _ => steady_refl) h

theorem steady_of_apart {p p' : Plane} (h : Apart p p') : Steady p p' :=
  steady_of_keepsStore h.store

theorem steady_of_calm {p p' : Plane} (h : Calm p p') : Steady p p' :=
  h.store.mono fun _ _ => steady_of_spares

theorem calm_of_apart {p p' : Plane} (h : Apart p p') : Calm p p' :=
  ⟨h.gate, .of_eq (fun _ => spares_refl) h.store⟩

theorem calm_of_loud {p p' : Plane} (h : Loud p p') : Calm p p' :=
  ⟨h.gate, h.store.mono fun _ _ _ => spares_of_edits⟩

theorem transact_steady {t : Transaction (α × Closing)}
    (h : ∀ s, s.Valid → t.Ensures s fun r s' => ∀ marked, r.2 = .commit marked → s.Steady s') :
    (transact t).steps.Within Steady := by
  refine transact_within (fun _ => steady_of_apart ⟨rfl, rfl⟩) fun p s hs r s' hon marked hr => ?_
  exact Plane.stored_commit hs (fun hvalid => h s hvalid r s' hon marked hr) marked

theorem mark_steady {t : Transaction α} {running : Bool} (h : t.Does Store.Steady) :
    (mark running t).steps.Within Steady :=
  transact_steady fun s hs => ensures_map.2 ((h s hs).mono fun _ _ hsteady _ _ => hsteady)

/-- A transaction decides whether it succeeds: it could find no store. -/
theorem transact_decides {t : Transaction (α × Closing)} :
    (transact t).steps.Decides Steady KeepsStore fun result => ∃ a, result = .ok a := by
  intro p
  change (Steady p ((transact t).steps.run p).2 ∧ True) ∨ (True ∧
    (∃ a, ((transact t).steps.run p).1 = .ok a) ∧
      ∃ p', ¬ ∃ a, ((transact t).steps.run p').1 = .ok a)
  rcases hresult : (transact t).steps.run p with ⟨e | a, p'⟩
  · refine .inl ⟨?_, trivial⟩
    have hsame : p' = p := by
      rcases hs : p.store with _ | s
      · rw [transact_run_none hs] at hresult
        exact (Prod.mk.inj hresult).2.symm
      · rcases hon : t.on s with ⟨e | ⟨a, closing⟩, s'⟩
        · rw [transact_run_error hs hon] at hresult
          exact (Prod.mk.inj hresult).2.symm
        · rw [transact_run_ok hs hon] at hresult
          cases hresult
    rw [hsame]
    exact steady_of_apart ⟨rfl, rfl⟩
  · refine .inr ⟨trivial, ⟨a, rfl⟩, { p with store := none }, ?_⟩
    rintro ⟨a', ha'⟩
    rw [transact_run_none rfl] at ha'
    cases ha'

/-! ## Operations behind the gate -/

/-- An operation has run something. -/
def Launched (result : Except ControlError (Option Prepared)) : Prop := ∃ q, result = .ok (some q)

theorem not_launched_error (e : ControlError) : ¬ Launched (.error e) := fun ⟨_, h⟩ => by cases h

theorem not_launched_none : ¬ Launched (.ok none) := fun ⟨_, h⟩ => by cases h

theorem halt_steady : halt.steps.Within Steady := halt_apart.mono fun _ _ => steady_of_apart

theorem starting_decides (dry : Bool) :
    (starting dry).steps.Decides Steady KeepsStore Launched := by
  rw [starting]
  split
  · refine Within.decides (halt_steady.andThen fun _ => ?_)
    refine Within.andThen (mark_steady fun s hs => ?_) fun _ => trivial
    exact ensures_setRunning.2 (steady_of_spares hs (spares_stopped hs))
  · refine Within.andThenDecides ((launch_apart none).mono fun _ _ => steady_of_apart) fun q => ?_
    refine Decides.andThen transact_decides (fun _ _ => steady_of_keepsStore) (fun _ => ?_)
      not_launched_error
    exact ⟨trivial, q, rfl⟩

/-- To run with a candidate: the last step decides. -/
theorem reselect_decides (row : Section) :
    (reselect row).steps.Decides Steady KeepsStore fun result => ∃ q, result = .ok q := by
  refine Within.andThenDecides ((launch_apart _).mono fun _ _ => steady_of_apart) fun q => ?_
  refine Decides.andThen transact_decides (fun _ _ => steady_of_keepsStore) (fun _ => ?_) ?_
  · exact ⟨trivial, q, rfl⟩
  · rintro e ⟨_, ⟨⟩⟩

theorem choosing_decides (kind : SectionKind) (id : Id) :
    (choosing kind id).steps.Decides Steady KeepsStore Launched := by
  refine Within.andThenDecides (transact_steady fun s hs => ?_) fun candidate => ?_
  · simp only [ensures_bind, ensures_loadSection, ensures_get]
    refine fun row _ => ensures_ite.2 ⟨fun _ => ?_, fun hkeeps => ?_⟩
    · exact ensures_pure.2 fun _ h => by cases h
    · refine ensures_bind.2 ((selectSection_selects hs).mono fun _ s' hselects => ?_)
      obtain ⟨rfl, -, hchanges⟩ := hselects
      exact ensures_pure.2 fun _ _ => steady_selecting hchanges.valid hs hkeeps
  · cases candidate with
    | none => trivial
    | some row =>
      refine Within.andThenDecides ((tell_apart _).mono fun _ _ => steady_of_apart) fun _ => ?_
      refine Decides.andThen (reselect_decides row) (fun _ _ => steady_of_keepsStore) (fun q => ?_)
        not_launched_error
      exact ⟨trivial, q, rfl⟩

theorem removing_steady (kind : SectionKind) (id : Id) :
    (removing kind id).steps.Within Steady := by
  refine Within.andThen (transact_steady fun s hs => ?_) fun removed => ?_
  · refine ensures_bind.2 (ensures_get.2 ?_)
    split
    · exact ensures_pure.2 fun _ h => by cases h
    · next row hrow =>
      refine ensures_ite.2 ⟨fun _ => ensures_pure.2 fun _ h => (by cases h), fun hkeeps => ?_⟩
      refine ensures_bind.2 ((removeSection_removes hs).mono fun _ s' hremoves => ?_)
      obtain ⟨rfl, hchanges⟩ := hremoves
      exact ensures_pure.2 fun _ _ => steady_without hs hchanges hrow hkeeps
  · cases removed with
    | some _ => trivial
    | none =>
      refine ((tell_apart _).mono fun _ _ => steady_of_apart).andThen fun _ => ?_
      refine halt_steady.andThen fun _ => mark_steady fun s hs => ?_
      refine ensures_bind.2 (ensures_setRunning.2 (ensures_bind.2 ?_))
      have hvalid' := valid_running hs { s.running with running := false }
      refine (removeSection_removes hvalid').mono fun _ s' hremoves => ensures_pure.2 ?_
      obtain ⟨rfl, hchanges⟩ := hremoves
      exact steady_of_stopped hchanges.valid
        (fun hsingle => selectsNoMore_without.single hsingle) rfl

/-! ## Operations without the gate -/

theorem markStopped_calm : markStopped.steps.Within Calm := by
  rw [markStopped, mark]
  refine transact_within (fun _ => calm_of_apart ⟨rfl, rfl⟩) fun p s hs => ?_
  refine ensures_map.2 (ensures_setRunning.2 fun marked _ => ?_)
  exact ⟨p.commit_gate _ _, Plane.stored_commit hs spares_stopped _⟩

/-! ## All operations -/

theorem release_keepsStore (result : Except ControlError α) :
    (release result).Within KeepsStore :=
  fun _ => ⟨rfl, trivial⟩

/-- The gate around an operation decides nothing. -/
theorem gated_decides {op : Operation (Option Prepared)}
    (h : op.steps.Decides Steady KeepsStore Launched) :
    (gated op).steps.Decides Steady KeepsStore Launched := by
  rw [gated_steps]
  refine fun p => .inl ⟨steady_of_keepsStore ?_, ?_⟩
  · rw [KeepsStore, acquire]
    split <;> rfl
  · dsimp only
    split
    · trivial
    · refine h.bind (fun result => ?_) (fun result hok => ?_) fun result hfailed => ?_
      · exact ((release_keepsStore result).mono fun _ _ => steady_of_keepsStore).decides
      · exact ⟨release_keepsStore result, fun _ => hok⟩
      · exact fun _ => hfailed

end Operation

theorem Edit.calm (e : Edit) : e.operation.steps.Within Operation.Calm :=
  e.once.within (fun _ _ h => Operation.calm_of_loud h.loosen) fun _ _ => Operation.calm_of_loud

/-- A command behind the gate decides by one step whether it runs something. -/
theorem Command.inside_decides {c : Command} {op : Operation (Option Prepared)}
    (h : c.inside = some op) :
    op.steps.Decides Operation.Steady Operation.KeepsStore Operation.Launched := by
  cases c <;> cases h
  · exact Operation.starting_decides _
  · exact Operation.choosing_decides _ _
  · exact (Operation.ignore_within (Operation.removing_steady _ _) _).decides

namespace Operation

/-- To take up what ran before decides by one step whether that runs. -/
theorem resume_decides : resume.steps.Decides Steady KeepsStore Launched := by
  have hnote (level : LogLevel) (message : String) :
      (modify (·.note level message [])).steps.Within Steady :=
    modify_within fun _ => steady_of_keepsStore rfl
  have hstop : markStopped.steps.Within Steady := markStopped_calm.mono fun _ _ => steady_of_calm
  refine Within.andThenDecides (read_within _ fun _ => steady_of_keepsStore rfl) fun found => ?_
  obtain ⟨running, configured⟩ := found
  dsimp only
  split
  · split
    · refine Within.andThenDecides (hnote _ _) fun _ => ?_
      refine (gated_decides (starting_decides false)).bind (fun result => ?_) (fun result hok => ?_)
        fun result hfailed => ?_
      · cases result with
        | ok _ => trivial
        | error e =>
          refine Within.decides ?_
          exact hstop.andThen fun _ => trivial
      · obtain ⟨q, rfl⟩ := hok
        exact ⟨trivial, q, rfl⟩
      · cases result with
        | ok _ => exact hfailed
        | error e =>
          refine Returns.bind (returns_all (P := fun _ => True) markStopped.steps fun _ => trivial)
            fun r _ => ?_
          cases r <;> exact not_launched_error _
    · refine Within.decides (Within.andThen (hnote _ _) fun _ => ?_)
      exact hstop.andThen fun _ => trivial
  · trivial

/-- **Every operation decides by one step whether it runs something**, and all its other steps are
steady. -/
theorem Offered.decides {op : Operation (Option Prepared)} (h : op.Offered) :
    op.steps.Decides Steady KeepsStore Launched := by
  cases h with
  | resume => exact resume_decides
  | command c =>
    cases hinside : c.inside with
    | some op =>
      rw [Command.operation_steps hinside]
      exact gated_decides (Command.inside_decides hinside)
    | none =>
      cases c with
      | edit e =>
        exact (ignore_within (e.calm.mono fun _ _ => steady_of_calm) _).decides
      | _ => cases hinside

end Operation
end ProxyPlane
