import ProxyPlane.Proofs.Steady
import ProxyPlane.Proofs.Upkeep

/-!
# Operations that commit once

Most operations commit one transaction and do nothing after it that could fail, so one that fails
has committed nothing.  This is how that is said of a routine step by step, with an invariant of the
store that the steps may rely on: what comes after a commit may be bound to succeed only because of
what the store is known to hold.

## What is here

* `Routine.Keeps I r` — every step of `r` from a world with `I` leads to one.
* `Routine.Commits I quiet fate r` — of the steps of `r` from worlds with `I`, all but at most one
  are within `quiet`, and that one keeps `I` and settles how `r` ends, up to `fate`.
* `Plane.Kempt` — the store of a plane is in good order, by the rules of the house.
* `Operation.Settles good bad`, `Operation.Closes good bad` — the same for operations: what they may
  end with once they have committed.
* `Operation.transact_settles`, `change_settles`, `gated_settles` — the parts of operations.
* `Operation.Settles.failed` — an operation that never fails after its commit has changed nothing if
  it fails.
-/

set_option autoImplicit false
namespace ProxyPlane

namespace Routine

variable {σ α β ε : Type} {I : σ → Prop} {quiet : σ → σ → Prop} {fate fate' : α → σ → σ → Prop}

/-! ## Routines -/

/-- Every step from a world with `I` leads to a world with `I`. -/
def Keeps (I : σ → Prop) : Routine σ α → Prop
  | done _ => True
  | step change rest => ∀ s, I s → I (change s) ∧ (rest s).Keeps I

theorem Keeps.run {r : Routine σ α} (h : r.Keeps I) {s : σ} (hs : I s) : I (r.run s).2 := by
  induction r generalizing s with
  | done a => exact hs
  | step change rest ih =>
    obtain ⟨hchange, hrest⟩ := h s hs
    exact ih s hrest hchange

/-- From worlds with `I`, all steps are within `quiet`, but for one at most.  That one leads to a
world with `I` again; what is left after it is within `quiet` and ends in `fate`. -/
def Commits (I : σ → Prop) (quiet : σ → σ → Prop) (fate : α → σ → σ → Prop) : Routine σ α → Prop
  | done _ => True
  | step change rest => ∀ s, I s →
      (quiet s (change s) ∧ (rest s).Commits I quiet fate) ∨
      (I (change s) ∧ (rest s).Within quiet ∧ (rest s).Returns fun a => fate a s (change s))

theorem Within.commits {r : Routine σ α} (h : r.Within quiet) : r.Commits I quiet fate := by
  induction r with
  | done a => trivial
  | step change rest ih => exact fun s _ => .inl ⟨(h s).1, ih s (h s).2⟩

theorem Within.keeps {r : Routine σ α} (h : r.Within quiet)
    (hquiet : ∀ s s', quiet s s' → I s → I s') : r.Keeps I := by
  induction r with
  | done a => trivial
  | step change rest ih => exact fun s hs => ⟨hquiet _ _ (h s).1 hs, ih s (h s).2⟩

/-- What comes after a commit has to be quiet and to end as the commit has settled it. -/
theorem Commits.bind {fate' : β → σ → σ → Prop} {r : Routine σ α} {f : α → Routine σ β}
    (h : r.Commits I quiet fate) (hf : ∀ a, (f a).Commits I quiet fate')
    (hend : ∀ a s s', fate a s s' → (f a).Within quiet ∧ (f a).Returns fun b => fate' b s s') :
    (r.bind f).Commits I quiet fate' := by
  induction r with
  | done a => exact hf a
  | step change rest ih =>
    intro s hs
    obtain ⟨hquiet, hrest⟩ | ⟨hI, hwithin, hreturns⟩ := h s hs
    · exact .inl ⟨hquiet, ih s hrest⟩
    · refine .inr ⟨hI, hreturns.bindWithin hwithin fun a ha => (hend a _ _ ha).1, ?_⟩
      exact hreturns.bind fun a ha => (hend a _ _ ha).2

theorem Commits.keeps {r : Routine σ α} (h : r.Commits I quiet fate)
    (hquiet : ∀ s s', quiet s s' → I s → I s') : r.Keeps I := by
  induction r with
  | done a => trivial
  | step change rest ih =>
    intro s hs
    obtain ⟨hchange, hrest⟩ | ⟨hI, hwithin, -⟩ := h s hs
    · exact ⟨hquiet _ _ hchange hs, ih s hrest⟩
    · exact ⟨hI, hwithin.keeps hquiet⟩

/-- **A run commits once or not at all**: it is quiet in all its steps or in all but one. -/
theorem Commits.run {r : Routine σ α} (h : r.Commits I quiet fate) (hrefl : ∀ s, quiet s s)
    (htrans : ∀ a b c, quiet a b → quiet b c → quiet a c)
    (hquiet : ∀ s s', quiet s s' → I s → I s') {s : σ} (hs : I s) :
    quiet s (r.run s).2 ∨
      ∃ before after, quiet s before ∧ fate (r.run s).1 before after ∧ quiet after (r.run s).2 := by
  induction r generalizing s with
  | done a => exact .inl (hrefl s)
  | step change rest ih =>
    obtain ⟨hchange, hrest⟩ | ⟨-, hwithin, hreturns⟩ := h s hs
    · obtain hall | ⟨before, after, hbefore, hfate, hafter⟩ :=
        ih s hrest (hquiet _ _ hchange hs)
      · exact .inl (htrans _ _ _ hchange hall)
      · exact .inr ⟨before, after, htrans _ _ _ hchange hbefore, hfate, hafter⟩
    · exact .inr ⟨s, change s, hrefl s, hreturns.run _, hwithin.run hrefl htrans _⟩

end Routine

/-! ## Planes in good order -/

/-- What is asked of policies and schedules before they get to the store. -/
def Custom.house : Custom where
  policy := (· ∈ policies)
  schedule expression := ∃ schedule, readSchedule expression = .ok schedule
  initial := ⟨_, by rfl⟩

/-- The store is in good order, by the rules of the house. -/
abbrev Plane.Kempt : Plane → Prop := Plane.Holds (Store.Tidy .house)

namespace Operation
open Routine Store Transaction Plane

variable {α β : Type}

theorem kempt_of_keepsStore {p p' : Plane} (h : KeepsStore p p') : p.Kempt → p'.Kempt :=
  fun ⟨s, hs, htidy⟩ => ⟨s, h.trans hs, htidy⟩

/-! ## Operations -/

/-- How an operation may end once it has committed, from one store to another. -/
def Fate (good : α → Store → Store → Prop) (bad : ControlError → Store → Store → Prop)
    (result : Except ControlError α) (p p' : Plane) : Prop :=
  ∃ s s', p.store = some s ∧ p'.store = some s' ∧
    Ends (fun a (_ : Unit) => good a s s') (fun e _ => bad e s s') result ()

/-- An operation that commits once at most and then ends as it may. -/
abbrev Settles (good : α → Store → Store → Prop) (bad : ControlError → Store → Store → Prop)
    (op : Operation α) : Prop :=
  op.steps.Commits Kempt KeepsStore (Fate good bad)

/-- An operation that commits nothing and ends as it may. -/
structure Closes (good : α → Prop) (bad : ControlError → Prop) (op : Operation α) : Prop where
  within : op.steps.Within KeepsStore
  ends : op.steps.Returns fun result =>
    Ends (fun a (_ : Unit) => good a) (fun e _ => bad e) result ()

/-- Whatever was committed. -/
abbrev Anyway : α → Store → Store → Prop := fun _ _ _ => True

/-- Not once something was committed. -/
abbrev Never : ControlError → Store → Store → Prop := fun _ _ _ => False

section Parts
variable {op : Operation α} {f : α → Operation β} {good : α → Store → Store → Prop}
  {good' : β → Store → Store → Prop} {bad bad' : ControlError → Store → Store → Prop}

theorem closes_pure {P : α → Prop} {Q : ControlError → Prop} {a : α} (h : P a) :
    (pure a : Operation α).Closes P Q :=
  ⟨trivial, h⟩

theorem closes_modify {Q : ControlError → Prop} {f : Plane → Plane}
    (h : ∀ p, (f p).store = p.store) : (modify f).Closes (fun _ => True) Q :=
  ⟨modify_within h, fun _ => trivial⟩

theorem closes_throw {P : α → Prop} {Q : ControlError → Prop} {e : ControlError} (h : Q e) :
    (throw e : Operation α).Closes P Q :=
  ⟨trivial, h⟩

theorem Closes.andThen {P : α → Prop} {P' : β → Prop} {Q : ControlError → Prop} (h : op.Closes P Q)
    (hf : ∀ a, P a → (f a).Closes P' Q) : (op >>= f).Closes P' Q := by
  refine ⟨h.ends.bindWithin h.within fun result hr => ?_, h.ends.bind fun result hr => ?_⟩
  · cases result with
    | ok a => exact (hf a hr).within
    | error e => trivial
  · cases result with
    | ok a => exact (hf a hr).ends
    | error e => exact hr

/-- After a part that may have committed comes something that ends well if it has. -/
theorem Settles.andThen (h : op.Settles good bad) (hf : ∀ a, (f a).Settles good' bad)
    (hend : ∀ a s s', good a s s' → (f a).Closes (good' · s s') (bad · s s')) :
    (op >>= f).Settles good' bad := by
  refine Commits.bind h (fun result => ?_) fun result p p' hfate => ?_
  · cases result with
    | ok a => exact hf a
    | error e => trivial
  · obtain ⟨s, s', hs, hs', hresult⟩ := hfate
    cases result with
    | ok a =>
      obtain ⟨hwithin, hreturns⟩ := hend a s s' hresult
      exact ⟨hwithin, hreturns.mono fun _ hb => ⟨s, s', hs, hs', hb⟩⟩
    | error e => exact ⟨trivial, s, s', hs, hs', hresult⟩

theorem settles_of_within (h : op.steps.Within KeepsStore) : op.Settles good bad := h.commits

theorem Closes.settles {P : α → Prop} (h : op.Closes P fun _ => False) : op.Settles good bad :=
  settles_of_within h.within

theorem settles_andThen (h : op.steps.Within KeepsStore) (hf : ∀ a, (f a).Settles good' bad) :
    (op >>= f).Settles good' bad := by
  have hop : op.Settles (fun _ _ _ => False) bad := h.commits
  exact hop.andThen hf fun _ _ _ hfalse => hfalse.elim

theorem settles_orElse {f : ControlError → Operation α} (h : op.Settles good bad)
    (hf : ∀ e, (f e).Settles good bad')
    (hend : ∀ e s s', bad e s s' → (f e).Closes (good · s s') (bad' · s s')) :
    (tryCatch op f).Settles good bad' := by
  refine Commits.bind h (fun result => ?_) fun result p p' hfate => ?_
  · cases result with
    | ok a => trivial
    | error e => exact hf e
  · obtain ⟨s, s', hs, hs', hresult⟩ := hfate
    cases result with
    | ok a => exact ⟨trivial, s, s', hs, hs', hresult⟩
    | error e =>
      obtain ⟨hwithin, hreturns⟩ := hend e s s' hresult
      exact ⟨hwithin, hreturns.mono fun _ hb => ⟨s, s', hs, hs', hb⟩⟩

/-- Whatever is made of a result cannot fail. -/
theorem settles_return (h : op.Settles good bad) (g : α → β) :
    (do return g (← op) : Operation β).Settles Anyway bad :=
  h.andThen (fun _ => trivial) fun _ _ _ _ => closes_pure trivial

/-- A check that is passed is known to be passed. -/
theorem check_settles {c : Except ControlError α} (h : ∀ a, c = .ok a → (f a).Settles good' bad) :
    (check c >>= f).Settles good' bad := by
  cases c with
  | ok a => exact h a rfl
  | error e => trivial

end Parts

/-! ## Transactions -/

section Transactions
variable {good : α → Store → Store → Prop} {bad : ControlError → Store → Store → Prop}

/-- Nothing is asked of what is rolled back. -/
theorem ensures_rollback {s : Store} {a : α} {Q : α × Closing → Store → Prop} :
    (pure (a, .rollback) : Transaction (α × Closing)).Ensures s fun r s' =>
      ∀ marked, r.2 = .commit marked → Q r s' :=
  ensures_pure.2 nofun

theorem transact_settles {t : Transaction (α × Closing)}
    (h : ∀ s : Store, s.Valid → s.Tidy .house → t.Ensures s fun r s' =>
      ∀ marked, r.2 = .commit marked → s'.Valid ∧ s'.Tidy .house ∧ good r.1 s s') :
    (transact t).Settles good bad := by
  intro p hp
  obtain ⟨s, hs, hvalid, htidy⟩ := hp
  change (KeepsStore p ((transact t).steps.run p).2 ∧ True) ∨
    (Kempt ((transact t).steps.run p).2 ∧ True ∧
      Fate good bad ((transact t).steps.run p).1 p ((transact t).steps.run p).2)
  rcases hon : t.on s with ⟨e | ⟨a, _ | marked⟩, s'⟩
  · rw [transact_run_error hs hon]
    exact .inl ⟨rfl, trivial⟩
  · rw [transact_run_ok hs hon]
    exact .inl ⟨rfl, trivial⟩
  · rw [transact_run_ok hs hon]
    obtain ⟨hvalid', htidy', hgood⟩ := h s hvalid htidy _ s' hon marked rfl
    have hs' := p.commit_store s' marked
    exact .inr ⟨⟨s', hs', hvalid', htidy'⟩, trivial, s, s', hs, hs', hgood⟩

/-- A transaction that is committed. -/
theorem change_settles {t : Transaction α}
    (h : ∀ s : Store, s.Valid → s.Tidy .house → t.Ensures s fun a s' =>
      s'.Valid ∧ s'.Tidy .house ∧ good a s s') : (change t).Settles good bad :=
  transact_settles fun s hs htidy => ensures_map.2 ((h s hs htidy).mono fun _ _ h _ _ => h)

theorem tidies_settles {t : Transaction α} (h : t.Tidies .house) : (change t).Settles Anyway bad :=
  change_settles fun s hs htidy =>
    (h s hs htidy).mono fun _ _ hs' => ⟨hs'.valid, hs'.tidy, trivial⟩

theorem mark_settles {t : Transaction α} {running : Bool} (h : t.Tidies .house) :
    (mark running t).Settles Anyway bad :=
  transact_settles fun s hs htidy =>
    ensures_map.2 ((h s hs htidy).mono fun _ _ hs' _ _ => ⟨hs'.valid, hs'.tidy, trivial⟩)

theorem keepsStore_of_apart {p p' : Plane} (h : Apart p p') : KeepsStore p p' := h.store

/-- The gate around an operation commits nothing. -/
theorem gated_settles {op : Operation α} (h : op.Settles good bad) :
    (gated op).Settles good bad := by
  rw [Settles, gated_steps]
  refine fun p _ => .inl ⟨?_, ?_⟩
  · rw [KeepsStore, acquire]
    split <;> rfl
  · dsimp only
    split
    · trivial
    · refine Commits.bind h (fun result => (release_keepsStore result).commits) ?_
      exact fun result _ _ hfate => ⟨release_keepsStore result, fun _ => hfate⟩

end Transactions

/-! ## Failures -/

section Failures
variable {op : Operation α} {good : α → Store → Store → Prop}
  {bad : ControlError → Store → Store → Prop} {p : Plane}

theorem Settles.keeps (h : op.Settles good bad) : op.steps.Keeps Kempt :=
  Commits.keeps h fun _ _ => kempt_of_keepsStore

/-- **An operation that never fails after its commit** has changed nothing if it fails. -/
theorem Settles.failed (h : op.Settles good Never) (hp : p.Kempt) {e : ControlError}
    (hresult : (op.steps.run p).1 = .error e) : (op.steps.run p).2.store = p.store := by
  obtain hquiet | ⟨before, after, -, ⟨s, s', -, -, hend⟩, -⟩ :=
    Commits.run h (fun _ => rfl) (fun _ _ _ h h' => h'.trans h) (fun _ _ => kempt_of_keepsStore) hp
  · exact hquiet
  · rw [hresult] at hend
    exact hend.elim

end Failures

end Operation
end ProxyPlane
