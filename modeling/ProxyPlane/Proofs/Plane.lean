import ProxyPlane.Control.Run
import ProxyPlane.Proofs.Routine
import ProxyPlane.Proofs.Sections
import ProxyPlane.Proofs.Worker

/-!
# What operations do to the control plane

Every step of an operation is a transaction, a request to the worker, or a word to observers.

## What is here

* `Plane.Stored R` — the stores of two planes are related, if the first is valid.
* `Plane.Aside G` — an edit of the store, aside from the gate and the engine.
* `Operation.transact_within`, `Operation.change_quiet`, … — operations of one step, from what their
  transactions do.
-/

set_option autoImplicit false
namespace ProxyPlane

namespace Plane

variable {R Q T : Store → Store → Prop} {p p' p'' : Plane}

/-! ## Related stores -/

/-- Neither plane has a store, or the store of the second comes from that of the first by `R`, if
that is valid. -/
def Stored (R : Store → Store → Prop) (p p' : Plane) : Prop :=
  Option.Rel (fun s s' => s.Valid → R s s') p.store p'.store

theorem Stored.mono (h : Stored R p p') (hRQ : ∀ s s', s.Valid → R s s' → Q s s') :
    Stored Q p p' := by
  rw [Stored] at h ⊢
  generalize p.store = o, p'.store = o' at h ⊢
  cases h with
  | some h => exact .some fun hs => hRQ _ _ hs (h hs)
  | none => exact .none

theorem Stored.of_eq (hR : ∀ s : Store, s.Valid → R s s) (h : p'.store = p.store) :
    Stored R p p' := by
  rw [Stored]
  rw [h]
  cases p.store with
  | none => exact .none
  | some s => exact .some (hR s)

theorem Stored.trans (h : Stored R p p') (h' : Stored Q p' p'') (hvalid : ∀ s s', R s s' → s'.Valid)
    (htrans : ∀ s s' s'', R s s' → Q s' s'' → T s s'') : Stored T p p'' := by
  rw [Stored] at h h' ⊢
  generalize p.store = o, p'.store = o', p''.store = o'' at h h' ⊢
  cases h with
  | some h =>
    cases h' with
    | some h' => exact .some fun hs => htrans _ _ _ (h hs) (h' (hvalid _ _ (h hs)))
  | none =>
    cases h' with
    | none => exact .none

/-- A valid store does not go away. -/
theorem Stored.exists {s : Store} (h : Stored R p p') (hs : p.store = some s) (hvalid : s.Valid) :
    ∃ s', p'.store = some s' ∧ R s s' := by
  rw [Stored] at h
  rw [hs] at h
  generalize p'.store = o at h ⊢
  cases h with
  | some h => exact ⟨_, rfl, h hvalid⟩

/-! ## Edits aside from the engine -/

/-- A step that leaves the gate and the engine alone and edits the store. -/
structure Aside (G : Store → Store → Prop) (p p' : Plane) : Prop where
  gate : p'.gate = p.gate
  worker : p.worker.SameEngine p'.worker
  store : Stored (Store.Edits G) p p'

theorem edits_refl {s : Store} (h : s.Valid) : s.Edits Store.KeepsGroups s :=
  Store.edits_of_eq h (Store.KeepsGroups.refl s) rfl rfl

/-- A step that leaves the store alone as well. -/
theorem aside_of_eq (hgate : p'.gate = p.gate) (hworker : p.worker.SameEngine p'.worker)
    (hstore : p'.store = p.store) : Aside Store.KeepsGroups p p' :=
  ⟨hgate, hworker, .of_eq (fun _ => edits_refl) hstore⟩

theorem aside_refl (p : Plane) : Aside Store.KeepsGroups p p := aside_of_eq rfl (.refl _) rfl

theorem Aside.trans (h : Aside Store.KeepsGroups p p') (h' : Aside Store.KeepsGroups p' p'') :
    Aside Store.KeepsGroups p p'' :=
  ⟨h'.gate.trans h.gate, h.worker.trans h'.worker,
    h.store.trans h'.store (fun _ _ he => he.valid) fun _ _ _ he he' =>
    he.trans he' Store.KeepsGroups.trans⟩

theorem aside_tell (p : Plane) (f : Feed → Feed) : Aside Store.KeepsGroups p (p.tell f) :=
  aside_of_eq rfl ⟨rfl, rfl, rfl, rfl, rfl⟩ rfl

theorem aside_note (p : Plane) (level : LogLevel) (message : String)
    (fields : List (String × LogValue)) : Aside Store.KeepsGroups p (p.note level message fields) :=
  p.aside_tell _

/-- What observers see of a commit concerns neither the gate nor the engine. -/
theorem commit_spec (p : Plane) (s : Store) (marked : Option Bool) :
    (p.commit s marked).store = some s ∧ (p.commit s marked).gate = p.gate ∧
      p.worker.SameEngine (p.commit s marked).worker := by
  simp only [commit]
  cases marked <;> dsimp only <;> split <;> (try split) <;>
    exact ⟨rfl, rfl, rfl, rfl, rfl, rfl, rfl⟩

theorem commit_store (p : Plane) (s : Store) (marked : Option Bool) :
    (p.commit s marked).store = some s :=
  (p.commit_spec s marked).1

theorem commit_gate (p : Plane) (s : Store) (marked : Option Bool) :
    (p.commit s marked).gate = p.gate :=
  (p.commit_spec s marked).2.1

theorem commit_worker (p : Plane) (s : Store) (marked : Option Bool) :
    p.worker.SameEngine (p.commit s marked).worker :=
  (p.commit_spec s marked).2.2

theorem stored_commit {s s' : Store} (hs : p.store = some s) (h : s.Valid → R s s')
    (marked : Option Bool) : Stored R p (p.commit s' marked) := by
  rw [Stored]
  rw [hs, commit_store]
  exact .some h

theorem aside_commit {G : Store → Store → Prop} {s s' : Store} (hs : p.store = some s)
    (h : s.Valid → s.Edits G s') (marked : Option Bool) : Aside G p (p.commit s' marked) :=
  ⟨p.commit_gate s' marked, p.commit_worker s' marked, stored_commit hs h marked⟩

theorem Aside.loosen (h : Aside Store.KeepsGroups p p') : Aside Store.MovesGroups p p' :=
  ⟨h.gate, h.worker, h.store.mono fun _ _ _ he => he.loosen⟩

end Plane

/-! ## Operations of one step -/

/-- What a transaction makes of a plane by the way it is closed, if it leaves a store behind. -/
def Closing.close (p : Plane) (s : Store) : Closing → Plane
  | .rollback => p
  | .commit marked => p.commit s marked

namespace Operation
open Routine Store Transaction

/-- The routine that an operation is. -/
abbrev steps {α : Type} (op : Operation α) : Routine Plane (Except ControlError α) := ExceptT.run op

variable {α : Type} {R Q : Plane → Plane → Prop} {G : Store → Store → Prop}

theorem atomic_within {f : Plane → Except ControlError α × Plane} (h : ∀ p, R p (f p).2) :
    (atomic f).steps.Within R :=
  fun p => ⟨h p, trivial⟩

theorem modify_within {f : Plane → Plane} (h : ∀ p, R p (f p)) : (modify f).steps.Within R :=
  atomic_within h

theorem check_within {c : Except ControlError α} : (check c).steps.Within R := by
  cases c <;> trivial

/-- A transaction without a store. -/
theorem transact_run_none {t : Transaction (α × Closing)} {p : Plane} (hs : p.store = none) :
    (transact t).steps.run p = (.error (.store (.database "store.begin")), p) := by
  simp only [steps, transact, atomic, ExceptT.run_mk, Routine.atomic, Routine.run, hs]

/-- A transaction that fails. -/
theorem transact_run_error {t : Transaction (α × Closing)} {p : Plane} {s s' : Store}
    {e : StoreError} (hs : p.store = some s) (h : t.on s = (.error e, s')) :
    (transact t).steps.run p = (.error (.ofStore e), p) := by
  simp only [steps, transact, atomic, ExceptT.run_mk, Routine.atomic, Routine.run, hs, h]

/-- A transaction that succeeds. -/
theorem transact_run_ok {t : Transaction (α × Closing)} {p : Plane} {s s' : Store} {a : α}
    {closing : Closing} (hs : p.store = some s) (h : t.on s = (.ok (a, closing), s')) :
    (transact t).steps.run p = (.ok a, closing.close p s') := by
  simp only [steps, transact, atomic, ExceptT.run_mk, Routine.atomic, Routine.run, hs, h]
  cases closing <;> rfl

/-- Looking at a store. -/
theorem look_run (f : Store → α) {p : Plane} {s : Store} (hs : p.store = some s) :
    (look f).steps.run p = (.ok (f s), p) :=
  transact_run_ok (t := (·, .rollback) <$> f <$> get) hs rfl

/-- A transaction changes the plane as its commit does, if it ends with one, and not at all
otherwise. -/
theorem transact_step {t : Transaction (α × Closing)} {p : Plane} (hrefl : R p p)
    (hcommit : ∀ s, p.store = some s → t.Ensures s fun r s' =>
      ∀ marked, r.2 = .commit marked → R p (p.commit s' marked)) :
    R p ((transact t).steps.run p).2 := by
  rcases hs : p.store with _ | s
  · rw [transact_run_none hs]
    exact hrefl
  · rcases hon : t.on s with ⟨e | ⟨a, _ | marked⟩, s'⟩
    · rw [transact_run_error hs hon]
      exact hrefl
    · rw [transact_run_ok hs hon]
      exact hrefl
    · rw [transact_run_ok hs hon]
      exact hcommit s hs _ s' hon marked rfl

theorem transact_within {t : Transaction (α × Closing)} (hrefl : ∀ p, R p p)
    (hcommit : ∀ p s, p.store = some s → t.Ensures s fun r s' =>
      ∀ marked, r.2 = .commit marked → R p (p.commit s' marked)) :
    (transact t).steps.Within R :=
  atomic_within fun p => transact_step (hrefl p) (hcommit p)

theorem read_within (t : Transaction α) (hrefl : ∀ p, R p p) : (read t).steps.Within R := by
  refine transact_within hrefl fun p s _ => ?_
  rw [ensures_map]
  rintro a s' - _ ⟨⟩

/-- A transaction that keeps all groups keeps aside. -/
theorem transact_quiet {t : Transaction (α × Closing)} (h : t.Does (Edits KeepsGroups)) :
    (transact t).steps.Within (Plane.Aside KeepsGroups) := by
  refine transact_within Plane.aside_refl fun p s hs r s' hon _ _ => ?_
  exact Plane.aside_commit hs (fun hvalid => h s hvalid r s' hon) _

theorem change_quiet {t : Transaction α} (h : t.Does (Edits KeepsGroups)) :
    (change t).steps.Within (Plane.Aside KeepsGroups) :=
  transact_quiet fun s hs => ensures_map.2 (h s hs)

/-- A transaction that may move groups is the one step that counts. -/
theorem transact_loud {t : Transaction (α × Closing)} (h : t.Does (Edits MovesGroups)) :
    (transact t).steps.Once (Plane.Aside KeepsGroups) (Plane.Aside MovesGroups) := by
  refine fun p => .inr ⟨?_, trivial⟩
  refine transact_step (Plane.aside_refl p).loosen fun s hs r s' hon _ _ => ?_
  exact Plane.aside_commit hs (fun hvalid => h s hvalid r s' hon) _

theorem change_loud {t : Transaction α} (h : t.Does (Edits MovesGroups)) :
    (change t).steps.Once (Plane.Aside KeepsGroups) (Plane.Aside MovesGroups) :=
  transact_loud fun s hs => ensures_map.2 (h s hs)

end Operation
end ProxyPlane
