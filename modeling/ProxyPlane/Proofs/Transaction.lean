import ProxyPlane.Store.Basic

/-!
# Reasoning about transactions

A transaction either fails, and then its changes are dropped, or it gives a result and leaves a
store behind.  What a program proves of a transaction is therefore about the second case alone.

## What is here

* `Transaction.Ensures t s P` — if `t` succeeds on `s`, its result and the store it leaves satisfy
  `P`.
* `ensures_bind` and the other `ensures_…` — what that comes to for each way of building a
  transaction.  They are `simp` lemmas: `simp` turns the text of a transaction into what has to be
  shown of the stores on its way.
-/

set_option autoImplicit false
namespace ProxyPlane
namespace Transaction

variable {α β : Type} {s : Store}

/-- If a transaction succeeds on a store, its result and the store it leaves satisfy `P`. -/
def Ensures (t : Transaction α) (s : Store) (P : α → Store → Prop) : Prop :=
  ∀ a s', t.on s = (.ok a, s') → P a s'

theorem Ensures.mono {t : Transaction α} {P Q : α → Store → Prop} (h : t.Ensures s P)
    (hPQ : ∀ a s', P a s' → Q a s') : t.Ensures s Q :=
  fun a s' hon => hPQ a s' (h a s' hon)

theorem Ensures.and {t : Transaction α} {P Q : α → Store → Prop} (h : t.Ensures s P)
    (h' : t.Ensures s Q) : t.Ensures s fun a s' => P a s' ∧ Q a s' :=
  fun a s' hon => ⟨h a s' hon, h' a s' hon⟩

/-! ## Building blocks -/

@[simp] theorem on_pure (a : α) : (pure a : Transaction α).on s = (.ok a, s) := rfl

@[simp] theorem on_throw (e : StoreError) : (throw e : Transaction α).on s = (.error e, s) := rfl

@[simp] theorem on_get : (get : Transaction Store).on s = (.ok s, s) := rfl

@[simp] theorem on_set (s' : Store) : (set s' : Transaction PUnit).on s = (.ok ⟨⟩, s') := rfl

@[simp] theorem on_modify (f : Store → Store) :
    (modify f : Transaction PUnit).on s = (.ok ⟨⟩, f s) := rfl

theorem on_bind (t : Transaction α) (f : α → Transaction β) :
    (t >>= f).on s = match t.on s with
      | (.ok a, s') => (f a).on s'
      | (.error e, s') => (.error e, s') := by
  show (ExceptT.bindCont f (t.on s).1).run (t.on s).2 = _
  rcases t.on s with ⟨e | a, s'⟩
  all_goals rfl

theorem on_map (t : Transaction α) (f : α → β) :
    (f <$> t).on s = match t.on s with
      | (.ok a, s') => (.ok (f a), s')
      | (.error e, s') => (.error e, s') := by
  have h : (f <$> t) = t >>= fun a => pure (f a) := (bind_pure_comp f t).symm
  rw [h, on_bind]
  rcases t.on s with ⟨e | a, s'⟩
  all_goals rfl

theorem on_tryCatch (t : Transaction α) (f : StoreError → Transaction α) :
    (tryCatch t f).on s = match t.on s with
      | (.ok a, s') => (.ok a, s')
      | (.error e, s') => (f e).on s' := by
  simp only [on]
  rw [ExceptT.run_tryCatch, StateT.run_bind]
  rcases (ExceptT.run t).run s with ⟨e | a, s'⟩
  all_goals rfl

@[simp] theorem ensures_pure {a : α} {P : α → Store → Prop} :
    (pure a : Transaction α).Ensures s P ↔ P a s := by
  simp [Ensures]

@[simp] theorem ensures_throw {e : StoreError} {P : α → Store → Prop} :
    (throw e : Transaction α).Ensures s P ↔ True := by
  simp [Ensures]

@[simp] theorem ensures_get {P : Store → Store → Prop} :
    (get : Transaction Store).Ensures s P ↔ P s s := by
  simp [Ensures]

@[simp] theorem ensures_set {s' : Store} {P : PUnit → Store → Prop} :
    (set s' : Transaction PUnit).Ensures s P ↔ P ⟨⟩ s' := by
  exact ⟨fun h => h _ _ rfl, fun h _ _ hon => by cases hon; exact h⟩

@[simp] theorem ensures_modify {f : Store → Store} {P : PUnit → Store → Prop} :
    (modify f : Transaction PUnit).Ensures s P ↔ P ⟨⟩ (f s) := by
  exact ⟨fun h => h _ _ rfl, fun h _ _ hon => by cases hon; exact h⟩

@[simp] theorem ensures_bind {t : Transaction α} {f : α → Transaction β} {P : β → Store → Prop} :
    (t >>= f).Ensures s P ↔ t.Ensures s fun a s' => (f a).Ensures s' P := by
  simp only [Ensures]
  rw [on_bind]
  rcases t.on s with ⟨e | a, s'⟩
  all_goals simp

@[simp] theorem ensures_map {t : Transaction α} {f : α → β} {P : β → Store → Prop} :
    (f <$> t).Ensures s P ↔ t.Ensures s fun a s' => P (f a) s' := by
  simp only [Ensures]
  rw [on_map]
  rcases t.on s with ⟨e | a, s'⟩
  all_goals simp

@[simp] theorem ensures_check {c : Except StoreError α} {P : α → Store → Prop} :
    (check c).Ensures s P ↔ ∀ a, c = .ok a → P a s := by
  cases c <;> simp [check, check.liftExcept]

@[simp] theorem ensures_require {entity : Entity} {id : Id} {row : Option α}
    {P : α → Store → Prop} : (require entity id row).Ensures s P ↔ ∀ a, row = some a → P a s := by
  cases row <;> simp [require]

@[simp] theorem ensures_ite {c : Prop} [Decidable c] {t u : Transaction α} {P : α → Store → Prop} :
    (if c then t else u).Ensures s P ↔ (c → t.Ensures s P) ∧ (¬c → u.Ensures s P) := by
  split <;> simp_all

/-- A loop keeps what each of its rounds keeps. -/
theorem ensures_forM {xs : List β} {f : β → Transaction PUnit} {P : Store → Prop} (hs : P s)
    (hf : ∀ x ∈ xs, ∀ s, P s → (f x).Ensures s fun _ s' => P s') :
    (xs.forM f).Ensures s fun _ s' => P s' := by
  induction xs generalizing s with
  | nil => exact ensures_pure.2 hs
  | cons x rest ih =>
    refine ensures_bind.2 ((hf x (.head _) s hs).mono fun _ s' hs' => ?_)
    exact ih hs' fun y hy => hf y (.tail _ hy)

/-! ## Whatever the outcome -/

/-- Whether or not a transaction succeeds on a store, the store it leaves satisfies `P`. -/
def Leaves (t : Transaction α) (s : Store) (P : Store → Prop) : Prop := P (t.on s).2

theorem Leaves.ensures {t : Transaction α} {P : Store → Prop} (h : t.Leaves s P) :
    t.Ensures s fun _ s' => P s' := by
  intro a s' hon
  rw [Leaves, hon] at h
  exact h

theorem Leaves.bind {t : Transaction α} {f : α → Transaction β} {P : Store → Prop}
    (h : t.Leaves s P) (hf : t.Ensures s fun a s' => (f a).Leaves s' P) : (t >>= f).Leaves s P := by
  rw [Leaves] at h ⊢
  rw [on_bind]
  simp only [Ensures, Leaves] at hf
  rcases hon : t.on s with ⟨e | a, s'⟩
  · rw [hon] at h
    exact h
  · exact hf _ _ hon

@[simp] theorem leaves_pure {a : α} {P : Store → Prop} :
    (pure a : Transaction α).Leaves s P ↔ P s :=
  Iff.rfl

@[simp] theorem leaves_throw {e : StoreError} {P : Store → Prop} :
    (throw e : Transaction α).Leaves s P ↔ P s :=
  Iff.rfl

@[simp] theorem leaves_get {P : Store → Prop} :
    (get : Transaction Store).Leaves s P ↔ P s :=
  Iff.rfl

@[simp] theorem leaves_set {s' : Store} {P : Store → Prop} :
    (set s' : Transaction PUnit).Leaves s P ↔ P s' :=
  Iff.rfl

@[simp] theorem leaves_check {c : Except StoreError α} {P : Store → Prop} :
    (check c).Leaves s P ↔ P s := by
  cases c <;> rfl

@[simp] theorem leaves_require {entity : Entity} {id : Id} {row : Option α} {P : Store → Prop} :
    (require entity id row).Leaves s P ↔ P s := by
  cases row <;> rfl

@[simp] theorem leaves_ite {c : Prop} [Decidable c] {t u : Transaction α} {P : Store → Prop} :
    (if c then t else u).Leaves s P ↔ (c → t.Leaves s P) ∧ (¬c → u.Leaves s P) := by
  split <;> simp_all

/-- A failure that is caught is a result like any other. -/
theorem on_caught (t : Transaction α) :
    (tryCatch (Except.ok <$> t) fun e => pure (.error e)).on s = (.ok (t.on s).1, (t.on s).2) := by
  rw [on_tryCatch, on_map]
  rcases t.on s with ⟨e | a, s'⟩
  all_goals rfl

theorem ensures_caught {t : Transaction α} {P : Except StoreError α → Store → Prop} :
    (tryCatch (Except.ok <$> t) fun e => pure (.error e)).Ensures s P ↔
    P (t.on s).1 (t.on s).2 := by
  rw [Ensures, on_caught]
  exact ⟨fun h => h _ _ rfl, fun h _ _ hon => by cases hon; exact h⟩

/-! ## The record of what runs -/

@[simp] theorem ensures_saveRunning {state : RunningState} {P : Unit → Store → Prop} :
    (saveRunning state).Ensures s P ↔ P () { s with running := state.row } :=
  ensures_modify

@[simp] theorem ensures_setRunning {on : Bool} {P : Unit → Store → Prop} :
    (setRunning on).Ensures s P ↔ P () { s with running := { s.running with running := on } } :=
  ensures_modify

end Transaction
end ProxyPlane
