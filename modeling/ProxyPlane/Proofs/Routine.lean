import ProxyPlane.Control.Routine

/-!
# Reasoning about routines

A routine is taken step by step while others take theirs.  What can be said of it is therefore said
of its steps, each from any world, and of what is left of it after each of them.

## What is here

* `Routine.Within R r` — every step of `r` changes the world within the relation `R`.
* `Routine.Once quiet loud r` — of the steps of `r`, all but at most one are within `quiet`, and
  that one is within `loud`.
* `Routine.Returns P r` — whatever `r` finds on its way, it ends with a result in `P`.
* `Routine.Meets others pre post r` — begun where `pre` holds, `r` ends where `post` holds, as long
  as what others do between its steps is within `others`.

Each of them comes with the rules for `bind`, for operations that may fail, and for `Routine.run`.
-/

set_option autoImplicit false
namespace ProxyPlane
namespace Routine

variable {σ α β ε : Type} {R Q : σ → σ → Prop}

/-! ## One routine after another -/

theorem bind_done (r : Routine σ α) : r.bind .done = r := by
  induction r with
  | done a => rfl
  | step change rest ih => simp only [bind, ih]

theorem bind_assoc {γ : Type} (r : Routine σ α) (f : α → Routine σ β) (g : β → Routine σ γ) :
    (r.bind f).bind g = r.bind fun a => (f a).bind g := by
  induction r with
  | done a => rfl
  | step change rest ih => simp only [bind, ih]

instance : LawfulMonad (Routine σ) :=
  LawfulMonad.mk' (Routine σ) bind_done (fun _ _ => rfl) bind_assoc

theorem run_bind (r : Routine σ α) (f : α → Routine σ β) (s : σ) :
    (r.bind f).run s = (f (r.run s).1).run (r.run s).2 := by
  induction r generalizing s with
  | done a => rfl
  | step change rest ih => exact ih s (change s)

/-- The same for a routine that is written with `do`. -/
theorem run_andThen (r : Routine σ α) (f : α → Routine σ β) (s : σ) :
    (r >>= f).run s = (f (r.run s).1).run (r.run s).2 :=
  run_bind r f s

section Run
variable {m : ExceptT ε (Routine σ) α} {s s' : σ}

theorem run_andThen_ok {f : α → ExceptT ε (Routine σ) β} {a : α} (h : m.run.run s = (.ok a, s')) :
    (m >>= f).run.run s = (f a).run.run s' := by
  refine (run_bind m.run _ s).trans ?_
  rw [h]
  rfl

theorem run_andThen_error {f : α → ExceptT ε (Routine σ) β} {e : ε}
    (h : m.run.run s = (.error e, s')) : (m >>= f).run.run s = (.error e, s') := by
  refine (run_bind m.run _ s).trans ?_
  rw [h]
  rfl

theorem run_orElse_ok {f : ε → ExceptT ε (Routine σ) α} {a : α} (h : m.run.run s = (.ok a, s')) :
    (tryCatch m f).run.run s = (.ok a, s') := by
  refine (run_bind m.run _ s).trans ?_
  rw [h]
  rfl

theorem run_orElse_error {f : ε → ExceptT ε (Routine σ) α} {e : ε}
    (h : m.run.run s = (.error e, s')) : (tryCatch m f).run.run s = (f e).run.run s' := by
  refine (run_bind m.run _ s).trans ?_
  rw [h]
  rfl

end Run

/-! ## Steps within a relation -/

/-- Every step, from whatever world it is taken, changes the world within a relation. -/
def Within (R : σ → σ → Prop) : Routine σ α → Prop
  | done _ => True
  | step change rest => ∀ s, R s (change s) ∧ (rest s).Within R

theorem Within.mono {r : Routine σ α} (h : r.Within R) (hRQ : ∀ s s', R s s' → Q s s') :
    r.Within Q := by
  induction r with
  | done a => trivial
  | step change rest ih => exact fun s => ⟨hRQ _ _ (h s).1, ih s (h s).2⟩

theorem Within.bind {r : Routine σ α} {f : α → Routine σ β} (h : r.Within R)
    (hf : ∀ a, (f a).Within R) : (r.bind f).Within R := by
  induction r with
  | done a => exact hf a
  | step change rest ih => exact fun s => ⟨(h s).1, ih s (h s).2⟩

theorem Within.andThen {m : ExceptT ε (Routine σ) α} {f : α → ExceptT ε (Routine σ) β}
    (h : m.run.Within R) (hf : ∀ a, (f a).run.Within R) : (m >>= f).run.Within R := by
  refine Within.bind h fun result => ?_
  cases result with
  | ok a => exact hf a
  | error e => trivial

theorem Within.orElse {m : ExceptT ε (Routine σ) α} {f : ε → ExceptT ε (Routine σ) α}
    (h : m.run.Within R) (hf : ∀ e, (f e).run.Within R) : (tryCatch m f).run.Within R := by
  refine Within.bind h fun result => ?_
  cases result with
  | ok a => trivial
  | error e => exact hf e

/-- Whatever is kept by steps within a relation is kept by a whole run. -/
theorem Within.run {r : Routine σ α} (h : r.Within R) (hrefl : ∀ s, R s s)
    (htrans : ∀ a b c, R a b → R b c → R a c) (s : σ) : R s (r.run s).2 := by
  induction r generalizing s with
  | done a => exact hrefl s
  | step change rest ih => exact htrans _ _ _ (h s).1 (ih s (h s).2 (change s))

/-! ## At most one step that counts -/

/-- All steps but at most one are within `quiet`, and that one is within `loud`. -/
def Once (quiet loud : σ → σ → Prop) : Routine σ α → Prop
  | done _ => True
  | step change rest => ∀ s,
    (quiet s (change s) ∧ (rest s).Once quiet loud) ∨ (loud s (change s) ∧ (rest s).Within quiet)

theorem Within.once {r : Routine σ α} (h : r.Within R) : r.Once R Q := by
  induction r with
  | done a => trivial
  | step change rest ih => exact fun s => .inl ⟨(h s).1, ih s (h s).2⟩

theorem Once.mono {R' Q' : σ → σ → Prop} {r : Routine σ α} (h : r.Once R Q)
    (hR : ∀ s s', R s s' → R' s s') (hQ : ∀ s s', Q s s' → Q' s s') : r.Once R' Q' := by
  induction r with
  | done a => trivial
  | step change rest ih =>
    intro s
    rcases h s with ⟨h1, h2⟩ | ⟨h1, h2⟩
    · exact .inl ⟨hR _ _ h1, ih s h2⟩
    · exact .inr ⟨hQ _ _ h1, h2.mono hR⟩

theorem Once.bind {r : Routine σ α} {f : α → Routine σ β} (h : r.Once R Q)
    (hf : ∀ a, (f a).Within R) : (r.bind f).Once R Q := by
  induction r with
  | done a => exact (hf a).once
  | step change rest ih =>
    intro s
    rcases h s with ⟨h1, h2⟩ | ⟨h1, h2⟩
    · exact .inl ⟨h1, ih s h2⟩
    · exact .inr ⟨h1, h2.bind hf⟩

theorem Within.bindOnce {r : Routine σ α} {f : α → Routine σ β} (h : r.Within R)
    (hf : ∀ a, (f a).Once R Q) : (r.bind f).Once R Q := by
  induction r with
  | done a => exact hf a
  | step change rest ih => exact fun s => .inl ⟨(h s).1, ih s (h s).2⟩

theorem Once.andThen {m : ExceptT ε (Routine σ) α} {f : α → ExceptT ε (Routine σ) β}
    (h : m.run.Once R Q) (hf : ∀ a, (f a).run.Within R) : (m >>= f).run.Once R Q := by
  refine Once.bind h fun result => ?_
  cases result with
  | ok a => exact hf a
  | error e => trivial

theorem Within.andThenOnce {m : ExceptT ε (Routine σ) α} {f : α → ExceptT ε (Routine σ) β}
    (h : m.run.Within R) (hf : ∀ a, (f a).run.Once R Q) : (m >>= f).run.Once R Q := by
  refine Within.bindOnce h fun result => ?_
  cases result with
  | ok a => exact hf a
  | error e => trivial

theorem Once.orElse {m : ExceptT ε (Routine σ) α} {f : ε → ExceptT ε (Routine σ) α}
    (h : m.run.Once R Q) (hf : ∀ e, (f e).run.Within R) : (tryCatch m f).run.Once R Q := by
  refine Once.bind h fun result => ?_
  cases result with
  | ok a => trivial
  | error e => exact hf e

theorem Once.within {S : σ → σ → Prop} {r : Routine σ α} (h : r.Once R Q)
    (hR : ∀ s s', R s s' → S s s') (hQ : ∀ s s', Q s s' → S s s') : r.Within S := by
  induction r with
  | done a => trivial
  | step change rest ih =>
    intro s
    rcases h s with ⟨h1, h2⟩ | ⟨h1, h2⟩
    · exact ⟨hR _ _ h1, ih s h2⟩
    · exact ⟨hQ _ _ h1, h2.mono hR⟩

/-- **A run changes the world quietly, or loudly once.** -/
theorem Once.run {r : Routine σ α} (h : r.Once R Q) (hrefl : ∀ s, R s s)
    (htrans : ∀ a b c, R a b → R b c → R a c) (hquiet : ∀ s s', R s s' → Q s s')
    (hbefore : ∀ a b c, R a b → Q b c → Q a c) (hafter : ∀ a b c, Q a b → R b c → Q a c) (s : σ) :
    Q s (r.run s).2 := by
  induction r generalizing s with
  | done a => exact hquiet _ _ (hrefl s)
  | step change rest ih =>
    rcases h s with ⟨h1, h2⟩ | ⟨h1, h2⟩
    · exact hbefore _ _ _ h1 (ih s h2 (change s))
    · exact hafter _ _ _ h1 (h2.run hrefl htrans (change s))

/-! ## Results -/

/-- Whatever a routine finds on its way, it ends with a result in `P`. -/
def Returns (P : α → Prop) : Routine σ α → Prop
  | done a => P a
  | step _ rest => ∀ s, (rest s).Returns P

theorem Returns.mono {P P' : α → Prop} {r : Routine σ α} (h : r.Returns P)
    (hP : ∀ a, P a → P' a) : r.Returns P' := by
  induction r with
  | done a => exact hP a h
  | step change rest ih => exact fun s => ih s (h s)

theorem Returns.bind {P : α → Prop} {P' : β → Prop} {r : Routine σ α} {f : α → Routine σ β}
    (h : r.Returns P) (hf : ∀ a, P a → (f a).Returns P') : (r.bind f).Returns P' := by
  induction r with
  | done a => exact hf a h
  | step change rest ih => exact fun s => ih s (h s)

theorem returns_all {P : α → Prop} (r : Routine σ α) (h : ∀ a, P a) : r.Returns P := by
  induction r with
  | done a => exact h a
  | step change rest ih => exact fun s => ih s

theorem Returns.andThen {P : α → Prop} {P' : β → Prop} {m : ExceptT ε (Routine σ) α}
    {f : α → ExceptT ε (Routine σ) β} (h : m.run.Returns fun r => ∀ a, r = .ok a → P a)
    (hf : ∀ a, P a → (f a).run.Returns fun r => ∀ b, r = .ok b → P' b) :
    (m >>= f).run.Returns fun r => ∀ b, r = .ok b → P' b := by
  refine Returns.bind h fun result hr => ?_
  cases result with
  | ok a => exact hf a (hr a rfl)
  | error e => intro b hb; cases hb

/-! ## Conditions that others keep -/

/-- A condition that is kept by whatever others do. -/
def Stable (others : σ → σ → Prop) (P : σ → Prop) : Prop := ∀ s s', others s s' → P s → P s'

/-- Begun in any world with `pre`, the routine ends in a world with `post`, if what others do
between its steps is within `others`.  After each step there is a condition that others keep and
from which the rest ends well. -/
def Meets (others : σ → σ → Prop) : (σ → Prop) → (α → σ → Prop) → Routine σ α → Prop
  | pre, post, done a => ∀ s, pre s → post a s
  | pre, post, step change rest => ∀ s, pre s →
    ∃ mid, Stable others mid ∧ mid (change s) ∧ (rest s).Meets others mid post

variable {others : σ → σ → Prop} {pre pre' : σ → Prop}

theorem Meets.weaken {post : α → σ → Prop} {r : Routine σ α} (h : r.Meets others pre post)
    (hpre : ∀ s, pre' s → pre s) : r.Meets others pre' post := by
  cases r with
  | done a => exact fun s hs => h s (hpre s hs)
  | step change rest => exact fun s hs => h s (hpre s hs)

theorem Meets.imp {post post' : α → σ → Prop} {r : Routine σ α} (h : r.Meets others pre post)
    (hpost : ∀ a s, post a s → post' a s) : r.Meets others pre post' := by
  induction r generalizing pre with
  | done a => exact fun s hs => hpost a s (h s hs)
  | step change rest ih =>
    intro s hs
    obtain ⟨mid, hmid, hat, hrest⟩ := h s hs
    exact ⟨mid, hmid, hat, ih s hrest⟩

theorem Meets.bind {mid : α → σ → Prop} {post : β → σ → Prop} {r : Routine σ α}
    {f : α → Routine σ β} (h : r.Meets others pre mid)
    (hf : ∀ a, (f a).Meets others (mid a) post) : (r.bind f).Meets others pre post := by
  induction r generalizing pre with
  | done a => exact (hf a).weaken h
  | step change rest ih =>
    intro s hs
    obtain ⟨next, hnext, hat, hrest⟩ := h s hs
    exact ⟨next, hnext, hat, ih s hrest⟩

/-- The end of an operation that may fail. -/
def Ends (good : α → σ → Prop) (bad : ε → σ → Prop) : Except ε α → σ → Prop
  | .ok a => good a
  | .error e => bad e

theorem Meets.ends {good good' : α → σ → Prop} {bad bad' : ε → σ → Prop}
    {r : Routine σ (Except ε α)}
    (h : r.Meets others pre (Ends good bad)) (hgood : ∀ a s, good a s → good' a s)
    (hbad : ∀ e s, bad e s → bad' e s) : r.Meets others pre (Ends good' bad') := by
  refine h.imp fun result s hs => ?_
  cases result with
  | ok a => exact hgood a s hs
  | error e => exact hbad e s hs

theorem Meets.andThen {good : α → σ → Prop} {good' : β → σ → Prop} {bad : ε → σ → Prop}
    {m : ExceptT ε (Routine σ) α} {f : α → ExceptT ε (Routine σ) β}
    (h : m.run.Meets others pre (Ends good bad))
    (hf : ∀ a, (f a).run.Meets others (good a) (Ends good' bad)) :
    (m >>= f).run.Meets others pre (Ends good' bad) := by
  refine Meets.bind h fun result => ?_
  cases result with
  | ok a => exact hf a
  | error e => exact fun s hs => hs

/-- A step, if others keep what it leaves behind. -/
theorem Meets.atomic {f : σ → α × σ} {post : α → σ → Prop}
    (hstable : ∀ a, Stable others (post a)) (h : ∀ s, pre s → post (f s).1 (f s).2) :
    (atomic f).Meets others pre post :=
  fun s hs => ⟨post (f s).1, hstable _, h s hs, fun _ h' => h'⟩

/-- **A run with nothing in between** meets what it would meet among others. -/
theorem Meets.run {post : α → σ → Prop} {r : Routine σ α} (h : r.Meets others pre post) {s : σ}
    (hs : pre s) : post (r.run s).1 (r.run s).2 := by
  induction r generalizing pre s with
  | done a => exact h s hs
  | step change rest ih =>
    obtain ⟨mid, -, hat, hrest⟩ := h s hs
    exact ih s hrest hat

end Routine
end ProxyPlane
