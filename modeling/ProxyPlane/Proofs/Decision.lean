import ProxyPlane.Proofs.Routine

/-!
# Routines that decide in one step

A routine that may fail or succeed has a step at which that is decided: before it the routine could
still fail, and after it the routine is bound to succeed.  Between that step and the last one others
take theirs, so "it has succeeded" is a fact about what is left to do and not about a result that is
there to be seen.

## What is here

* `Routine.Decides quiet still P r` — all steps of `r` are within `quiet`, but for the one by which
  it is decided that the result is in `P`; the steps after that are within `still`.
* `Decides.bind`, `Decides.andThen`, … — the rules, as for the other ways to speak of routines.
* `Routine.OnCourse others post r s` — in the midst of a routine that meets `post`.
* `Within.meets`, `Returns.meets` — a routine whose steps keep a condition meets it, and one that
  can only end in one way meets that.
-/

set_option autoImplicit false
namespace ProxyPlane
namespace Routine

variable {σ α β ε : Type} {quiet still : σ → σ → Prop} {P : α → Prop} {P' : β → Prop}

/-! ## Results that are certain -/

theorem Returns.run {r : Routine σ α} (h : r.Returns P) (s : σ) : P (r.run s).1 := by
  induction r generalizing s with
  | done a => exact h
  | step change rest ih => exact ih s (h s) (change s)

/-- What comes after a routine of which the result is certain need only do well with that. -/
theorem Returns.bindWithin {r : Routine σ α} {f : α → Routine σ β} (h : r.Returns P)
    (hr : r.Within quiet) (hf : ∀ a, P a → (f a).Within quiet) : (r.bind f).Within quiet := by
  induction r with
  | done a => exact hf a h
  | step change rest ih => exact fun s => ⟨(hr s).1, ih s (h s) (hr s).2⟩

/-- A routine that can only end in one way meets that. -/
theorem Returns.meets {others : σ → σ → Prop} {pre : σ → Prop} {r : Routine σ α}
    (h : r.Returns P) : r.Meets others pre fun a _ => P a := by
  induction r generalizing pre with
  | done a => exact fun _ _ => h
  | step change rest ih =>
    exact fun s _ => ⟨fun _ => True, fun _ _ _ _ => trivial, trivial, ih s (h s)⟩

/-- A routine whose steps keep a condition meets it. -/
theorem Within.meets {others : σ → σ → Prop} {pre : σ → Prop} {r : Routine σ α}
    (h : r.Within quiet) (hothers : Stable others pre) (hquiet : Stable quiet pre) :
    r.Meets others pre fun _ => pre := by
  induction r with
  | done a => exact fun _ hs => hs
  | step change rest ih => exact fun s hs => ⟨pre, hothers, hquiet _ _ (h s).1 hs, ih s (h s).2⟩

/-! ## On the way -/

/-- In the midst of a routine: something holds that others keep and from which what is left ends
well. -/
def OnCourse (others : σ → σ → Prop) (post : α → σ → Prop) (r : Routine σ α) (s : σ) : Prop :=
  ∃ pre, Stable others pre ∧ pre s ∧ r.Meets others pre post

section OnCourse
variable {others : σ → σ → Prop} {post : α → σ → Prop} {change : σ → σ} {rest : σ → Routine σ α}

theorem OnCourse.step {s : σ} (h : (Routine.step change rest).OnCourse others post s) :
    (rest s).OnCourse others post (change s) := by
  obtain ⟨pre, -, hs, hmeets⟩ := h
  exact hmeets s hs

theorem OnCourse.kept {r : Routine σ α} {s s' : σ} (h : r.OnCourse others post s)
    (hs : others s s') : r.OnCourse others post s' := by
  obtain ⟨pre, hstable, hpre, hmeets⟩ := h
  exact ⟨pre, hstable, hstable s s' hs hpre, hmeets⟩

theorem OnCourse.done {a : α} {s : σ} (h : (Routine.done a).OnCourse others post s) : post a s := by
  obtain ⟨pre, -, hs, hmeets⟩ := h
  exact hmeets s hs

theorem OnCourse.run {r : Routine σ α} {s : σ} (h : r.OnCourse others post s) :
    post (r.run s).1 (r.run s).2 := by
  obtain ⟨pre, -, hs, hmeets⟩ := h
  exact hmeets.run hs

end OnCourse

/-! ## Decisions -/

/-- All steps are within `quiet`, but for one at most.  That one decides that the result is in `P`:
from another world it would have led to a result that is not, and what is left after it is within
`still` and ends in `P`. -/
def Decides (quiet still : σ → σ → Prop) (P : α → Prop) : Routine σ α → Prop
  | done _ => True
  | step change rest => ∀ s, (quiet s (change s) ∧ (rest s).Decides quiet still P) ∨
      ((rest s).Within still ∧ (rest s).Returns P ∧ ∃ s', (rest s').Returns fun a => ¬ P a)

theorem Within.decides {r : Routine σ α} (h : r.Within quiet) : r.Decides quiet still P := by
  induction r with
  | done a => trivial
  | step change rest ih => exact fun s => .inl ⟨(h s).1, ih s (h s).2⟩

theorem Within.bindDecides {r : Routine σ α} {f : α → Routine σ β} (h : r.Within quiet)
    (hf : ∀ a, (f a).Decides quiet still P') : (r.bind f).Decides quiet still P' := by
  induction r with
  | done a => exact hf a
  | step change rest ih => exact fun s => .inl ⟨(h s).1, ih s (h s).2⟩

/-- What comes after a decision has to keep to it. -/
theorem Decides.bind {r : Routine σ α} {f : α → Routine σ β} (h : r.Decides quiet still P)
    (hf : ∀ a, (f a).Decides quiet still P')
    (hgood : ∀ a, P a → (f a).Within still ∧ (f a).Returns P')
    (hbad : ∀ a, ¬ P a → (f a).Returns fun b => ¬ P' b) : (r.bind f).Decides quiet still P' := by
  induction r with
  | done a => exact hf a
  | step change rest ih =>
    intro s
    rcases h s with ⟨hquiet, hrest⟩ | ⟨hstill, hreturns, s', hreturns'⟩
    · exact .inl ⟨hquiet, ih s hrest⟩
    · refine .inr ⟨?_, hreturns.bind fun a ha => (hgood a ha).2, s', hreturns'.bind hbad⟩
      exact hreturns.bindWithin hstill fun a ha => (hgood a ha).1

theorem Within.andThenDecides {m : ExceptT ε (Routine σ) α} {f : α → ExceptT ε (Routine σ) β}
    {P' : Except ε β → Prop} (h : m.run.Within quiet)
    (hf : ∀ a, (f a).run.Decides quiet still P') : (m >>= f).run.Decides quiet still P' := by
  refine h.bindDecides fun result => ?_
  cases result with
  | ok a => exact hf a
  | error e => trivial

/-- A part that decides whether it succeeds, and then something that cannot fail. -/
theorem Decides.andThen {m : ExceptT ε (Routine σ) α} {f : α → ExceptT ε (Routine σ) β}
    {P' : Except ε β → Prop} (h : m.run.Decides quiet still fun result => ∃ a, result = .ok a)
    (hstill : ∀ s s', still s s' → quiet s s')
    (hf : ∀ a, (f a).run.Within still ∧ (f a).run.Returns P') (hbad : ∀ e, ¬ P' (.error e)) :
    (m >>= f).run.Decides quiet still P' := by
  refine Decides.bind h (fun result => ?_) (fun result hok => ?_) fun result hfailed => ?_
  · cases result with
    | ok a => exact ((hf a).1.mono hstill).decides
    | error e => trivial
  · obtain ⟨a, rfl⟩ := hok
    exact hf a
  · cases result with
    | ok a => exact absurd ⟨a, rfl⟩ hfailed
    | error e => exact hbad e

/-- A step either is quiet or decides what was not certain before. -/
theorem Decides.step {change : σ → σ} {rest : σ → Routine σ α}
    (h : (Routine.step change rest).Decides quiet still P) (s : σ) :
    (quiet s (change s) ∧ (rest s).Decides quiet still P) ∨
      ((rest s).Within still ∧ (rest s).Returns P ∧
        ¬ (Routine.step change rest).Returns P) := by
  refine (h s).imp_right fun ⟨hstill, hreturns, s', hreturns'⟩ => ⟨hstill, hreturns, fun hall => ?_⟩
  exact (hreturns'.run s) ((hall s').run s)

end Routine
end ProxyPlane
