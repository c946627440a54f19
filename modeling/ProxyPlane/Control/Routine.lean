/-!
# Routines

A routine changes a world step by step.  Each of its steps is atomic; between two of them other
routines may take theirs, so what is left to do may depend on the world only as a step saw it.

## Main definitions

* `Routine` — a finished routine, or a step and what is left to do after it.
* `Routine.atomic` — a routine of one step.
* `Routine.run` — takes all steps at once.
* `Routine.advance` — takes steps up to a world in which the routine is to wait.
-/

set_option autoImplicit false
namespace ProxyPlane

/-- A routine in a world of type `σ` with a result of type `α`.  A step changes the world, and what is
left depends on the world before the step. -/
inductive Routine (σ α : Type) : Type
  | done (a : α)
  | step (change : σ → σ) (rest : σ → Routine σ α)

namespace Routine
variable {σ α β : Type}

/-- One routine after another. -/
def bind : Routine σ α → (α → Routine σ β) → Routine σ β
  | done a, f => f a
  | step change rest, f => step change fun s => (rest s).bind f

instance : Monad (Routine σ) where
  pure := done
  bind := bind

/-- A routine of one step. -/
def atomic (f : σ → α × σ) : Routine σ α := step (fun s => (f s).2) fun s => done (f s).1

/-- Takes all steps, with nothing in between. -/
def run : Routine σ α → σ → α × σ
  | done a, s => (a, s)
  | step change rest, s => (rest s).run (change s)

/-- Takes steps until the routine is done or the world tells it to wait. -/
def advance (wait : σ → Bool) : Routine σ α → σ → Routine σ α × σ
  | done a, s => (done a, s)
  | step change rest, s =>
    let after := change s
    if wait after then (rest s, after) else (rest s).advance wait after

/-- The result of a routine that is done. -/
def result? : Routine σ α → Option α
  | done a => some a
  | step _ _ => none

end Routine
end ProxyPlane
