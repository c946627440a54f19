import Mathlib.Data.List.Nodup
import ProxyPlane.Engine.Workshop

/-!
# The ledger of the workshop

A workshop knows which engines it has built, and its journal says which of them were closed.  Every
act on an engine is an entry in this ledger or none at all, so that an account of the engines that
are still open can be kept act by act.

## What is here

* `Ledger`, `Workshop.ledger` — the numbers that were given out, and the engines built and closed.
* `Workshop.ledger_start`, `ledger_serve`, `ledger_close`, … — what each act enters.
* `Ledger.Balanced l current` — every engine built is closed or in `current`, and none is counted
  twice; `Balanced.issue`, `build` and `close` keep the balance.
* `Ledger.Balanced.count_closed` — in a balanced ledger an engine is closed once or, while it is
  current, never.
-/

set_option autoImplicit false
namespace ProxyPlane

/-- The account of the engines of a workshop, by their numbers. -/
structure Ledger where
  /-- How many numbers were given out. -/
  issued : Nat
  built : List Nat
  closed : List Nat

namespace Ledger

/-- Another number is given out. -/
def issue (l : Ledger) : Ledger := { l with issued := l.issued + 1 }

/-- An engine is built. -/
def build (l : Ledger) (n : Nat) : Ledger := { l with built := l.built ++ [n] }

/-- An engine is closed. -/
def close (l : Ledger) (n : Nat) : Ledger := { l with closed := l.closed ++ [n] }

/-! ## Balance -/

/-- A number that was given out, to which no engine was built so far. -/
structure Fresh (l : Ledger) (n : Nat) : Prop where
  issued : n ≤ l.issued
  unbuilt : n ∉ l.built

/-- The ledger is balanced: the engines that were built are those that were closed and the current
ones, each of them once. -/
structure Balanced (l : Ledger) (current : List Nat) : Prop where
  issued : ∀ n ∈ l.built, n ≤ l.issued
  distinct : l.built.Nodup
  balance : l.built.Perm (l.closed ++ current)

variable {l : Ledger} {current : List Nat} {n : Nat}

theorem Balanced.issue (h : l.Balanced current) : l.issue.Balanced current :=
  ⟨fun m hm => Nat.le_succ_of_le (h.issued m hm), h.distinct, h.balance⟩

/-- The number given out last was not given out before. -/
theorem Balanced.fresh_issue (h : l.Balanced current) : l.issue.Fresh (l.issued + 1) :=
  ⟨Nat.le_refl _, fun hmem => absurd (h.issued _ hmem) (by omega)⟩

theorem Balanced.build (h : l.Balanced current) (hn : l.Fresh n) :
    (l.build n).Balanced (current ++ [n]) := by
  refine ⟨fun m hm => ?_, ?_, ?_⟩
  · rcases List.mem_append.1 hm with hm | hm
    · exact h.issued m hm
    · rw [List.mem_singleton.1 hm]
      exact hn.issued
  · exact h.distinct.append (List.nodup_singleton n) (List.disjoint_singleton.2 hn.unbuilt)
  · have hbalance := h.balance.append_right [n]
    rwa [List.append_assoc] at hbalance

theorem Balanced.close (h : l.Balanced (n :: current)) : (l.close n).Balanced current := by
  refine ⟨h.issued, h.distinct, h.balance.trans ?_⟩
  simp [Ledger.close]

theorem Balanced.mem_built (h : l.Balanced current) (hn : n ∈ current) : n ∈ l.built :=
  h.balance.mem_iff.2 (List.mem_append_right _ hn)

/-- **Nothing is closed twice and nothing is forgotten.** What was built and is not current any more
was closed once; nothing else was closed. -/
theorem Balanced.count_closed (h : l.Balanced current) (n : Nat) :
    l.closed.count n = if n ∈ l.built ∧ n ∉ current then 1 else 0 := by
  have hsum : l.built.count n = l.closed.count n + current.count n := by
    rw [h.balance.count_eq, List.count_append]
  have hdistinct : current.Nodup := (h.balance.nodup_iff.1 h.distinct).of_append_right
  rw [h.distinct.count, hdistinct.count] at hsum
  by_cases hcurrent : n ∈ current
  · rw [if_pos (h.mem_built hcurrent), if_pos hcurrent] at hsum
    rw [if_neg fun hn => hn.2 hcurrent]
    omega
  · rw [if_neg hcurrent] at hsum
    rw [if_congr (and_iff_left hcurrent) rfl rfl]
    exact hsum.symm

end Ledger

/-! ## What the acts enter -/

/-- The engine that an act closes, if it does. -/
def Act.closed? : Act → Option Nat
  | .close n => some n
  | _ => none

namespace Workshop

/-- The ledger of a workshop. -/
def ledger (w : Workshop) : Ledger :=
  ⟨w.attempts, w.built.map Prod.fst, w.journal.filterMap Act.closed?⟩

variable (w : Workshop) (e : Engine)

theorem ledger_log (act : Act) (h : act.closed? = none) : (w.log act).ledger = w.ledger := by
  simp [ledger, log, h]

@[simp] theorem ledger_fresh (armed : Armed) (occupied : Option String) :
    (fresh armed occupied).ledger = ⟨0, [], []⟩ := rfl

@[simp] theorem ledger_start (resources : Option Nat) (cache : Option DnsCache)
    (snapshot : Snapshot) : (w.start resources cache snapshot).2.ledger = w.ledger.issue :=
  ledger_log _ _ rfl

/-- Building gives the number that was given out for it to an engine for the snapshot, or fails and
builds nothing. -/
theorem finish_cases (n : Nat) (cache : Option DnsCache) (snapshot : Snapshot) :
    (∃ fault shop, w.finish n cache snapshot = (.error fault, shop) ∧ shop.ledger = w.ledger ∧
      shop.greets = w.greets) ∨
    (∃ shop, w.finish n cache snapshot = (.ok ⟨n, snapshot, some 0, w.known n cache⟩, shop) ∧
      shop.ledger = w.ledger.build n ∧ shop.greets = w.greets) := by
  rw [finish]
  split
  · exact .inl ⟨_, _, rfl, rfl, rfl⟩
  · dsimp only
    split
    · exact .inr ⟨_, rfl, by simp [ledger, Ledger.build], rfl⟩
    · exact .inl ⟨_, _, rfl, rfl, rfl⟩

@[simp] theorem ledger_listen (port : Nat) : (w.listen e port).2.ledger = w.ledger := by
  have hlog := w.ledger_log (.listen e.number port) rfl
  rw [listen]
  split
  · exact hlog
  · split <;> exact hlog

@[simp] theorem ledger_serve : (w.serve e).2.ledger = w.ledger := by
  have hlog := w.ledger_log (.serve e.number) rfl
  rw [serve]
  split
  · exact hlog
  · split <;> exact hlog

@[simp] theorem ledger_eject : (w.eject e).2.ledger = w.ledger := ledger_log _ _ rfl

@[simp] theorem ledger_inject (generation : Nat) : (w.inject e generation).2.ledger = w.ledger :=
  ledger_log _ _ rfl

@[simp] theorem ledger_close : (w.close e).ledger = w.ledger.close e.number := by
  simp [ledger, close, log, Ledger.close, Act.closed?]

/-! Whether engines greet is not in the ledger, and stays as it is. -/

@[simp] theorem greets_listen (port : Nat) : (w.listen e port).2.greets = w.greets := by
  rw [listen]
  split
  · rfl
  · split <;> rfl

@[simp] theorem greets_serve : (w.serve e).2.greets = w.greets := by
  rw [serve]
  split
  · rfl
  · split <;> rfl

variable {w} in
theorem known_congr {w' : Workshop} (h : w'.greets = w.greets) (n : Nat) (cache : Option DnsCache) :
    w'.known n cache = w.known n cache := by
  rw [known, known, h]

/-- The ledger counts how often the journal says that an engine was closed. -/
theorem count_journal_close (n : Nat) : w.journal.count (.close n) = w.ledger.closed.count n := by
  rw [ledger, List.count, List.count, List.countP_filterMap]
  refine List.countP_congr fun act _ => ?_
  cases act <;> simp [Act.closed?]

end Workshop
end ProxyPlane
