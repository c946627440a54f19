import ProxyPlane.Control.Sections
import ProxyPlane.Proofs.Edits
import ProxyPlane.Proofs.Recall

/-!
# Behind the gate

What the operations on the engine come to while edits go on around them.  The engine and the record
of what runs change in different steps, so between two steps they may disagree; what is shown here
is that every way out of an operation leaves them in agreement.

## What is here

* `Plane.At snapshot P` — the engine is at rest and serves `snapshot`, and the store satisfies `P`.
* `Store.Lasting P` — edits keep `P`; what others do between two steps is no more than that.
* `Operation.submit_meets`, `launch_meets`, `mark_meets` — the parts, each with its way out when it
  fails.
* `Operation.starting_meets`, `choosing_meets`, `removing_meets` — the operations: a success leaves
  what was asked for, running and recorded, and a failure what was there before.
-/

set_option autoImplicit false
namespace ProxyPlane

open Store

/-! ## Conditions that edits keep -/

/-- A condition on stores that edits keep. -/
def Store.Lasting (P : Store → Prop) : Prop := ∀ s s', Edits MovesGroups s s' → P s → P s'

theorem Store.Lasting.and {P Q : Store → Prop} (hP : Lasting P) (hQ : Lasting Q) :
    Lasting fun s => P s ∧ Q s :=
  fun s s' he h => ⟨hP s s' he h.1, hQ s s' he h.2⟩

namespace Plane

/-- There is a store, it is valid, and it satisfies `P`. -/
def Holds (P : Store → Prop) (p : Plane) : Prop := ∃ s, p.store = some s ∧ s.Valid ∧ P s

/-- The engine is at rest and serves a snapshot, unless it has ended, and the store satisfies `P`.
-/
def At (snapshot : Snapshot) (P : Store → Prop) (p : Plane) : Prop :=
  p.worker.Serves snapshot ∧ p.Holds P

/-- An engine is being built, and the store satisfies `P`. -/
def Building (before after : Snapshot) (P : Store → Prop) (p : Plane) : Prop :=
  p.worker.Rebuilds before after ∧ p.Holds P

variable {P Q : Store → Prop} {snapshot before after : Snapshot} {p p' : Plane}

theorem Holds.mono (h : p.Holds P) (hPQ : ∀ s, s.Valid → P s → Q s) : p.Holds Q := by
  obtain ⟨s, hs, hvalid, hP⟩ := h
  exact ⟨s, hs, hvalid, hPQ s hvalid hP⟩

theorem At.mono (h : p.At snapshot P) (hPQ : ∀ s, s.Valid → P s → Q s) : p.At snapshot Q :=
  ⟨h.1, h.2.mono hPQ⟩

theorem Holds.aside (hP : Lasting P) (h : p.Holds P) (ha : Aside MovesGroups p p') :
    p'.Holds P := by
  obtain ⟨s, hs, hvalid, hs'⟩ := h
  obtain ⟨s', hstore, he⟩ := ha.store.exists hs hvalid
  exact ⟨s', hstore, he.valid, hP s s' he hs'⟩

theorem stable_at (hP : Lasting P) (snapshot : Snapshot) :
    Routine.Stable Operation.Loud (At snapshot P) :=
  fun _ _ ha h => ⟨h.1.same ha.worker, h.2.aside hP ha⟩

theorem stable_building (hP : Lasting P) (before after : Snapshot) :
    Routine.Stable Operation.Loud (Building before after P) :=
  fun _ _ ha h => ⟨h.1.same ha.worker, h.2.aside hP ha⟩

theorem At.commit {s' : Store} (h : At snapshot P p) (hvalid : s'.Valid) (hQ : Q s')
    (marked : Option Bool) : At snapshot Q (p.commit s' marked) :=
  ⟨h.1.same (p.commit_worker s' marked), s', p.commit_store s' marked, hvalid, hQ⟩

end Plane

namespace Operation
open Routine Plane Transaction

variable {α : Type} {P Q : Store → Prop} {before after snapshot : Snapshot} {p : Plane}
variable {pre : Plane → Prop} {good : α → Plane → Prop} {bad : ControlError → Plane → Prop}

/-! ## The parts -/

/-- A word to observers. -/
theorem modify_meets {f : Plane → Plane} (hf : ∀ p, Quiet p (f p)) (hpre : Stable Loud pre) :
    (modify f).steps.Meets Loud pre (Ends (fun _ => pre) bad) :=
  fun p hp => ⟨pre, hpre, hpre p _ (hf p).loosen hp, fun _ h => h⟩

/-- Counting what comes of an operation changes nothing of it. -/
theorem counted_meets {outcome : String} {dry : Bool} {op : Operation α}
    (h : op.steps.Meets Loud pre (Ends good bad)) (hgood : ∀ a, Stable Loud (good a))
    (hbad : ∀ e, Stable Loud (bad e)) :
    (counted outcome dry op).steps.Meets Loud pre (Ends good bad) := by
  refine Meets.bind h fun result => ?_
  have hstable : Stable Loud (Ends good bad result) := by
    cases result with
    | ok a => exact hgood a
    | error e => exact hbad e
  refine fun p hp => ⟨_, hstable, hstable p _ (Plane.Aside.loosen ?_) hp, fun _ h => h⟩
  cases result with
  | ok a => exact p.aside_tell (·.measure (·.countRun outcome))
  | error e => exact (p.aside_tell _).trans (Plane.aside_note _ _ _ _)

/-- What holds once the worker has begun with a reload, by what it has answered. -/
def Begun (before after : Snapshot) (P : Store → Prop) :
    Option (Except ReloadError ReloadOutcome) → Plane → Prop
  | none => Building before after P
  | some answer => Ends (fun _ _ => False) (fun _ => At before P) answer

theorem stable_begun (hP : Lasting P) (before after : Snapshot)
    (begun : Option (Except ReloadError ReloadOutcome)) :
    Stable Loud (Begun before after P begun) := by
  rcases begun with _ | _ | _
  · exact stable_building hP before after
  · exact stable_at hP before
  · exact fun _ _ _ h => h

/-- What holds once a reload has come to its end. -/
abbrev Reloaded (before after : Snapshot) (P : Store → Prop) :
    Except ReloadError ReloadOutcome → Plane → Prop :=
  Ends (fun _ => At after P) fun _ => At before P

theorem stable_reloaded (hP : Lasting P) (before after : Snapshot)
    (result : Except ReloadError ReloadOutcome) : Stable Loud (Reloaded before after P result) := by
  cases result with
  | ok _ => exact stable_at hP after
  | error _ => exact stable_at hP before

theorem reload_meets (hP : Lasting P) :
    (reload after).Meets Loud (At before P) (Reloaded before after P) := by
  refine Meets.bind (Meets.atomic (stable_begun hP before after) fun p hp => ?_) fun begun => ?_
  · rcases hrequest : p.worker.request after with ⟨answer, worker⟩
    rcases Worker.request_spec hp.1 hrequest with ⟨e, rfl, hserves⟩ | ⟨rfl, hbuilds⟩
    · exact ⟨hserves, hp.2⟩
    · exact ⟨hbuilds, hp.2⟩
  · rcases begun with _ | _ | _
    · refine Meets.atomic (stable_reloaded hP before after) fun p hp => ?_
      rcases hcomplete : p.worker.complete with ⟨result, worker⟩
      rcases Worker.complete_spec hp.1 hcomplete with ⟨_, rfl, hserves⟩ | ⟨_, rfl, hserves⟩
      · exact ⟨hserves, hp.2⟩
      · exact ⟨hserves, hp.2⟩
    · exact fun _ h => h
    · exact fun _ h => h.elim

/-- **A reload** leaves the engine with the snapshot that was asked for, or with the one before. -/
theorem submit_meets (hP : Lasting P) :
    (submit after).steps.Meets Loud (At before P)
      (Ends (fun _ => At after P) fun _ => At before P) := by
  refine Meets.bind (reload_meets hP) fun result => ?_
  cases result with
  | ok _ => exact fun _ h => h
  | error _ => exact fun _ h => h

/-- A transaction at rest, by how it ends.  One that fails changes nothing. -/
theorem transact_meets {t : Transaction (α × Closing)} (hgood : ∀ a, Stable Loud (good a))
    (hbad : ∀ e, Stable Loud (bad e))
    (hok : ∀ p s, At before P p → p.store = some s → s.Valid → P s →
      t.Ensures s fun r s' => good r.1 (r.2.close p s'))
    (herror : ∀ p s e s', At before P p → s.Valid → P s → t.on s = (.error e, s') →
      bad (.ofStore e) p) :
    (transact t).steps.Meets Loud (At before P) (Ends good bad) := by
  refine Meets.atomic (fun result => ?_) fun p hp => ?_
  · cases result with
    | ok a => exact hgood a
    | error e => exact hbad e
  · have hat := hp
    obtain ⟨-, s, hs, hvalid, hP⟩ := hp
    show Ends good bad ((transact t).steps.run p).1 ((transact t).steps.run p).2
    rcases hon : t.on s with ⟨e | ⟨a, closing⟩, s'⟩
    · rw [transact_run_error hs hon]
      exact herror p s e s' hat hvalid hP hon
    · rw [transact_run_ok hs hon]
      exact hok p s hat hs hvalid hP _ s' hon

/-- A transaction about what runs, if it is sure to succeed. -/
theorem mark_meets {t : Transaction α} {running : Bool} (hQ : Lasting Q)
    (hbad : ∀ e, Stable Loud (bad e))
    (h : ∀ s : Store, s.Valid → P s → ∃ a s', t.on s = (.ok a, s') ∧ s'.Valid ∧ Q s') :
    (mark running t).steps.Meets Loud (At snapshot P) (Ends (fun _ => At snapshot Q) bad) := by
  refine transact_meets (fun _ => stable_at hQ _) hbad (fun p s hp _ hvalid hP => ?_) ?_
  · refine ensures_map.2 fun a s' hon => ?_
    obtain ⟨a', s₁, hon', hvalid', hQ'⟩ := h s hvalid hP
    cases hon.symm.trans hon'
    exact At.commit hp hvalid' hQ' (some running)
  · intro p s e s' _ hvalid hP hon
    obtain ⟨a', s₁, hon', -⟩ := h s hvalid hP
    rw [on_map, hon'] at hon
    cases hon

/-- **A launch** compiles what the store holds and hands it over.  What was compiled is recalled
from then on, whatever is edited in the meantime. -/
theorem launch_meets (hP : Lasting P) (candidate : Option Section)
    (hcandidate : ∀ s, P s → ∀ row, candidate = some row → s.RecallsSection row.kind row) :
    (launch candidate).steps.Meets Loud (At before P)
      (Ends (fun q => At q.compiled.snapshot fun s => P s ∧ q.Recalled s)
        fun _ => At before P) := by
  have hrecalled : ∀ q : Prepared, Lasting fun s => P s ∧ q.Recalled s := fun q =>
    hP.and fun s s' he h => h.advance he.advances
  refine counted_meets ?_ (fun q => stable_at (hrecalled q) _) fun _ => stable_at hP _
  let read : Prepared → Plane → Prop := fun q => At before fun s => P s ∧ q.Recalled s
  refine Meets.andThen (?_ : Meets Loud (At before P) (Ends read _) _) fun q => ?_
  · refine Meets.atomic (fun result => ?_) fun p hp => ?_
    · cases result with
      | ok q => exact stable_at (hrecalled q) before
      | error e => exact stable_at hP before
    · obtain ⟨s, hs, hvalid, hPs⟩ := hp.2
      rw [hs]
      show Ends _ _ (s.prepare candidate) p
      cases hq : s.prepare candidate with
      | ok q => exact ⟨hp.1, s, hs, hvalid, hPs, recalled_prepare hvalid (hcandidate s hPs) hq⟩
      | error e => exact hp
  · have hforget : ∀ p, At before (fun s => P s ∧ q.Recalled s) p → At before P p :=
      fun p hp => hp.mono fun _ _ h => h.1
    refine (modify_meets (fun p => p.aside_tell _) (stable_at (hrecalled q) _)).andThen fun _ => ?_
    refine Meets.andThen ((submit_meets (hrecalled q)).imp fun result p hp => ?_)
      fun _ _ h => h
    cases result with
    | ok _ => exact hp
    | error _ => exact hforget p hp

/-- Nothing serves but the empty snapshot. -/
theorem halt_meets (hP : Lasting P) :
    halt.steps.Meets Loud (At before P) (Ends (fun _ => At .empty P) fun _ => At before P) := by
  refine Meets.andThen (?_ : Meets Loud (At before P) (Ends (fun _ => At .empty P) _) _) fun _ => ?_
  · exact counted_meets (submit_meets hP) (fun _ => stable_at hP _) fun _ => stable_at hP _
  · exact modify_meets (fun p => p.aside_note _ _ _) (stable_at hP _)

/-! ## What runs -/

/-- A snapshot runs: the record is about it, and the store recalls what it was compiled from. -/
structure Marked (q : Prepared) (s : Store) : Prop where
  running : s.running = q.record.row
  recalled : q.Recalled s

/-- Nothing is recorded to run. -/
def Unmarked (s : Store) : Prop := s.running.running = false

theorem lasting_marked (q : Prepared) : Lasting (Marked q) :=
  fun _ _ he h => ⟨he.running.trans h.running, h.recalled.advance he.advances⟩

theorem lasting_unmarked : Lasting Unmarked := fun _ _ he h => by
  rw [Unmarked]
  rw [he.running]
  exact h

/-- What an operation on the engine leaves behind when it succeeds, by what it gives. -/
def Ran : Option Prepared → Plane → Prop
  | some q => At q.compiled.snapshot (Marked q)
  | none => At .empty Unmarked

/-- What the record is about changes nothing that is recalled. -/
theorem advances_running (s : Store) (row : RunningRow) : s.Advances { s with running := row } :=
  ⟨movesSections_of_eq rfl, Int.le_refl _, fun g hg _ => ⟨g, hg, rfl, .inr ⟨rfl, rfl⟩⟩⟩

theorem valid_running {s : Store} (h : s.Valid) (row : RunningRow) :
    ({ s with running := row } : Store).Valid :=
  { h with }

/-- **To run or to stop** leaves what was asked for, or what was there before. -/
theorem starting_meets (hP : Lasting P) (dry : Bool) :
    (starting dry).steps.Meets Loud (At before P) (Ends Ran fun _ => At before P) := by
  rw [starting]
  split
  · refine (halt_meets hP).andThen fun _ => ?_
    refine Meets.andThen (mark_meets lasting_unmarked (fun _ => stable_at hP _) ?_)
      fun _ _ h => h
    exact fun s hvalid _ => ⟨(), _, rfl, valid_running hvalid _, rfl⟩
  · refine (launch_meets hP none fun _ _ _ h => by cases h).andThen fun q => ?_
    refine Meets.andThen (mark_meets (lasting_marked q) (fun _ => stable_at hP _) ?_)
      fun _ _ h => h
    exact fun s hvalid h => ⟨(), _, rfl, valid_running hvalid _, rfl, h.2.advance
      (advances_running s _)⟩

/-- There is a section with an identifier. -/
def HasSection (kind : SectionKind) (id : Id) (s : Store) : Prop :=
  ∃ row ∈ s.sectionsOf kind, row.id = id

theorem lasting_hasSection (kind : SectionKind) (id : Id) : Lasting (HasSection kind id) := by
  rintro s s' he ⟨row, hrow, rfl⟩
  obtain ⟨row', hrow', hid, -⟩ := he.kept kind row hrow
  exact ⟨row', hrow', hid⟩

/-- A section that is there can be selected together with the record. -/
theorem marked_succeeds {kind : SectionKind} {id : Id} {q : Prepared} {s : Store}
    (hvalid : s.Valid) (hthere : HasSection kind id s) (hrecalled : q.Recalled s) :
    ∃ a s', (do
      let _ ← Transaction.selectSection kind id
      saveRunning q.record : Transaction Unit).on s = (.ok a, s') ∧ s'.Valid ∧ Marked q s' := by
  obtain ⟨a, s', hon⟩ := selectSection_succeeds hthere
  obtain ⟨hchanges, -⟩ := selectSection_does s hvalid a s' hon
  refine ⟨(), { s' with running := q.record.row }, ?_, valid_running hchanges.valid _, rfl, ?_⟩
  · rw [on_bind, hon]
    rfl
  · exact (hrecalled.advance hchanges.loosen.advances).advance (advances_running s' _)

/-- **To run with a candidate** leaves the candidate selected and running, or what was there
before.  The candidate cannot be gone when it is selected, since only an operation behind the gate
removes sections. -/
theorem reselect_meets (hP : Lasting P) {row : Section} :
    (reselect row).steps.Meets Loud
      (At before fun s => P s ∧ s.RecallsSection row.kind row ∧ HasSection row.kind row.id s)
      (Ends (fun q => Ran (some q)) fun _ => At before P) := by
  have hall : Lasting fun s => P s ∧ s.RecallsSection row.kind row ∧ HasSection row.kind row.id s :=
    hP.and (Lasting.and (fun _ _ he h => h.advance he.advances) (lasting_hasSection _ _))
  have hcandidate : ∀ s, P s ∧ s.RecallsSection row.kind row ∧ HasSection row.kind row.id s →
      ∀ row', some row = some row' → s.RecallsSection row'.kind row' := by
    rintro s h _ ⟨⟩
    exact h.2.1
  refine Meets.andThen ((launch_meets hall (some row) hcandidate).ends (fun _ _ h => h) fun _ _ h =>
    h.mono fun _ _ hs => hs.1) fun q => ?_
  refine Meets.andThen (mark_meets (lasting_marked q) (fun _ => stable_at hP _) ?_)
    fun _ _ h => h
  exact fun s hvalid hs => marked_succeeds hvalid hs.1.2.2 hs.2

/-- A condition that has nothing to do with which sections there are and which are selected. -/
def Unselective (P : Store → Prop) : Prop :=
  ∀ s s', Changes KeepsGroups s s' → s'.running = s.running → P s → P s'

/-- What `choosing` leaves behind when it succeeds: the candidate runs, or what was there before
goes on. -/
def Chosen (before : Snapshot) (P : Store → Prop) : Option Prepared → Plane → Prop
  | some q => Ran (some q)
  | none => At before P

/-- What holds once a section has been looked at: it is the candidate for a reload, or selected. -/
def Looked (before : Snapshot) (P : Store → Prop) : Option Section → Plane → Prop
  | some row => At before fun s => P s ∧ s.RecallsSection row.kind row ∧
      HasSection row.kind row.id s
  | none => At before P

theorem stable_looked (hP : Lasting P) (before : Snapshot) (candidate : Option Section) :
    Stable Loud (Looked before P candidate) := by
  cases candidate with
  | none => exact stable_at hP _
  | some row =>
    exact stable_at (hP.and (Lasting.and (fun _ _ he h => h.advance he.advances)
      (lasting_hasSection _ _))) _

/-- **To select a section** leaves it running, or what was there before. -/
theorem choosing_meets (hP : Lasting P) (hselect : Unselective P) (kind : SectionKind) (id : Id) :
    (choosing kind id).steps.Meets Loud (At before P)
    (Ends (Chosen before P) fun _ => At before P) := by
  refine Meets.andThen (transact_meets (stable_looked hP before) (fun _ => stable_at hP _) ?_ ?_)
    fun candidate => ?_
  · intro p s hp hs hvalid hPs
    simp only [ensures_bind, ensures_loadSection, ensures_get]
    intro row hrow
    obtain ⟨hmem, -⟩ := Table.mem_of_find? hrow
    refine ensures_ite.2 ⟨fun _ => ensures_pure.2 ?_, fun _ => ?_⟩
    · refine ⟨hp.1, s, hs, hvalid, hPs, ?_, ?_⟩
      · rw [hvalid.kinds kind row hmem]
        exact recallsSection_self hvalid hmem
      · rw [hvalid.kinds kind row hmem]
        exact ⟨row, hmem, rfl⟩
    · refine ensures_bind.2 ((selectSection_does s hvalid).mono fun _ s' hdoes => ensures_pure.2 ?_)
      exact At.commit hp hdoes.1.valid (hselect s s' hdoes.1 hdoes.2 hPs) none
  · exact fun _ _ _ _ hp _ _ _ => hp
  · cases candidate with
    | none => exact fun _ h => h
    | some row =>
      have hstable := stable_looked hP before (some row)
      refine (modify_meets (fun p => p.aside_note _ _ _) hstable).andThen fun _ => ?_
      exact (reselect_meets hP).andThen fun q => fun _ h => h

/-- What holds once a section that is to go has been looked at: it is gone, or what runs with it has
to stop first. -/
def Doomed (before : Snapshot) (P : Store → Prop) (kind : SectionKind) (id : Id) :
    Option Nat → Plane → Prop
  | some _ => At before P
  | none => At before fun s => P s ∧ HasSection kind id s

theorem stable_doomed (hP : Lasting P) (before : Snapshot) (kind : SectionKind) (id : Id)
    (removed : Option Nat) : Stable Loud (Doomed before P kind id removed) := by
  cases removed with
  | some _ => exact stable_at hP _
  | none => exact stable_at (hP.and (lasting_hasSection _ _)) _

/-- A section that is there can be removed together with the mark. -/
theorem unmarked_succeeds {kind : SectionKind} {id : Id} {s : Store} (hvalid : s.Valid)
    (hthere : HasSection kind id s) :
    ∃ a s', (do
      setRunning false
      let _ ← Transaction.removeSection kind id
      return 1 : Transaction Nat).on s = (.ok a, s') ∧ s'.Valid ∧ Unmarked s' := by
  have hvalid' := valid_running hvalid { s.running with running := false }
  obtain ⟨row, s', hon⟩ := removeSection_succeeds
    (s := { s with running := { s.running with running := false } }) hthere
  obtain ⟨hchanges, hrunning⟩ := removeSection_does _ hvalid' row s' hon
  refine ⟨1, s', ?_, hchanges.valid, ?_⟩
  · rw [on_bind]
    show (Transaction.removeSection kind id >>= fun _ => pure 1).on _ = _
    rw [on_bind, hon]
    rfl
  · rw [Unmarked, hrunning]

/-- **To remove a section** stops what runs with it, or leaves what was there before. -/
theorem removing_meets (hP : Lasting P) (hselect : Unselective P) (kind : SectionKind) (id : Id) :
    (removing kind id).steps.Meets Loud (At before P)
      (Ends (fun _ p => At before P p ∨ Ran none p) fun _ => At before P) := by
  have hdoomed := stable_doomed hP before kind id
  refine Meets.andThen (transact_meets hdoomed (fun _ => stable_at hP _) ?_ ?_) fun removed => ?_
  · intro p s hp hs hvalid hPs
    refine ensures_bind.2 (ensures_get.2 ?_)
    split
    · exact ensures_pure.2 hp
    · next row hrow =>
      refine ensures_ite.2 ⟨fun _ => ensures_pure.2 ?_, fun _ => ?_⟩
      · exact ⟨hp.1, s, hs, hvalid, hPs, row, Table.mem_of_find? hrow⟩
      · refine ensures_bind.2 ((removeSection_does s hvalid).mono fun _ s' hdoes =>
          ensures_pure.2 ?_)
        exact At.commit hp hdoes.1.valid (hselect s s' hdoes.1 hdoes.2 hPs) none
  · exact fun _ _ _ _ hp _ _ _ => hp
  · cases removed with
    | some _ => exact fun _ h => .inl h
    | none =>
      have hthere := hP.and (lasting_hasSection kind id)
      have hforget : ∀ p, At before (fun s => P s ∧ HasSection kind id s) p → At before P p :=
        fun p hp => hp.mono fun _ _ h => h.1
      refine (modify_meets (fun p => p.aside_note _ _ _) (hdoomed none)).andThen fun _ => ?_
      refine Meets.andThen ((halt_meets hthere).ends (fun _ _ h => h) fun _ => hforget) fun _ => ?_
      refine (mark_meets lasting_unmarked (fun _ => stable_at hP _) ?_).ends (fun _ _ h => .inr h)
        fun _ _ h => h
      exact fun s hvalid hs => unmarked_succeeds hvalid hs.2

end Operation
end ProxyPlane
