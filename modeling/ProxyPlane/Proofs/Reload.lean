import ProxyPlane.Proofs.Agreement
import ProxyPlane.Proofs.Record

/-!
# No edit is lost during a reload

A reload reads the store at one time and records what it has read at another, and edits go on in the
meantime.  The record is about the versions that were read, so an edit in between shows as drift.

## What is here

* `Routine.Reads P n r` — after `n` steps, `r` has read everything that its result depends on.
* `Part`, `Command.readTurn` — the parts of what is compiled, and at which step a command reads
  them.
* `Prepared.Touched` — an edit of what was compiled.
* `Traffic.Reachable.edit_reported` — an edit of something that a command has read is reported as
  drift when the command returns.
-/

set_option autoImplicit false
namespace ProxyPlane

/-! ## Reading -/

namespace Routine

variable {σ α β ε : Type} {sound : σ → Prop} {P : σ → α → Prop} {n : Nat} {s : σ}

/-- After `n` steps a routine has read what its result depends on: from then on, whatever it finds,
it ends with a result that `P` allows in the world as it was then.  A result before that is allowed
in every world. -/
def Reads (sound : σ → Prop) (P : σ → α → Prop) : Nat → Routine σ α → σ → Prop
  | 0, r, s => r.Returns (P s)
  | _ + 1, .done a, _ => ∀ s, P s a
  | n + 1, .step change rest, _ => ∀ s, sound s → (rest s).Reads sound P n (change s)

/-- A result that is allowed in every world needs no reading. -/
theorem reads_of_returns {r : Routine σ α} (h : ∀ s, r.Returns (P s)) (n : Nat) (s : σ) :
    r.Reads sound P n s := by
  induction n generalizing r s with
  | zero => exact h s
  | succ n ih =>
    cases r with
    | done a => exact h
    | step change rest => exact fun s _ => ih (fun s' => h s' s) (change s)

/-- What has been read stays read, if what others do keeps what is allowed. -/
theorem Reads.others {r : Routine σ α} {s' : σ} (h : r.Reads sound P n s)
    (hP : ∀ a, P s a → P s' a) : r.Reads sound P n s' := by
  cases n with
  | zero => exact Returns.mono h hP
  | succ n => cases r <;> exact h

/-- One step. -/
theorem Reads.step {change : σ → σ} {rest : σ → Routine σ α}
    (h : (Routine.step change rest).Reads sound P n s)
    (hs : sound s) (hP : ∀ a, P s a → P (change s) a) :
    (rest s).Reads sound P (n - 1) (change s) := by
  cases n with
  | zero => exact Returns.mono (h s) hP
  | succ n => exact h s hs

/-- What follows may read no more. -/
theorem Reads.bind {P' : σ → β → Prop} {r : Routine σ α} {f : α → Routine σ β}
    (h : r.Reads sound P n s)
    (hf : ∀ s a, P s a → (f a).Returns (P' s)) : (r.bind f).Reads sound P' n s := by
  induction n generalizing r s with
  | zero => exact Returns.bind h (hf s)
  | succ n ih =>
    cases r with
    | done a => exact reads_of_returns (fun s => hf s a (h s)) _ _
    | step change rest => exact fun s hs => ih (h s hs)

/-- What is allowed of an operation that may fail is about what it gives. -/
def Gives (good : σ → α → Prop) (s : σ) (result : Except ε α) : Prop :=
  ∀ a, result = .ok a → good s a

theorem reads_error {good : σ → α → Prop} (e : ε) (n : Nat) (s : σ) :
    (Routine.done (.error e) : Routine σ (Except ε α)).Reads sound (Gives good) n s := by
  refine reads_of_returns (fun s => ?_) n s
  rintro a ⟨⟩

theorem Reads.andThen {good : σ → α → Prop} {good' : σ → β → Prop} {m : ExceptT ε (Routine σ) α}
    {f : α → ExceptT ε (Routine σ) β} (h : m.run.Reads sound (Gives good) n s)
    (hf : ∀ s a, good s a → (f a).run.Returns (Gives good' s)) :
    (m >>= f).run.Reads sound (Gives good') n s := by
  refine Reads.bind h fun s result hresult => ?_
  cases result with
  | ok a => exact hf s a (hresult a rfl)
  | error e => exact fun b hb => by cases hb

end Routine

open Store Routine Operation Transaction

/-! ## What commands read -/

/-- A part of what is compiled: the section of a kind, or the groups. -/
inductive Part
  | section (kind : SectionKind)
  | groups
  deriving DecidableEq

/-- What a store still knows of a part of what was compiled. -/
def Prepared.Known (q : Prepared) (s : Store) : Part → Prop
  | .section kind => s.RecallsSection kind (q.row kind)
  | .groups => q.GroupsRecalled s

/-- The step by which a command has read a part: to select a section with a reload is to read its
row first, and everything else when it is compiled. -/
def Command.readTurn : Command → Part → Nat
  | selectSection kind _, part => if part = .section kind then 2 else 4
  | _, _ => 2

/-- What is given was compiled from a part as it is still known. -/
def Knows (part : Part) (p : Plane) (q : Prepared) : Prop := p.Holds fun s => q.Known s part

/-- What is given, if it is anything, was compiled from a part as it is still known. -/
def KnowsRan (part : Part) (p : Plane) (ran : Option Prepared) : Prop :=
  ∀ q, ran = some q → Knows part p q

theorem Knows.evolves {part : Part} {p p' : Plane} {q : Prepared} (h : Knows part p q)
    (he : Plane.Evolves p p') : Knows part p' q := by
  obtain ⟨s, hs, hvalid, hknown⟩ := h
  obtain ⟨s', hs', hvalid', hadvances⟩ := he.exists hs hvalid
  refine ⟨s', hs', hvalid', ?_⟩
  cases part with
  | «section» kind => exact RecallsSection.advance hknown hadvances
  | groups => exact Prepared.GroupsRecalled.advance hknown hadvances

/-- What a store has compiled it knows, but for a candidate that was read before. -/
theorem known_prepare {s : Store} {candidate : Option Section} {q : Prepared} {part : Part}
    (h : s.Valid)
    (hq : s.prepare candidate = .ok q) (hpart : ∀ row, candidate = some row →
      part ≠ .section row.kind) :
    q.Known s part := by
  cases part with
  | «section» kind =>
    refine recallsSection_prepare h hq kind fun row hrow hkind => ?_
    exact absurd (congrArg Part.section hkind.symm) (hpart row hrow)
  | groups => exact groupsRecalled_prepare h hq

section Parts

variable {α β : Type} {part : Part} {n : Nat} {p : Plane}

/-- Counting what comes of an operation reads nothing. -/
theorem counted_reads {good : Plane → α → Prop} {op : Operation α} {outcome : String} {dry : Bool}
    (h : op.steps.Reads Plane.Sound (Gives good) n p) :
    (counted outcome dry op).steps.Reads Plane.Sound (Gives good) n p :=
  Reads.bind h fun _ _ hresult _ => hresult

theorem counted_returns {P : Except ControlError α → Prop} {op : Operation α}
    {outcome : String} {dry : Bool}
    (h : op.steps.Returns P) : (counted outcome dry op).steps.Returns P :=
  Returns.bind h fun _ hresult _ => hresult

/-- What follows a launch gives what was launched. -/
theorem submitted_returns (good : Prepared → Prop) (q : Prepared) (hq : good q)
    (f : Plane → Plane) :
    (do modify f; let _ ← submit q.compiled.snapshot; return q : Operation Prepared).steps.Returns
      fun result => ∀ q, result = .ok q → good q := by
  refine Returns.andThen (returns_all _ fun _ _ _ => trivial) fun _ (_ : True) => ?_
  refine Returns.andThen (returns_all _ fun _ _ _ => trivial) fun _ (_ : True) => ?_
  rintro q' ⟨⟩
  exact hq

/-- A launch reads everything in its first step, but for the candidate. -/
theorem launch_reads {candidate : Option Section}
    (hpart : ∀ row, candidate = some row → part ≠ .section row.kind) :
    (launch candidate).steps.Reads Plane.Sound (Gives (Knows part)) 1 p := by
  refine counted_reads ?_
  rintro p ⟨s, hs, hvalid, -⟩
  dsimp only
  rw [hs]
  dsimp only
  cases hq : s.prepare candidate with
  | error e => exact fun q hq => by cases hq
  | ok q => exact submitted_returns _ q ⟨s, hs, hvalid, known_prepare hvalid hq hpart⟩ _

/-- A launch gives a snapshot of its candidate. -/
theorem launch_returns (row : Section) :
    (launch (some row)).steps.Returns fun result => ∀ q, result = .ok q → q.row row.kind = row := by
  refine counted_returns fun p => ?_
  dsimp only
  split
  · exact fun q hq => by cases hq
  · next s hs =>
    cases hq : s.prepare (some row) with
    | error e => exact fun q hq => by cases hq
    | ok q =>
      refine submitted_returns (fun q => q.row row.kind = row) q ?_ _
      have hchosen := (prepare_eq_ok_iff.1 hq).1 row.kind
      simp only [Store.chosen, Option.filter, decide_true, if_true] at hchosen
      exact (Except.ok.inj hchosen).symm

/-- What is read before a transaction and by it. -/
theorem transact_reads {good : Plane → β → Prop} {t : Transaction (α × Closing)}
    {f : α → Operation β}
    (h : ∀ p s, p.store = some s → s.Valid → t.Ensures s fun r s' =>
      (f r.1).steps.Reads Plane.Sound (Gives good) n (r.2.close p s')) :
    (transact t >>= f).steps.Reads Plane.Sound (Gives good) (n + 1) p := by
  rintro p ⟨s, hs, hvalid, -⟩
  show Reads _ _ n (ExceptT.bindCont f ((transact t).steps.run p).1) ((transact t).steps.run p).2
  rcases hon : t.on s with ⟨e | ⟨a, closing⟩, s'⟩
  · rw [transact_run_error hs hon]
    exact reads_error _ n _
  · rw [transact_run_ok hs hon]
    exact h p s hs hvalid _ s' hon

/-- What runs with a candidate, once it is recorded. -/
theorem marked_returns {good : Prepared → Prop} (q : Prepared) (hq : good q)
    (t : Transaction Unit) :
    (do mark true t; return q : Operation Prepared).steps.Returns
      fun result => ∀ q, result = .ok q → good q := by
  refine Returns.andThen (returns_all _ fun _ _ _ => trivial) fun _ (_ : True) => ?_
  rintro q' ⟨⟩
  exact hq

/-- To run is to read everything first. -/
theorem starting_reads : (starting false).steps.Reads Plane.Sound (Gives (KnowsRan part)) 1 p := by
  have hlaunch : (launch none).steps.Reads Plane.Sound (Gives (Knows part)) 1 p :=
    launch_reads fun _ h => by cases h
  refine Reads.andThen hlaunch fun p q hq => ?_
  refine Returns.andThen (returns_all _ fun _ _ _ => trivial) fun _ (_ : True) => ?_
  rintro ran ⟨⟩ q' ⟨⟩
  exact hq

/-- What has run nothing needs no reading. -/
theorem gives_none {op : Operation (Option Prepared)}
    (h : op.steps.Returns fun result => ∀ ran, result = .ok ran → ran = none) :
    op.steps.Reads Plane.Sound (Gives (KnowsRan part)) n p := by
  refine reads_of_returns (fun p => h.mono fun result hresult ran hran q hq => ?_) n p
  rw [hresult ran hran] at hq
  cases hq

theorem ignore_none (op : Operation α) :
    (do let _ ← op; return none : Operation (Option Prepared)).steps.Returns
      fun result => ∀ ran, result = .ok ran → ran = none := by
  refine Returns.andThen (returns_all _ fun _ _ _ => trivial) fun _ (_ : True) => ?_
  rintro ran ⟨⟩
  rfl

/-- To select a section with a reload is to read its row first, which is the candidate then. -/
theorem choosing_reads_candidate (kind : SectionKind) (id : Id) :
    (choosing kind id).steps.Reads Plane.Sound (Gives (KnowsRan (.section kind))) 1 p := by
  refine transact_reads fun p s hs hvalid => ?_
  simp only [ensures_bind, ensures_loadSection, ensures_get]
  intro row hrow
  obtain ⟨hmem, -⟩ := Table.mem_of_find? hrow
  refine ensures_ite.2 ⟨fun _ => ensures_pure.2 ?_, fun _ => ?_⟩
  · have hreselect : (reselect row).steps.Returns
        fun result => ∀ q, result = .ok q → q.row row.kind = row :=
      Returns.andThen (launch_returns row) fun q hq => marked_returns q hq _
    refine Returns.andThen (returns_all _ fun _ _ _ => trivial) fun _ (_ : True) => ?_
    refine Returns.andThen hreselect fun q hq => ?_
    rintro ran ⟨⟩ q' ⟨⟩
    refine ⟨s, hs, hvalid, ?_⟩
    rw [hvalid.kinds kind row hmem] at hq
    show s.RecallsSection kind (q.row kind)
    rw [hq]
    exact recallsSection_self hvalid hmem
  · refine ensures_bind.2 ((selectSection_does s hvalid).mono fun _ s' _ =>
      ensures_pure.2 (gives_none ?_))
    rintro ran ⟨⟩
    rfl

/-- Everything else is read when it is compiled. -/
theorem choosing_reads_rest {kind : SectionKind} (id : Id) (hpart : part ≠ .section kind) :
    (choosing kind id).steps.Reads Plane.Sound (Gives (KnowsRan part)) 3 p := by
  refine transact_reads fun p s hs hvalid => ?_
  simp only [ensures_bind, ensures_loadSection, ensures_get]
  intro row hrow
  obtain ⟨hmem, -⟩ := Table.mem_of_find? hrow
  refine ensures_ite.2 ⟨fun _ => ensures_pure.2 ?_, fun _ => ?_⟩
  · intro p _
    have hlaunch : (launch (some row)).steps.Reads Plane.Sound (Gives (Knows part)) 1 p := by
      refine launch_reads ?_
      rintro _ ⟨⟩
      rwa [hvalid.kinds kind row hmem]
    have hreselect : (reselect row).steps.Reads Plane.Sound (Gives (Knows part)) 1 p :=
      Reads.andThen hlaunch fun _ q hq => marked_returns q hq _
    refine Reads.andThen hreselect fun p q hq => ?_
    rintro ran ⟨⟩ q' ⟨⟩
    exact hq
  · refine ensures_bind.2 ((selectSection_does s hvalid).mono fun _ s' _ =>
      ensures_pure.2 (gives_none ?_))
    rintro ran ⟨⟩
    rfl

/-- Behind the gate, one step later. -/
theorem gated_reads {op : Operation (Option Prepared)}
    (h : ∀ p, op.steps.Reads Plane.Sound (Gives (KnowsRan part)) n p) :
    (gated op).steps.Reads Plane.Sound (Gives (KnowsRan part)) (n + 1) p := by
  rw [gated_steps]
  intro p _
  dsimp only
  split
  · exact reads_error _ n _
  · exact Reads.bind (h _) fun _ _ hresult _ => hresult

end Parts

/-- **When a command has read a part**: what it gives after that was compiled from the part as it is
still known. -/
theorem Command.reads (c : Command) (part : Part) (p : Plane) :
    c.operation.steps.Reads Plane.Sound (Gives (KnowsRan part)) (c.readTurn part) p := by
  cases c with
  | run dry =>
    refine gated_reads fun p => ?_
    cases dry with
    | false => exact starting_reads
    | true =>
      refine gives_none ?_
      refine Returns.andThen (returns_all _ fun _ _ _ => trivial) fun _ (_ : True) => ?_
      exact ignore_none _
  | selectSection kind id =>
    rcases eq_or_ne part (.section kind) with rfl | hpart
    · rw [readTurn, if_pos rfl]
      exact gated_reads fun p => choosing_reads_candidate kind id
    · rw [readTurn, if_neg hpart]
      exact gated_reads fun p => choosing_reads_rest id hpart
  | removeSection kind id => exact gives_none (ignore_none _)
  | edit e => exact gives_none (ignore_none _)

/-! ## Edits of what was read -/

/-- An edit of something that was compiled: of the text of a section, or of a group, which is gone
or not what it was or does not reach what it reached. -/
inductive Prepared.Touched (q : Prepared) (s s' : Store) : Part → Prop
  | body {kind : SectionKind} {row row' : Section} (hrow : row ∈ s.sectionsOf kind)
    (hid : row.id = (q.row kind).id) (hrow' : row' ∈ s'.sectionsOf kind) (hid' : row'.id = row.id)
    (hchanged : row'.version ≠ row.version ∨ row'.body ≠ row.body) : Touched q s s' (.section kind)
  | group {used old : Group} (hused : used ∈ q.compiled.groups) (hold : old ∈ s.groups.rows)
    (hid : old.id = used.id)
    (hchanged : ∀ new ∈ s'.groups.rows, new.id = old.id → new ≠ old ∨
      s'.reached new ≠ s.reached old) :
    Touched q s s' .groups

/-- A part of what was compiled that the store has moved on from. -/
def Prepared.Moved (q : Prepared) (s : Store) : Part → Prop
  | .section kind => s.SectionMoved kind (q.row kind)
  | .groups => ∃ g ∈ q.compiled.groups, s.GroupMoved g

namespace Prepared

variable {q : Prepared} {s s' : Store} {part : Part}

theorem Moved.advance (h : q.Moved s part) (ha : s.Advances s') : q.Moved s' part := by
  cases part with
  | «section» kind => exact SectionMoved.advance h ha
  | groups =>
    obtain ⟨g, hg, hmoved⟩ := h
    exact ⟨g, hg, hmoved.advance ha⟩

/-- **An edit of what is known moves it.** -/
theorem Touched.moved (h : q.Touched s s' part) (hknown : q.Known s part) (hvalid : s.Valid)
    (hvalid' : s'.Valid) (ha : s.Advances s') : q.Moved s' part := by
  cases h with
  | @body kind row row' hrow hid hrow' hid' hchanged =>
    refine ⟨(RecallsSection.advance hknown ha).issued, fun new hnew hsame => ?_⟩
    obtain rfl : new = row' := hvalid'.section_eq hnew hrow'
      (hsame.trans (hid.symm.trans hid'.symm))
    obtain ⟨old, hold, hold', hmoved⟩ :=
      ha.sections.moved kind new hnew (hid' ▸ (hvalid.sections kind).issued row hrow)
    obtain rfl : old = row := hvalid.section_eq hold hrow (hold'.trans hid')
    have hrecalled := RecallsSection.recalled hknown old hold hid
    grind
  | @group used old hused hold hid hchanged =>
    obtain ⟨nodes, hrecalls⟩ := GroupsRecalled.group hknown hused
    refine ⟨used, hused, (hrecalls.advance ha).issued, fun new hnew hsame => ?_⟩
    obtain ⟨before, hbefore, hbefore', hmoved⟩ :=
      ha.groups new hnew (by rw [hsame, ← hid]; exact hvalid.group_le hold)
    obtain rfl : before = old := hvalid.group_eq hbefore hold
      (hbefore'.trans (hsame.trans hid.symm))
    have hrecalled := hrecalls.recalled before hbefore hid
    rcases hmoved with hlt | ⟨rfl, hreached⟩
    · rcases hrecalled with hlt' | ⟨rfl, -⟩
      · exact Int.lt_trans hlt' hlt
      · exact hlt
    · rcases hchanged new hnew rfl with hne | hne
      · exact absurd rfl hne
      · exact absurd hreached hne

/-- **What has been moved on from shows**: the store is not in step. -/
theorem Moved.not_inStep (h : q.Moved s part) : ¬ s.InStep q := by
  intro hstep
  cases part with
  | «section» kind =>
    obtain ⟨row, hselected, hid, hversion⟩ := hstep.sections kind
    exact absurd (SectionMoved.moved h row (selected?_mem hselected).1 hid)
      (by rw [hversion]; exact Int.lt_irrefl _)
  | groups =>
    obtain ⟨g, hg, hmoved⟩ := h
    obtain ⟨g', hfind, hversion⟩ := hstep.groups g hg
    obtain ⟨hmem, hid⟩ := Table.mem_of_find? hfind
    exact absurd (hmoved.moved g' hmem hid) (by rw [hversion]; exact Int.lt_irrefl _)

end Prepared

namespace Traffic

variable {t : Traffic} {i : Nat} {q : Prepared}

/-- What a client gives with its next step, if that is the last one of its command and has run
something. -/
def gives? (t : Traffic) (i : Nat) : Option Prepared :=
  match t.clients[i]? with
  | none => none
  | some c =>
    match c.rest with
    | .done _ => none
    | .step _ rest => (launches (rest t.plane)).head?

theorem gives?_eq_some (h : t.gives? i = some q) :
    ∃ c change rest, t.clients[i]? = some c ∧ c.rest = .step change rest ∧
      rest t.plane = .done (.ok (some q)) := by
  rw [gives?] at h
  split at h
  · cases h
  · next c hc =>
    split at h
    · cases h
    · next change rest hrest =>
      refine ⟨c, change, rest, hc, hrest, ?_⟩
      generalize rest t.plane = left at h
      simp only [launches] at h
      split at h <;> cases h
      rfl

/-- What a client knows of what it will give. -/
theorem Reachable.knows (h : t.Reachable) {c : Client} (hc : t.clients[i]? = some c) {part : Part}
    (hread : c.command.readTurn part ≤ c.taken) :
    c.rest.Returns fun result => ∀ q, result = .ok (some q) → Knows part t.plane q := by
  have hevolves : ∀ p p' result, Plane.Evolves p p' →
      Gives (KnowsRan part) p result → Gives (ε := ControlError) (KnowsRan part) p' result :=
    fun p p' result he hknows ran hran q hq => (hknows ran hran q hq).evolves he
  have hclients := h.client
    (fun c p => c.rest.Reads Plane.Sound (Gives (KnowsRan part))
      (c.command.readTurn part - c.taken) p)
    (fun command p _ => command.reads part p)
    (fun c change rest p hsound hrest he hreads => by
      rw [hrest] at hreads
      exact hreads.step hsound fun result => hevolves p (change p) result he)
    fun c p p' he hreads => hreads.others fun result => hevolves p p' result he
  have hreads := (hclients.2 c (List.mem_of_getElem? hc)).2
  rw [Nat.sub_eq_zero_of_le hread] at hreads
  exact Routine.Returns.mono hreads fun result hknows q hq => hknows _ hq q rfl

/-- However a command ends, it ends as it has to, whatever moves come before that. -/
theorem returns_after {P : Except ControlError (Option Prepared) → Prop} {c : Client}
    (hc : t.clients[i]? = some c) (h : c.rest.Returns P) (moves : List Move) :
    ∃ c', (t.after moves).clients[i]? = some c' ∧ c'.rest.Returns P := by
  induction moves generalizing t c with
  | nil => exact ⟨c, hc, h⟩
  | cons m rest ih =>
    have hlt := (List.getElem?_eq_some_iff.1 hc).1
    obtain ⟨c', hc', h'⟩ : ∃ c', (t.move m).clients[i]? = some c' ∧ c'.rest.Returns P := by
      cases m with
      | arrive command => exact ⟨c, (List.getElem?_append_left hlt).trans hc, h⟩
      | change weather => exact ⟨c, hc, h⟩
      | take j =>
        rcases move_take_cases t j with hsame | ⟨c₁, change, rest₁, hc₁, hrest₁⟩
        · exact ⟨c, by rwa [hsame], h⟩
        · rw [move_take hc₁ hrest₁]
          rcases eq_or_ne j i with rfl | hne
          · cases hc₁.symm.trans hc
            rw [hrest₁] at h
            exact ⟨_, List.getElem?_set_self hlt, h t.plane⟩
          · exact ⟨c, (List.getElem?_set_ne hne).trans hc, h⟩
    exact ih hc' h'

/-- A command that gives what it has run leaves it running and recorded. -/
theorem Orderly.ran (h : t.Orderly) (hreturns : t.gives? i = some q) :
    Ran (some q) (t.move (.take i)).plane := by
  obtain ⟨c, change, rest, hc, hrest, hend⟩ := gives?_eq_some hreturns
  rw [move_take hc hrest]
  have hlaunches : launches (rest t.plane) ≠ [] := by
    rw [hend]
    exact List.cons_ne_nil _ _
  cases h with
  | free hgate hsettled hclients =>
    exact absurd ((hclients c (List.mem_of_getElem? hc)).step_free hrest hgate hsettled).1 hlaunches
  | taken k owner hgate howner hholding hothers =>
    rcases eq_or_ne i k with rfl | hne
    · cases hc.symm.trans howner
      rcases hholding.step hrest with ⟨-, hnone, -⟩ | ⟨-, result, hresult, hfinished⟩
      · exact absurd hnone hlaunches
      · cases hend.symm.trans hresult
        exact hfinished
    · exact absurd ((hothers i c hne hc).step_taken hrest hgate).2.1 hlaunches

/-- **No edit is lost.** Once a command has read a part of what it compiles, an edit of that part is
reported when the command returns, whatever else goes on before, in between and after. -/
theorem Reachable.edit_reported (h : t.Reachable) {c : Client} (hc : t.clients[i]? = some c)
    {part : Part}
    (hread : c.command.readTurn part ≤ c.taken) (edit : Move) (moves : List Move) {s s' : Store}
    (hs : t.plane.store = some s) (hs' : (t.move edit).plane.store = some s')
    (htouched : q.Touched s s' part) (hreturns : ((t.move edit).after moves).gives? i = some q) :
    ∃ s'', (((t.move edit).after moves).move (.take i)).plane.store = some s'' ∧
    s''.running = q.record.row ∧
      (modified.steps.run (((t.move edit).after moves).move (.take i)).plane).1 = .ok true := by
  -- what the command gives was compiled from the part as the store knows it when the edit comes
  obtain ⟨c', hc', hends⟩ := returns_after hc (h.knows hc hread) (edit :: moves)
  obtain ⟨s₀, hs₀, hvalid, hknown⟩ : Knows part t.plane q := by
    obtain ⟨c₁, change, rest, hc₁, hrest, hend⟩ := gives?_eq_some hreturns
    cases hc₁.symm.trans hc'
    rw [hrest] at hends
    have hlast := hends ((t.move edit).after moves).plane
    rw [hend] at hlast
    exact hlast q rfl
  cases hs₀.symm.trans hs
  obtain ⟨s₁, hs₁, hvalid', hadvances⟩ := (h.evolves edit).exists hs hvalid
  cases hs₁.symm.trans hs'
  have hmoved := htouched.moved hknown hvalid hvalid' hadvances
  -- and it stays moved until the command returns
  have hlater := ((h.move edit).evolves_after moves).trans
    (((h.move edit).after moves).evolves (.take i))
  obtain ⟨s'', hs'', -, hadvances'⟩ := hlater.exists hs' hvalid'
  obtain ⟨-, s₂, hs₂, -, hmarked⟩ := ((h.move edit).after moves).orderly.ran hreturns
  cases hs₂.symm.trans hs''
  refine ⟨s'', hs'', hmarked.running, ?_⟩
  have hdrift : s''.drift ≠ none := fun hnone =>
    (hmoved.advance hadvances').not_inStep (inStep_of_drift_eq_none hmarked.running hnone)
  rw [modified, Operation.drift]
  rw [run_andThen_ok (look_run _ hs'')]
  show Except.ok s''.drift.isSome = Except.ok true
  rw [Option.isSome_iff_ne_none.2 hdrift]

/-- A run that has compiled, and somebody who comes with a tag for a node of the group. -/
def midway : Traffic := (furnished.ask (.run false) 2).move (.arrive (.edit (.tagNode 1 "home")))

/-- The node is tagged, and the run is about to return. -/
def edited : Traffic := (midway.move (.take 10)).after (.replicate 5 (.take 9))

/-- A tag that a node of a group gets during a run is reported when the run returns. -/
theorem edit_reported_midway :
    ∃ q s s' s'', midway.plane.store = some s ∧ (midway.move (.take 10)).plane.store = some s' ∧
      q.Touched s s' .groups ∧ edited.gives? 9 = some q ∧
      (edited.move (.take 9)).plane.store = some s'' ∧ s''.running = q.record.row ∧
      (modified.steps.run (edited.move (.take 9)).plane).1 = .ok true := by
  have hreachable : midway.Reachable := (furnished_reachable.ask _ _).move _
  let old : Group := ⟨1, "proxy", "random", [], [1], [], 2⟩
  obtain ⟨c, hc, hread⟩ := exists_of_any (o := midway.clients[9]?)
    (P := fun c => c.command.readTurn .groups ≤ c.taken) (by decide +kernel)
  obtain ⟨s, hs, hold⟩ := exists_of_any (o := midway.plane.store)
    (P := fun s => old ∈ s.groups.rows) (by decide +kernel)
  obtain ⟨s', hs', hnew⟩ := exists_of_any (o := (midway.move (.take 10)).plane.store)
    (P := fun s => ∀ new ∈ s.groups.rows, new ≠ old) (by decide +kernel)
  obtain ⟨q, hq, hused⟩ := exists_of_any (o := edited.gives? 9)
    (P := fun q => old ∈ q.compiled.groups) (by decide +kernel)
  have htouched : q.Touched s s' .groups := .group hused hold rfl fun new h _ => .inl (hnew new h)
  obtain ⟨s'', hs'', hrecord, hmodified⟩ :=
    Reachable.edit_reported hreachable hc hread (.take 10) (.replicate 5 (.take 9)) hs hs'
      htouched hq
  exact ⟨q, s, s', s'', hs, hs', htouched, hq, hs'', hrecord, hmodified⟩

end Traffic
end ProxyPlane
