import ProxyPlane.Proofs.Traffic

/-!
# The engine and the record agree

The record says whether something runs and from what it was started; the engine is what runs.  They
change in different steps, and between the steps edits go on.

## What is here

* `Store.Agrees` — a record agrees with a snapshot that serves.
* `Plane.Settled` — the engine is at rest and the record agrees with what it serves.
* `Command.inside_meets` — every command behind the gate leaves the control plane settled, whatever
  comes of it.
* `Traffic.Orderly` — the invariant of all traffic: at most one client has the gate, and if none has
  it, the control plane is settled.
* `Traffic.Reachable.agreement` — whenever no command behind the gate is under way, what serves is
  what was run last, or nothing if nothing is recorded to run.
-/

set_option autoImplicit false
namespace ProxyPlane

open Store Routine Operation

/-! ## Agreement -/

/-- A record agrees with what serves: if it says that something runs, that is what was run last and
what the record is about, and otherwise the empty snapshot serves. -/
structure Store.Agrees (last : Option Prepared) (snapshot : Snapshot) (s : Store) : Prop where
  running : s.running.running = true →
    ∃ q, last = some q ∧ q.compiled.snapshot = snapshot ∧ Marked q s
  stopped : s.running.running = false → snapshot = .empty

/-- The engine is at rest, and the record agrees with what it serves. -/
def Plane.Settled (last : Option Prepared) (p : Plane) : Prop :=
  ∃ snapshot, p.At snapshot (Agrees last snapshot)

variable {last : Option Prepared} {snapshot : Snapshot} {p : Plane}

theorem lasting_agrees (last : Option Prepared) (snapshot : Snapshot) :
    Lasting (Agrees last snapshot) := by
  refine fun s s' he h => ⟨fun hrunning => ?_, fun hstopped => h.stopped (he.running ▸ hstopped)⟩
  obtain ⟨q, hlast, hsnapshot, hmarked⟩ := h.running (he.running ▸ hrunning)
  exact ⟨q, hlast, hsnapshot, lasting_marked q s s' he hmarked⟩

theorem unselective_agrees (last : Option Prepared) (snapshot : Snapshot) :
    Unselective (Agrees last snapshot) := by
  refine fun s s' hc hsame h => ⟨fun hrunning => ?_, fun hstopped => h.stopped (hsame ▸ hstopped)⟩
  obtain ⟨q, hlast, hsnapshot, hmarked⟩ := h.running (hsame ▸ hrunning)
  exact ⟨q, hlast, hsnapshot, hsame.trans hmarked.running,
    hmarked.recalled.advance hc.loosen.advances⟩

theorem stable_settled (last : Option Prepared) : Stable Loud (Plane.Settled last) :=
  fun _ _ ha ⟨snapshot, h⟩ => ⟨snapshot, Plane.stable_at (lasting_agrees last snapshot) _ _ _ ha h⟩

/-- What has just been run is what was run last. -/
theorem settled_of_ran {q : Prepared} (h : Ran (some q) p) : p.Settled (some q) := by
  refine ⟨_, h.mono fun s _ hmarked => ⟨fun _ => ⟨q, rfl, rfl, hmarked⟩, fun hstopped => ?_⟩⟩
  rw [hmarked.running] at hstopped
  cases hstopped

/-- What has been stopped agrees with everything that was run before. -/
theorem settled_of_stopped (h : Ran none p) : p.Settled last := by
  refine ⟨_, h.mono fun s _ (hstopped : s.running.running = false) =>
    ⟨fun hrunning => ?_, fun _ => rfl⟩⟩
  rw [hstopped] at hrunning
  cases hrunning

/-! ## Commands behind the gate -/

/-- What holds when a command behind the gate has come to its end: what it has run runs, or if it
has run nothing, the control plane is as settled as before. -/
def Finished (launched : List Prepared) : Except ControlError (Option Prepared) → Plane → Prop
  | .ok (some q) => Ran (some q)
  | _ => Plane.Settled launched.head?

theorem Finished.settled {launched : List Prepared} {result : Except ControlError (Option Prepared)}
    (h : Finished launched result p) : p.Settled (launches (.done result) ++ launched).head? := by
  rcases result with e | _ | q
  · exact h
  · exact h
  · exact settled_of_ran h

/-- **Whatever comes of it**, a command behind the gate leaves the record in agreement with what
serves. -/
theorem Command.inside_meets {c : Command} {op : Operation (Option Prepared)}
    (h : c.inside = some op) (launched : List Prepared) (snapshot : Snapshot) :
    op.steps.Meets Loud (Plane.At snapshot (Agrees launched.head? snapshot))
    (Finished launched) := by
  have hlasting := lasting_agrees launched.head? snapshot
  have hselect := unselective_agrees launched.head? snapshot
  cases c with
  | run dry =>
    cases h
    refine (starting_meets hlasting dry).imp fun result p hp => ?_
    rcases result with e | _ | q
    · exact ⟨snapshot, hp⟩
    · exact settled_of_stopped hp
    · exact hp
  | selectSection kind id =>
    cases h
    refine (choosing_meets hlasting hselect kind id).imp fun result p hp => ?_
    rcases result with e | _ | q
    · exact ⟨snapshot, hp⟩
    · exact ⟨snapshot, hp⟩
    · exact hp
  | removeSection kind id =>
    cases h
    refine Meets.bind (removing_meets hlasting hselect kind id) fun result => ?_
    rcases result with e | n
    · exact fun p hp => ⟨snapshot, hp⟩
    · rintro p (hp | hp)
      · exact ⟨snapshot, hp⟩
      · exact settled_of_stopped hp
  | edit e => cases h

/-! ## Taking up what ran before -/

/-- An operation behind the gate, with nothing in between. -/
theorem gated_run {α : Type} {op : Operation α} {result : Except ControlError α} {p' : Plane}
    (hgate : p.gate = false) (h : op.steps.run { p with gate := true } = (result, p')) :
    (gated op).steps.run p = (result, { p' with gate := false }) := by
  rw [gated_steps]
  simp only [Routine.run, acquire, hgate, Bool.false_eq_true, if_false, run_bind, release, h]

/-- A start from rest. -/
theorem start_run (hgate : p.gate = false) (h : p.At .empty fun _ => True) (dry : Bool)
    {result : Except ControlError (Option Prepared)} {p' : Plane}
    (hrun : (start dry).steps.run p = (result, p')) :
    p'.gate = false ∧ Ends Ran (fun _ => Plane.At .empty fun _ => True) result p' := by
  have hmeets := (starting_meets (fun _ _ _ _ => trivial) dry).run (s := { p with gate := true }) h
  rcases hbody : (starting dry).steps.run { p with gate := true } with ⟨r, p₁⟩
  rw [hbody] at hmeets
  cases (gated_run hgate hbody).symm.trans hrun
  rcases result with e | _ | q <;> exact ⟨rfl, hmeets⟩

/-- Marking what runs as stopped, while nothing serves. -/
theorem markStopped_run (h : p.At .empty fun _ => True) :
    ∃ p', markStopped.steps.run p = (.ok (), p') ∧ p'.gate = p.gate ∧ Ran none p' := by
  have hmeets : markStopped.steps.Meets Loud (Plane.At .empty fun _ => True)
      (Ends (fun _ => Ran none) fun _ _ => False) := by
    refine mark_meets lasting_unmarked (fun _ _ _ _ h => h) ?_
    exact fun s hvalid _ => ⟨(), _, rfl, valid_running hvalid _, rfl⟩
  have hinside : markStopped.steps.Within Inside := markStopped_within spans_inside
  have hgate := (hinside.mono fun _ _ hi => hi.gate).run (fun _ => rfl)
    (fun _ _ _ h h' => h'.trans h) p
  have hend := hmeets.run h
  rcases hresult : markStopped.steps.run p with ⟨e | u, p'⟩ <;> rw [hresult] at hend hgate
  · exact hend.elim
  · exact ⟨p', rfl, hgate, hend⟩

theorem modify_run (f : Plane → Plane) (p : Plane) : (modify f).steps.run p = (.ok (), f p) := rfl

/-- **A start** takes up what ran before, or records that nothing runs. -/
theorem resume_run (hgate : p.gate = false) (h : p.At .empty fun _ => True)
    {result : Except ControlError (Option Prepared)} {p' : Plane}
    (hrun : resume.steps.run p = (result, p')) : p'.gate = false ∧ Finished [] result p' := by
  have hnote (level : LogLevel) (message : String) :
    (p.note level message []).At .empty fun _ => True :=
    Plane.stable_at (fun _ _ _ _ => trivial) _ _ _ (p.aside_note level message []).loosen h
  obtain ⟨hserves, s, hs, hvalid, -⟩ := h
  rw [resume] at hrun
  rw [run_andThen_ok (look_run _ hs)] at hrun
  dsimp only at hrun
  split at hrun
  · split at hrun
    · rw [run_andThen_ok (modify_run _ p)] at hrun
      rcases hstart : (start false).steps.run (p.note .info "restoring running state" []) with
        ⟨started, p₁⟩
      obtain ⟨hgate₁, hends⟩ :=
        start_run (p := p.note .info "restoring running state" []) hgate (hnote _ _) false hstart
      rcases started with e | _ | q
      · obtain ⟨p₂, hmark, hgate₂, hran⟩ := markStopped_run hends
        rw [run_orElse_error hstart, run_andThen_ok hmark] at hrun
        cases hrun
        exact ⟨hgate₂.trans hgate₁, settled_of_stopped hran⟩
      · rw [run_orElse_ok hstart] at hrun
        cases hrun
        exact ⟨hgate₁, settled_of_stopped hends⟩
      · rw [run_orElse_ok hstart] at hrun
        cases hrun
        exact ⟨hgate₁, hends⟩
    · obtain ⟨p₁, hmark, hgate₁, hran⟩ := markStopped_run
        (hnote .warn "data inconsistency: no selected config but last state is running")
      rw [run_andThen_ok (modify_run _ p), run_andThen_ok hmark] at hrun
      cases hrun
      exact ⟨hgate₁.trans hgate, settled_of_stopped hran⟩
  · next hstopped =>
    cases hrun
    refine ⟨hgate, settled_of_stopped ⟨hserves, s, hs, hvalid, ?_⟩⟩
    exact Bool.eq_false_iff.2 hstopped

/-! ## Clients with and without the gate -/

namespace Client

/-- A client whose command is an edit. -/
structure Edits (c : Client) : Prop where
  inside : c.command.inside = none
  within : c.rest.Within Loud
  returns : c.rest.Returns fun result => launches (.done result) = []

/-- A client without the gate: its command is an edit, or it has not begun, or it is through. -/
inductive Outside (c : Client) : Prop
  | edits (h : c.Edits)
  | waits (op : Operation (Option Prepared)) (hinside : c.command.inside = some op)
    (hrest : c.rest = (gated op).steps)
  | through (result : Except ControlError (Option Prepared)) (hrest : c.rest = .done result)

/-- A client with the gate: what is left to do leaves the control plane settled and then gives the
gate back. -/
structure Holding (launched : List Prepared) (c : Client) (p : Plane) : Prop where
  inside : c.command.inside.isSome
  taken : 0 < c.taken
  rest : ∃ (body : Remainder) (pre : Plane → Prop), c.rest = body.bind release ∧
    body.Within Inside ∧ Stable Loud pre ∧ pre p ∧ body.Meets Loud pre (Finished launched)

variable {c : Client} {change : Plane → Plane} {rest : Plane → Remainder} {launched : List Prepared}

/-- A client that arrives is outside. -/
theorem outside_of (command : Command) : (Client.of command).Outside := by
  cases hinside : command.inside with
  | some op => exact .waits op hinside (Command.operation_steps hinside)
  | none =>
    cases command with
    | edit e =>
      refine .edits ⟨hinside, ?_, ?_⟩
      · exact ignore_within (e.once.within (fun _ _ h => h.loosen) fun _ _ h => h) _
      · refine Returns.bind (returns_all (P := fun _ => True) e.operation.steps fun _ => trivial)
          fun result _ => ?_
        cases result <;> rfl
    | _ => cases hinside

/-- A step of an edit. -/
theorem Edits.step (h : c.Edits) (hrest : c.rest = .step change rest) (p : Plane) :
    Loud p (change p) ∧ launches (rest p) = [] ∧ (c.stepped (rest p)).Edits := by
  obtain ⟨hinside, hwithin, hreturns⟩ := h
  rw [hrest] at hwithin hreturns
  refine ⟨(hwithin p).1, ?_, hinside, (hwithin p).2, hreturns p⟩
  cases hleft : rest p with
  | done result =>
    have hresult := hreturns p
    rwa [hleft] at hresult
  | step _ _ => rfl

/-- A client with the gate is under way. -/
theorem Holding.underWay (h : c.Holding launched p) : c.UnderWay := by
  obtain ⟨body, pre, hrest, -⟩ := h.rest
  refine ⟨h.inside, h.taken, ?_⟩
  rw [hrest]
  cases body <;> rfl

/-- Before the gate is given back, nothing counts as having been run. -/
theorem launches_bind_release (body : Remainder) : launches (body.bind release) = [] := by
  cases body <;> rfl

/-- What others do while a client has the gate. -/
theorem Holding.loud {p' : Plane} (h : c.Holding launched p) (hp : Loud p p') :
    c.Holding launched p' := by
  obtain ⟨hinside, htaken, body, pre, hrest, hwithin, hstable, hpre, hmeets⟩ := h
  exact ⟨hinside, htaken, body, pre, hrest, hwithin, hstable, hstable _ _ hp hpre, hmeets⟩

/-- A step without the gate while somebody else has it. -/
theorem Outside.step_taken (h : c.Outside) (hrest : c.rest = .step change rest)
    (hgate : p.gate = true) :
    Loud p (change p) ∧ launches (rest p) = [] ∧ (c.stepped (rest p)).Outside := by
  cases h with
  | edits h =>
    obtain ⟨hloud, hlaunches, hnext⟩ := h.step hrest p
    exact ⟨hloud, hlaunches, .edits hnext⟩
  | waits op hinside hrest' =>
    rw [gated_steps, hrest] at hrest'
    cases hrest'
    simp only [hgate, if_true, acquire]
    exact ⟨(p.aside_tell _).loosen, rfl, .through _ rfl⟩
  | through result hdone => cases hdone.symm.trans hrest

/-- A step without the gate while nobody has it: it is one of an edit, or takes the gate. -/
theorem Outside.step_free (h : c.Outside) (hrest : c.rest = .step change rest)
    (hgate : p.gate = false)
    (hsettled : p.Settled launched.head?) :
    launches (rest p) = [] ∧
      ((Loud p (change p) ∧ (c.stepped (rest p)).Outside) ∨
        ((change p).gate = true ∧ (c.stepped (rest p)).Holding launched (change p))) := by
  cases h with
  | edits h =>
    obtain ⟨hloud, hlaunches, hnext⟩ := h.step hrest p
    exact ⟨hlaunches, .inl ⟨hloud, .edits hnext⟩⟩
  | waits op hinside hrest' =>
    rw [gated_steps, hrest] at hrest'
    cases hrest'
    obtain ⟨snapshot, hat⟩ := hsettled
    simp only [hgate, Bool.false_eq_true, if_false, acquire]
    refine ⟨launches_bind_release _, .inr ⟨trivial, ?_, Nat.succ_pos _, op.steps, _, rfl,
      Command.inside_within hinside, ?_, ?_, Command.inside_meets hinside launched snapshot⟩⟩
    · rw [stepped, hinside]
      rfl
    · exact Plane.stable_at (lasting_agrees _ _) _
    · exact hat
  | through result hdone => cases hdone.symm.trans hrest

/-- A step with the gate: the gate is kept, or it is given back by a command that is finished. -/
theorem Holding.step (h : c.Holding launched p) (hrest : c.rest = .step change rest) :
    ((change p).gate = p.gate ∧ launches (rest p) = [] ∧
      (c.stepped (rest p)).Holding launched (change p)) ∨
      ((change p).gate = false ∧ ∃ result, rest p = .done result ∧
        Finished launched result (change p)) := by
  obtain ⟨hinside, htaken, body, pre, hbody, hwithin, hstable, hpre, hmeets⟩ := h
  rw [hrest] at hbody
  cases body with
  | done result =>
    cases hbody
    have hend := hmeets p hpre
    refine .inr ⟨rfl, result, rfl, ?_⟩
    rcases result with e | _ | q <;> exact hend
  | step change' rest' =>
    cases hbody
    obtain ⟨hinner, hwithin'⟩ := hwithin p
    obtain ⟨mid, hmid, hat, hmeets'⟩ := hmeets p hpre
    refine .inl ⟨hinner.gate, launches_bind_release _, hinside, Nat.succ_pos _, rest' p,
      mid, rfl, ?_⟩
    exact ⟨hwithin', hmid, hat, hmeets'⟩

end Client

/-! ## All clients together -/

namespace Traffic

/-- **The invariant of all traffic**: either nobody has the gate and the control plane is settled,
or one client has it. -/
inductive Orderly (t : Traffic) : Prop
  | free (hgate : t.plane.gate = false) (hsettled : t.plane.Settled t.launched.head?)
    (hclients : ∀ c ∈ t.clients, c.Outside)
  | taken (i : Nat) (owner : Client) (hgate : t.plane.gate = true)
      (howner : t.clients[i]? = some owner)
    (hholding : owner.Holding t.launched t.plane)
    (hothers : ∀ j c, j ≠ i → t.clients[j]? = some c → c.Outside)

variable {t : Traffic}

/-- A client is the one that has taken a step, or another one. -/
theorem getElem?_stepped {clients : List Client} {i j : Nat} {c c' : Client}
    (h : (clients.set i c)[j]? = some c') : c' = c ∨ (j ≠ i ∧ clients[j]? = some c') := by
  rw [List.getElem?_set] at h
  split at h
  · split at h <;> cases h
    exact .inl rfl
  · next hne => exact .inr ⟨Ne.symm hne, h⟩

theorem Orderly.arrive (h : t.Orderly) (command : Command) :
    (t.move (.arrive command)).Orderly := by
  have harrived : Client.Outside (.of command) := Client.outside_of command
  cases h with
  | free hgate hsettled hclients =>
    refine .free hgate hsettled fun c hc => ?_
    rcases List.mem_append.1 hc with hc | hc
    · exact hclients c hc
    · rwa [List.mem_singleton.1 hc]
  | taken i owner hgate howner hholding hothers =>
    have hlt := (List.getElem?_eq_some_iff.1 howner).1
    refine .taken i owner hgate ((List.getElem?_append_left hlt).trans howner) hholding ?_
    intro j c hne hj
    have hj : (t.clients ++ [Client.of command])[j]? = some c := hj
    rw [List.getElem?_append] at hj
    split at hj
    · exact hothers j c hne hj
    · rwa [List.mem_singleton.1 (List.mem_of_getElem? hj)]

theorem Orderly.change (h : t.Orderly) (weather : Weather) :
    (t.move (.change weather)).Orderly := by
  have hloud : Loud t.plane (t.plane.under weather) := (t.plane.aside_under weather).loosen
  cases h with
  | free hgate hsettled hclients =>
    exact .free hgate (stable_settled _ _ _ hloud hsettled) hclients
  | taken i owner hgate howner hholding hothers =>
    exact .taken i owner hgate howner (hholding.loud hloud) hothers

/-- A step of a client, by who has the gate: nobody, the client itself, or somebody else. -/
theorem Orderly.take (h : t.Orderly) (i : Nat) : (t.move (.take i)).Orderly := by
  rcases move_take_cases t i with hsame | ⟨c, change, rest, hc, hrest⟩
  · rwa [hsame]
  rw [move_take hc hrest]
  have hlt := (List.getElem?_eq_some_iff.1 hc).1
  cases h with
  | free hgate hsettled hclients =>
    have hclient := hclients c (List.mem_of_getElem? hc)
    obtain ⟨hlaunches, hnext⟩ := hclient.step_free hrest hgate hsettled
    rw [hlaunches, List.nil_append]
    rcases hnext with ⟨hloud, houtside⟩ | ⟨hgate', hholding⟩
    · have hsettled' := stable_settled _ _ _ hloud hsettled
      refine .free (hloud.gate.trans hgate) hsettled' fun c' hc' => ?_
      rcases List.mem_or_eq_of_mem_set hc' with hold | rfl
      · exact hclients c' hold
      · exact houtside
    · refine .taken i _ hgate' (List.getElem?_set_self hlt) hholding fun j c' hne hj => ?_
      rw [List.getElem?_set_ne hne.symm] at hj
      exact hclients c' (List.mem_of_getElem? hj)
  | taken k owner hgate howner hholding hothers =>
    rcases eq_or_ne i k with rfl | hne
    · cases hc.symm.trans howner
      rcases hholding.step hrest with
        ⟨hgate', hlaunches, hholding'⟩ | ⟨hgate', result, hresult, hfinished⟩
      · rw [hlaunches, List.nil_append]
        refine .taken i _ (hgate'.trans hgate) (List.getElem?_set_self hlt) hholding' ?_
        intro j c' hne hj
        rw [List.getElem?_set_ne hne.symm] at hj
        exact hothers j c' hne hj
      · rw [hresult]
        refine .free hgate' hfinished.settled fun c' hc' => ?_
        obtain ⟨j, hj⟩ := List.mem_iff_getElem?.1 hc'
        rcases getElem?_stepped hj with rfl | ⟨hne, hold⟩
        · exact .through result rfl
        · exact hothers j c' hne hold
    · obtain ⟨hloud, hlaunches, houtside⟩ := (hothers i c hne hc).step_taken hrest hgate
      rw [hlaunches, List.nil_append]
      refine .taken k owner (hloud.gate.trans hgate) ((List.getElem?_set_ne hne).trans howner)
        (hholding.loud hloud) fun j c' hne' hj => ?_
      rcases getElem?_stepped hj with rfl | ⟨-, hold⟩
      · exact houtside
      · exact hothers j c' hne' hold

/-- **Every move keeps the order.** -/
theorem Orderly.move (h : t.Orderly) (m : Move) : (t.move m).Orderly := by
  cases m with
  | arrive command => exact h.arrive command
  | take i => exact h.take i
  | change weather => exact h.change weather

/-- A start is in order. -/
theorem orderly_opening {store : Store} {shop : Workshop} {feed : Feed} {weather : Weather}
    (h : opening store shop feed weather = some t) (hvalid : store.Valid) : t.Orderly := by
  obtain ⟨p, hserves, hgate, hstore, rfl⟩ := opening_eq_some h
  obtain ⟨hgate', hfinished⟩ := resume_run hgate ⟨hserves, store, hstore, hvalid, trivial⟩ rfl
  refine .free hgate' ?_ fun c hc => by cases hc
  have hsettled := hfinished.settled
  rwa [List.append_nil] at hsettled

theorem Reachable.orderly (h : t.Reachable) : t.Orderly := by
  induction h with
  | first shop feed weather h => exact orderly_opening h valid_empty
  | move _ m ih => exact ih.move m
  | restart hreachable hstore shop feed weather h _ =>
    obtain ⟨s, hs, hvalid, -⟩ := hreachable.sound
    cases hs.symm.trans hstore
    exact orderly_opening h hvalid

/-- While nobody is under way behind the gate, the control plane is settled. -/
theorem Reachable.settled (h : t.Reachable) (hquiet : t.Quiescent) :
    t.plane.Settled t.launched.head? := by
  cases h.orderly with
  | free _ hsettled _ => exact hsettled
  | taken i owner _ howner hholding _ =>
    exact absurd hholding.underWay (hquiet owner (List.mem_of_getElem? howner))

/-- **The record and the engine agree.** In all traffic, whenever no command behind the gate is
under way and the worker has not ended: if the record says that something runs, then it is about
what was run last, and that is what serves; and if it says that nothing runs, the empty snapshot
serves. -/
theorem Reachable.agreement (h : t.Reachable) (hquiet : t.Quiescent)
    (hopen : t.plane.worker.state ≠ .closed) :
    ∃ s engine, t.plane.store = some s ∧ t.plane.worker.live = some engine ∧
      (s.running.running = true → ∃ q, t.launched.head? = some q ∧ s.running = q.record.row ∧
        engine.snapshot = q.compiled.snapshot) ∧
      (s.running.running = false → engine.snapshot = .empty) := by
  obtain ⟨snapshot, hserves, s, hs, -, hagrees⟩ := h.settled hquiet
  obtain ⟨-, -, engine, hlive, rfl⟩ := hserves.listens hopen
  refine ⟨s, engine, hs, hlive, fun hrunning => ?_, hagrees.stopped⟩
  obtain ⟨q, hlast, hsnapshot, hmarked⟩ := hagrees.running hrunning
  exact ⟨q, hlast, hmarked.running, hsnapshot.symm⟩

/-- Three sections that run are recorded to run and serve. -/
theorem agreement_serving :
    serving.Quiescent ∧ serving.plane.worker.state ≠ .closed ∧
      ∃ s engine q, serving.plane.store = some s ∧ serving.plane.worker.live = some engine ∧
        s.running.running = true ∧ serving.launched.head? = some q ∧ s.running = q.record.row ∧
          engine.snapshot = q.compiled.snapshot := by
  have hquiet : serving.Quiescent := by decide +kernel
  have hopen : serving.plane.worker.state ≠ .closed := by decide +kernel
  obtain ⟨s, engine, hs, hlive, hrunning, -⟩ :=
    Reachable.agreement serving_reachable hquiet hopen
  obtain ⟨s', hs', hmarked⟩ := exists_of_any (o := serving.plane.store)
    (P := fun s => s.running.running = true) (by decide +kernel)
  cases hs'.symm.trans hs
  obtain ⟨q, hlast, hrecord, hsnapshot⟩ := hrunning hmarked
  exact ⟨hquiet, hopen, s, engine, q, hs, hlive, hmarked, hlast, hrecord, hsnapshot⟩

end Traffic
end ProxyPlane
