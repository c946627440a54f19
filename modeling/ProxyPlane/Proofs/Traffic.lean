import ProxyPlane.Proofs.Command

/-!
# Traffic

Any number of clients ask for commands, and the steps of their commands are taken in any order,
while engines fail to build, networks answer and clocks run as they like.

## What is here

* `Weather`, `Plane.under` — what operations depend on and cannot help: which faults are to come,
  what the network answers, what time it is.
* `Client`, `Move`, `Traffic.move` — the moves there are: a client arrives, a client takes a step,
  the weather changes.
* `Traffic.opening` — a control plane that has been started on a store and has taken up what ran
  before.
* `Traffic.Reachable` — the traffic there can be: on a fresh store, after any moves, after any
  restarts.
* `Traffic.after_takes` — commands one after the other are a special case.
* `Traffic.Reachable.client` — what holds of every client whatever the others do.
-/

set_option autoImplicit false
namespace ProxyPlane

open Store Routine

/-! ## Moves -/

/-- What operations depend on and cannot help. -/
structure Weather where
  /-- The faults to come. -/
  armed : Armed
  occupied : Option String
  held : Bool
  remote : Remote
  now : Instant

/-- A control plane in some weather. -/
def Plane.under (w : Weather) (p : Plane) : Plane :=
  { p with
    worker := { p.worker with
      shop := { p.worker.shop with armed := w.armed, occupied := w.occupied, held := w.held } }
    remote := w.remote
    now := w.now }

/-- What is left to do of a command. -/
abbrev Remainder : Type := Routine Plane (Except ControlError (Option Prepared))

/-- Somebody who asks for a command. -/
structure Client where
  command : Command
  /-- How many steps have been taken. -/
  taken : Nat
  rest : Remainder

/-- A client that has taken no step yet. -/
def Client.of (command : Command) : Client := ⟨command, 0, command.operation.steps⟩

/-- A client that has taken one step more. -/
def Client.stepped (c : Client) (rest : Remainder) : Client := { c with taken := c.taken + 1, rest }

/-- A command behind the gate has been begun and is not done. -/
def Client.UnderWay (c : Client) : Prop := c.command.inside.isSome ∧ 0 < c.taken ∧
    c.rest.result? = none

instance : DecidablePred Client.UnderWay := fun _ => inferInstanceAs (Decidable (_ ∧ _ ∧ _))

/-- The control plane and its clients. -/
structure Traffic where
  plane : Plane
  clients : List Client
  /-- What commands have run so far, the last one first. -/
  launched : List Prepared

/-- What can happen next. -/
inductive Move
  | arrive (command : Command)
  /-- A client takes its next step. -/
  | take (client : Nat)
  | change (weather : Weather)

/-- What has been run by what is left to do, if that is nothing. -/
def launches : Remainder → List Prepared
  | .done (.ok (some q)) => [q]
  | _ => []

namespace Traffic

/-- What a move comes to. -/
def move (t : Traffic) : Move → Traffic
  | .arrive command => { t with clients := t.clients ++ [.of command] }
  | .take i =>
    match t.clients[i]? with
    | none => t
    | some client =>
      match client.rest with
      | .done _ => t
      | .step change rest =>
        let left := rest t.plane
        { plane := change t.plane
          clients := t.clients.set i (client.stepped left)
          launched := launches left ++ t.launched }
  | .change weather => { t with plane := t.plane.under weather }

/-- One move after the other. -/
def after (t : Traffic) (moves : List Move) : Traffic := moves.foldl move t

/-- What ran before is taken up again. -/
def resumed (p : Plane) : Traffic :=
  let (result, plane) := Operation.resume.steps.run p
  ⟨plane, [], launches (.done result)⟩

/-- A control plane that is started on a store: the worker boots, and what ran before is taken up
again. There is none if the worker does not boot. -/
def opening (store : Store) (shop : Workshop) (feed : Feed) (weather : Weather) : Option Traffic :=
  match (Worker.idle false shop feed).boot with
  | (.error _, _) => none
  | (.ok (), worker) =>
    some (resumed ((Plane.ofParts store worker weather.remote weather.now).under weather))

/-- The traffic there can be. -/
inductive Reachable : Traffic → Prop
  /-- The first start, on a fresh store. -/
  | first {t : Traffic} (shop : Workshop) (feed : Feed) (weather : Weather)
    (h : opening .empty shop feed weather = some t) : Reachable t
  | move {t : Traffic} (h : Reachable t) (m : Move) : Reachable (t.move m)
  /-- A later start, on the store as it was left, whatever was under way. -/
  | restart {t t' : Traffic} {store : Store} (h : Reachable t) (hstore : t.plane.store = some store)
    (shop : Workshop) (feed : Feed) (weather : Weather)
    (h' : opening store shop feed weather = some t') : Reachable t'

/-- No command behind the gate is under way. -/
def Quiescent (t : Traffic) : Prop := ∀ c ∈ t.clients, ¬ c.UnderWay

instance : DecidablePred Quiescent := fun t =>
    inferInstanceAs (Decidable (∀ c ∈ t.clients, ¬ c.UnderWay))

variable {t : Traffic}

theorem Reachable.after (h : t.Reachable) (moves : List Move) : (t.after moves).Reachable := by
  induction moves generalizing t with
  | nil => exact h
  | cons m rest ih => exact ih (h.move m)

/-! ## One move -/

/-- A client that takes a step. -/
theorem move_take {i : Nat} {c : Client} {change : Plane → Plane} {rest : Plane → Remainder}
    (hc : t.clients[i]? = some c) (hrest : c.rest = .step change rest) :
    t.move (.take i) =
      { plane := change t.plane
        clients := t.clients.set i (c.stepped (rest t.plane))
        launched := launches (rest t.plane) ++ t.launched } := by
  simp only [move, hc, hrest]

/-- What a client's turn is: a step, or nothing if there is nothing left to do. -/
theorem move_take_cases (t : Traffic) (i : Nat) : t.move (.take i) = t ∨
    ∃ c change rest, t.clients[i]? = some c ∧ c.rest = .step change rest := by
  simp only [move]
  split
  · exact .inl rfl
  · next c hc =>
    split
    · exact .inl rfl
    · next change rest hrest => exact .inr ⟨c, change, rest, hc, hrest⟩

/-- **Commands one after the other**: a client that takes all its turns with nothing in between runs
its command. -/
theorem after_takes {i : Nat} {c : Client} (hc : t.clients[i]? = some c) :
    ∃ n, (t.after (List.replicate n (.take i))).plane = (c.rest.run t.plane).2 := by
  obtain ⟨command, taken, rest⟩ := c
  induction rest generalizing t taken with
  | done result => exact ⟨0, rfl⟩
  | step change rest ih =>
    have hmove := move_take hc rfl
    have hnext : (t.move (.take i)).clients[i]? = some ⟨command, taken + 1, rest t.plane⟩ := by
      rw [hmove]
      exact List.getElem?_set_self (List.getElem?_eq_some_iff.1 hc).1
    obtain ⟨n, hn⟩ := ih t.plane (taken + 1) hnext
    refine ⟨n + 1, ?_⟩
    rw [List.replicate_succ]
    refine hn.trans ?_
    rw [hmove]
    rfl

end Traffic

/-! ## What every step does -/

namespace Plane

/-- The store stays valid, and whatever changes in what its rows compile to has a greater version.
-/
abbrev Evolves : Plane → Plane → Prop := Stored fun s s' => s'.Valid ∧ s.Advances s'

theorem aside_under (p : Plane) (weather : Weather) : Aside KeepsGroups p (p.under weather) :=
  aside_of_eq rfl ⟨rfl, rfl, rfl, rfl, rfl⟩ rfl

theorem evolves_of_eq {p p' : Plane} (h : p'.store = p.store) : Evolves p p' :=
  .of_eq (fun s hs => ⟨hs, .refl s⟩) h

theorem Evolves.trans {p p' p'' : Plane} (h : Evolves p p') (h' : Evolves p' p'') : Evolves p p'' :=
  Stored.trans h h' (fun _ _ hs => hs.1) fun _ _ _ hs hs' => ⟨hs'.1, hs.2.trans hs'.2⟩

theorem evolves_of_moving {p p' : Plane} (h : Operation.Moving p p') : Evolves p p' :=
  h.mono fun _ _ _ hs => ⟨hs.valid, hs.advances⟩

theorem evolves_of_still {p p' : Plane} (h : Operation.Still p p') : Evolves p p' :=
  h.mono fun _ _ _ hs => ⟨hs.valid, hs.loosen.advances⟩

/-- There is a valid store. -/
abbrev Sound : Plane → Prop := Holds fun _ => True

theorem Sound.evolves {p p' : Plane} (h : p.Sound) (he : Evolves p p') : p'.Sound := by
  obtain ⟨s, hs, hvalid, -⟩ := h
  obtain ⟨s', hs', hvalid', -⟩ := he.exists hs hvalid
  exact ⟨s', hs', hvalid', trivial⟩

end Plane

theorem Command.evolves (c : Command) : c.operation.steps.Within Plane.Evolves :=
  c.once.within (fun _ _ => Plane.evolves_of_still) fun _ _ => Plane.evolves_of_moving

namespace Operation

theorem spans_still : Spans (Changes KeepsGroups) Still :=
  spans_inside.mono fun _ _ h => h.still

theorem resume_still : resume.steps.Within Still :=
  resume_within spans_still (gated_still (starting_within spans_inside false))

end Operation

namespace Traffic

variable {t : Traffic}

/-- Where a start begins. -/
theorem opening_eq_some {store : Store} {shop : Workshop} {feed : Feed} {weather : Weather}
    (h : opening store shop feed weather = some t) :
    ∃ p, p.worker.Serves .empty ∧ p.gate = false ∧ p.store = some store ∧ t = resumed p := by
  rw [opening] at h
  split at h
  · cases h
  · next worker hboot =>
    cases h
    exact ⟨_, (Worker.serves_boot hboot).same ⟨rfl, rfl, rfl, rfl, rfl⟩, rfl, rfl, rfl⟩

/-- A start leaves the store valid. -/
theorem sound_opening {store : Store} {shop : Workshop} {feed : Feed} {weather : Weather}
    (h : opening store shop feed weather = some t) (hvalid : store.Valid) : t.plane.Sound := by
  obtain ⟨p, -, -, hstore, rfl⟩ := opening_eq_some h
  have hstart : p.Sound := ⟨store, hstore, hvalid, trivial⟩
  have hwithin := Operation.resume_still.mono fun _ _ => Plane.evolves_of_still
  exact hstart.evolves (hwithin.run (fun _ => Plane.evolves_of_eq rfl)
    (fun _ _ _ => Plane.Evolves.trans) p)

/-- **Whatever the others do**: what holds of clients that arrive, is kept by their own steps and is
kept by whatever advances the store, holds of all clients at all times. -/
theorem Reachable.client (h : t.Reachable) (I : Client → Plane → Prop)
    (harrive : ∀ command p, p.Sound → I (.of command) p)
    (hstep : ∀ c change rest p, p.Sound → c.rest = .step change rest →
      Plane.Evolves p (change p) → I c p →
      I (c.stepped (rest p)) (change p))
    (hothers : ∀ c p p', Plane.Evolves p p' → I c p → I c p') :
    t.plane.Sound ∧ ∀ c ∈ t.clients, c.rest.Within Plane.Evolves ∧ I c t.plane := by
  induction h with
  | first shop feed weather h =>
    refine ⟨sound_opening h valid_empty, fun c hc => ?_⟩
    obtain ⟨p, -, -, -, rfl⟩ := opening_eq_some h
    cases hc
  | restart _ hstore shop feed weather h ih =>
    obtain ⟨⟨s, hs, hvalid, -⟩, -⟩ := ih
    cases hs.symm.trans hstore
    refine ⟨sound_opening h hvalid, fun c hc => ?_⟩
    obtain ⟨p, -, -, -, rfl⟩ := opening_eq_some h
    cases hc
  | @move t _ m ih =>
    obtain ⟨hsound, hclients⟩ := ih
    cases m with
    | arrive command =>
      refine ⟨hsound, fun c hc => ?_⟩
      rcases List.mem_append.1 hc with hc | hc
      · exact hclients c hc
      · rw [List.mem_singleton.1 hc]
        exact ⟨command.evolves, harrive command _ hsound⟩
    | change weather =>
      have he : Plane.Evolves t.plane (t.plane.under weather) := Plane.evolves_of_eq rfl
      exact ⟨hsound.evolves he, fun c hc => ⟨(hclients c hc).1, hothers c _ _ he (hclients c hc).2⟩⟩
    | take i =>
      rcases move_take_cases t i with hsame | ⟨c, change, rest, hc, hrest⟩
      · rw [hsame]
        exact ⟨hsound, hclients⟩
      · rw [move_take hc hrest]
        obtain ⟨hwithin, hI⟩ := hclients c (List.mem_of_getElem? hc)
        rw [hrest] at hwithin
        obtain ⟨he, hleft⟩ := hwithin t.plane
        refine ⟨hsound.evolves he, fun c' hc' => ?_⟩
        rcases List.mem_or_eq_of_mem_set hc' with hold | rfl
        · exact ⟨(hclients c' hold).1, hothers c' _ _ he (hclients c' hold).2⟩
        · exact ⟨hleft, hstep c change rest t.plane hsound hrest he hI⟩

/-- All that clients have still to do advances the store, and the store is valid. -/
theorem Reachable.evolving (h : t.Reachable) :
    t.plane.Sound ∧ ∀ c ∈ t.clients, c.rest.Within Plane.Evolves := by
  obtain ⟨hsound, hclients⟩ := h.client (fun _ _ => True) (fun _ _ _ => trivial)
    (fun _ _ _ _ _ _ _ _ => trivial) fun _ _ _ _ _ => trivial
  exact ⟨hsound, fun c hc => (hclients c hc).1⟩

/-- **The store stays valid**, whoever does what. -/
theorem Reachable.sound (h : t.Reachable) : t.plane.Sound := h.evolving.1

/-- **The store advances** with every move. -/
theorem Reachable.evolves (h : t.Reachable) (m : Move) :
    Plane.Evolves t.plane (t.move m).plane := by
  cases m with
  | arrive command => exact Plane.evolves_of_eq rfl
  | change weather => exact Plane.evolves_of_eq rfl
  | take i =>
    rcases move_take_cases t i with hsame | ⟨c, change, rest, hc, hrest⟩
    · rw [hsame]
      exact Plane.evolves_of_eq rfl
    · have hwithin := h.evolving.2 c (List.mem_of_getElem? hc)
      rw [hrest] at hwithin
      rw [move_take hc hrest]
      exact (hwithin t.plane).1

theorem Reachable.evolves_after (h : t.Reachable) (moves : List Move) :
    Plane.Evolves t.plane (t.after moves).plane := by
  induction moves generalizing t with
  | nil => exact Plane.evolves_of_eq rfl
  | cons m rest ih => exact (h.evolves m).trans (ih (h.move m))

/-! ## Some traffic -/

/-- A check of what is there finds it. -/
theorem exists_of_any {α : Type} {o : Option α} {P : α → Prop} [DecidablePred P]
    (h : o.any (fun a => decide (P a)) = true) : ∃ a, o = some a ∧ P a := by
  obtain ⟨a, ha, hP⟩ := (Option.any_eq_true _ _).1 h
  exact ⟨a, ha, of_decide_eq_true hP⟩

/-- A client arrives and takes turns with nothing in between. -/
def ask (t : Traffic) (command : Command) (turns : Nat) : Traffic :=
  (t.move (.arrive command)).after (List.replicate turns (.take t.clients.length))

theorem Reachable.ask (h : t.Reachable) (command : Command) (turns : Nat) :
    (t.ask command turns).Reachable :=
  (h.move _).after _

/-- Commands one after the other, each with its turns. -/
def asks (t : Traffic) (commands : List (Command × Nat)) : Traffic :=
  commands.foldl (fun t c => t.ask c.1 c.2) t

theorem Reachable.asks (h : t.Reachable) (commands : List (Command × Nat)) :
    (t.asks commands).Reachable := by
  induction commands generalizing t with
  | nil => exact h
  | cons c rest ih => exact ih (h.ask c.1 c.2)

/-- A first start in fair weather. -/
def fresh : Traffic :=
  (opening .empty (.fresh .none none) (.ofBus .standard) ⟨.none, none, false, [], 0⟩).get
    (by decide +kernel)

theorem fresh_reachable : fresh.Reachable := .first _ _ _ (Option.some_get _).symm

/-- A node is imported for a group, and three sections are made and selected, of which the routing
refers to the group and to a built-in outbound. -/
def furnished : Traffic := fresh.asks
  [(.edit (.importNodes [⟨"socks5://n1.example:1080#N1", none⟩] false), 1),
    (.edit (.createGroup "proxy" "random" []), 1),
    (.edit (.attachNodes 1 [1]), 1),
    (.edit (.createSection .config "c" ""), 1),
    (.selectSection .config 1, 3),
    (.edit (.createSection .dns "d" ""), 1),
    (.selectSection .dns 1, 3),
    (.edit (.createSection .routing "r" "dport(8000) -> direct\nfallback: proxy"), 1),
    (.selectSection .routing 1, 3)]

theorem furnished_reachable : furnished.Reachable := fresh_reachable.asks _

/-- The three sections run. -/
def serving : Traffic := furnished.ask (.run false) 8

theorem serving_reachable : serving.Reachable := furnished_reachable.ask _ _

end Traffic
end ProxyPlane
