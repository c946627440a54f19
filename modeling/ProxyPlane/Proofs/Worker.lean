import ProxyPlane.Engine.Worker
import ProxyPlane.Proofs.Ledger

/-!
# What a request to the worker comes to

A worker at rest serves a snapshot or has ended.  A request that succeeds leaves the worker serving
the snapshot that was asked for, and one that fails leaves it serving the one before, or ended.  All
the while the worker closes every engine that it gives up.

## What is here

* `Worker.SameEngine` — two workers that differ at most in their workshop and in what observers see.
* `Worker.Serves w snapshot` — `w` is at rest, and serves `snapshot` unless it has ended.
* `Worker.Rebuilds w before after` — `w` builds an engine for `after` in the place of one for
  `before`.
* `Worker.Reloaded before after answer w` — what an answer says about the worker that gave it.
* `Worker.Tidy` — all engines that were built are closed, but for the one that the worker holds.
* `Worker.boot_spec`, `begin_spec`, `takeOver_cases`, `die_spec`, `complete_cases` — all that a step
  can do.
* `Worker.complete_reloads` — **the second half of a reload** does what its answer says.
* `Worker.serves_boot`, `request_spec`, `complete_spec` — the two halves of a reload between them.
-/

set_option autoImplicit false
namespace ProxyPlane
namespace Worker

/-! ## Workers with the same engine -/

/-- Two workers with the same engine: what is not compared is the workshop and what observers see.
-/
structure SameEngine (w w' : Worker) : Prop where
  dry : w'.dry = w.dry
  state : w'.state = w.state
  live : w'.live = w.live
  rebuild : w'.rebuild = w.rebuild
  ended : w'.ended = w.ended

theorem SameEngine.refl (w : Worker) : w.SameEngine w := ⟨rfl, rfl, rfl, rfl, rfl⟩

theorem SameEngine.trans {w w' w'' : Worker} (h : w.SameEngine w') (h' : w'.SameEngine w'') :
    w.SameEngine w'' :=
  ⟨h'.dry.trans h.dry, h'.state.trans h.state, h'.live.trans h.live, h'.rebuild.trans h.rebuild,
    h'.ended.trans h.ended⟩

/-! ## Workers at rest and under way -/

/-- The worker is no dry one and has ended. -/
def Closed (w : Worker) : Prop := w.state = .closed ∧ w.ended.isSome = true

/-- An engine for a snapshot serves and listens. -/
def Listens (w : Worker) (snapshot : Snapshot) : Prop :=
  w.state = .listening ∧ w.ended = none ∧
    ∃ engine, w.live = some engine ∧ engine.snapshot = snapshot

/-- A worker at rest: it serves a snapshot, or it has ended. -/
structure Serves (w : Worker) (snapshot : Snapshot) : Prop where
  dry : w.dry = false
  rebuild : w.rebuild = none
  engine : w.Closed ∨ w.Listens snapshot

/-- A worker that builds an engine for `after` in the place of one for `before`. -/
structure Rebuilds (w : Worker) (before after : Snapshot) : Prop where
  dry : w.dry = false
  ended : w.ended = none
  rebuild : ∃ r, w.rebuild = some r ∧ r.previous.snapshot = before ∧ r.snapshot = after

/-- A worker that has ended, and nothing serves any more. -/
def Gone (w : Worker) : Prop := w.Closed ∧ w.live = none

/-- What the answer to a reload says about the worker that gave it: which snapshot serves, if any
does.  No other answers are given. -/
def Reloaded (before after : Snapshot) : Except ReloadError ReloadOutcome → Worker → Prop
  | .ok (.applied fingerprint), w => fingerprint = after.fingerprint ∧ w.Listens after
  | .error (.rejected _), w => w.Listens before
  | .error (.fatal _), w => w.Gone
  | _, _ => False

/-- The engine that a worker has to close some time, by its number: the one that serves or, during
a reload, the one that served before. -/
def held (w : Worker) : List Nat :=
  match w.rebuild with
  | some r => [r.previous.number]
  | none => (w.live.map Engine.number).toList

/-- A worker that has closed all engines but the one it holds, each of them once. -/
structure Tidy (w : Worker) : Prop where
  balanced : w.shop.ledger.Balanced w.held
  /-- The engine under construction gets a number of its own. -/
  fresh : ∀ r, w.rebuild = some r → w.shop.ledger.Fresh r.number

variable {w w' : Worker} {before after snapshot : Snapshot}

theorem Serves.same (h : w.Serves snapshot) (hw : w.SameEngine w') : w'.Serves snapshot := by
  refine ⟨hw.dry.trans h.dry, hw.rebuild.trans h.rebuild, ?_⟩
  rw [Closed, Listens]
  rw [hw.state, hw.ended, hw.live]
  exact h.engine

theorem Rebuilds.same (h : w.Rebuilds before after) (hw : w.SameEngine w') :
    w'.Rebuilds before after :=
  ⟨hw.dry.trans h.dry, hw.ended.trans h.ended, hw.rebuild ▸ h.rebuild⟩

/-- A worker at rest that has not ended has an engine. -/
theorem Serves.listens (h : w.Serves snapshot) (hopen : w.state ≠ .closed) : w.Listens snapshot :=
  h.engine.resolve_left fun hclosed => hopen hclosed.1

theorem held_of_live (h : w.rebuild = none) : w.held = (w.live.map Engine.number).toList := by
  rw [held, h]

theorem held_of_rebuild {r : Rebuild} (h : w.rebuild = some r) : w.held = [r.previous.number] := by
  rw [held, h]

/-- A worker at rest is tidy if the ledger of its workshop is balanced. -/
theorem tidy_of_rest (hrest : w.rebuild = none)
    (h : w.shop.ledger.Balanced (w.live.map Engine.number).toList) : w.Tidy :=
  ⟨held_of_live hrest ▸ h, fun _ hr => absurd (hrest.symm.trans hr) nofun⟩

/-- A reload that succeeds leaves the snapshot that was asked for, and one that fails the one
before, unless the worker is gone. -/
theorem Reloaded.engine {answer : Except ReloadError ReloadOutcome}
    (h : Reloaded before after answer w) :
    ((∃ outcome, answer = .ok outcome) ∧ w.Listens after) ∨
      ((∃ e, answer = .error e) ∧ (w.Gone ∨ w.Listens before)) := by
  match answer, h with
  | .ok (.applied _), h => exact .inl ⟨⟨_, rfl⟩, h.2⟩
  | .error (.rejected _), h => exact .inr ⟨⟨_, rfl⟩, .inr h⟩
  | .error (.fatal _), h => exact .inr ⟨⟨_, rfl⟩, .inl h⟩

/-! ## States -/

@[simp] theorem enter_state (w : Worker) (state : EngineState) : (w.enter state).state = state := by
  rw [enter]; split
  · assumption
  · rfl

@[simp] theorem enter_dry (w : Worker) (state : EngineState) : (w.enter state).dry = w.dry := by
  rw [enter]; split <;> rfl

@[simp] theorem enter_live (w : Worker) (state : EngineState) : (w.enter state).live = w.live := by
  rw [enter]; split <;> rfl

@[simp] theorem enter_rebuild (w : Worker) (state : EngineState) :
    (w.enter state).rebuild = w.rebuild := by
  rw [enter]; split <;> rfl

@[simp] theorem enter_ended (w : Worker) (state : EngineState) :
    (w.enter state).ended = w.ended := by
  rw [enter]; split <;> rfl

@[simp] theorem enter_shop (w : Worker) (state : EngineState) : (w.enter state).shop = w.shop := by
  rw [enter]; split <;> rfl

/-- Only the state and what observers see change on the way to a state. -/
theorem enter_eq (w : Worker) (state : EngineState) :
    ∃ feed, w.enter state = { w with state, feed } := by
  rw [enter]
  split
  · next heq => exact ⟨w.feed, by rw [← heq]⟩
  · exact ⟨_, rfl⟩

/-! ## The first engine -/

/-- **A worker that boots** has built one engine, for the empty snapshot, and the engine serves. -/
theorem boot_spec {shop : Workshop} {feed : Feed} (h : (idle false shop feed).boot = (.ok (), w)) :
    w.dry = false ∧ w.rebuild = none ∧ w.Listens .empty ∧
      ∃ n, n = shop.ledger.issued + 1 ∧
        w.live = some ⟨n, .empty, some 0, w.shop.known n none⟩ ∧
        w.shop.ledger = shop.ledger.issue.build n := by
  rw [boot, idle] at h
  dsimp only at h
  rw [if_neg (by decide)] at h
  have hstart := shop.ledger_start none none .empty
  obtain ⟨n, started, hn⟩ : ∃ n started, shop.start none none .empty = (n, started) := ⟨_, _, rfl⟩
  have hnumber : n = shop.ledger.issued + 1 := congrArg Prod.fst hn.symm
  rw [hn] at h hstart
  rcases started.finish_cases n none .empty with
    ⟨fault, built, hfinish, -⟩ | ⟨built, hfinish, hbuilt, hgreets⟩
  · rw [hfinish] at h
    cases h
  · set engine : Engine := ⟨n, .empty, some 0, started.known n none⟩
    rw [hfinish] at h
    dsimp only at h
    have hlisten := built.ledger_listen engine Snapshot.empty.sections.global.port
    have hlisten' := built.greets_listen engine Snapshot.empty.sections.global.port
    split at h
    · cases h
    · next listening heq =>
      rw [heq] at hlisten hlisten'
      have hserve := listening.ledger_serve engine
      have hserve' := listening.greets_serve engine
      split at h
      · cases h
      · next serving heq =>
        rw [heq] at hserve hserve'
        cases h
        refine ⟨by simp, by simp, ⟨by simp, by simp, engine, by simp, rfl⟩, n, hnumber, ?_, ?_⟩
        · rw [enter_live, enter_shop,
            Workshop.known_congr (hserve'.trans (hlisten'.trans hgreets))]
        · rw [enter_shop, ← hstart, ← hbuilt]
          exact hserve.trans hlisten

/-- A worker that boots serves the empty snapshot. -/
theorem serves_boot {shop : Workshop} {feed : Feed} {w : Worker}
    (h : (idle false shop feed).boot = (.ok (), w)) : w.Serves .empty :=
  have ⟨hdry, hrebuild, hlistens, _⟩ := boot_spec h
  ⟨hdry, hrebuild, .inr hlistens⟩

/-! ## Requests -/

/-- What begins with a reload: the engine is kept aside without its handles, and the next one gets
its number. -/
theorem begin_spec {previous : Engine} (hlive : w.live = some previous) (after : Snapshot) :
    (w.begin after).dry = w.dry ∧ (w.begin after).ended = w.ended ∧
      (w.begin after).state = .reloading ∧ (w.begin after).live = none ∧
      (w.begin after).shop.ledger = w.shop.ledger.issue ∧
      (w.begin after).shop.greets = w.shop.greets ∧
      (w.begin after).rebuild =
        some ⟨after, w.shop.ledger.issued + 1, previous, previous.resources⟩ := by
  rw [begin, hlive]
  refine ⟨enter_dry _ _, enter_ended _ _, enter_state _ _, rfl, ?_, ?_, ?_⟩
  · simp
  · simp [Workshop.start, Workshop.eject, Workshop.log]
  · simp [Workshop.start, Workshop.eject, Workshop.log, Workshop.ledger]

theorem request_busy (hrebuild : w.rebuild.isSome = true) (snapshot : Snapshot) :
    w.request snapshot = (some (.error .busy), w) := by
  rw [request, refusal, if_pos hrebuild]

theorem request_ended (hrebuild : w.rebuild = none) (hended : w.ended.isSome = true)
    (snapshot : Snapshot) : w.request snapshot = (some (.error .closed), w) := by
  rw [request, refusal, hrebuild, if_neg (by simp), if_pos hended]

theorem request_open (hdry : w.dry = false) (hrebuild : w.rebuild = none) (hended : w.ended = none)
    (snapshot : Snapshot) : w.request snapshot = (none, w.begin snapshot) := by
  rw [request, refusal, hrebuild, hended, if_neg (by simp), if_neg (by simp), hdry]
  exact if_neg (by simp)

/-- **The first half of a reload.** A request that is answered at once is refused and changes
nothing; otherwise an engine is being built. -/
theorem request_spec (h : w.Serves before) {answer : Option (Except ReloadError ReloadOutcome)}
    (hrequest : w.request after = (answer, w')) :
    (∃ e, answer = some (.error e) ∧ w'.Serves before) ∨
    (answer = none ∧ w'.Rebuilds before after) := by
  rcases h.engine with ⟨-, hended⟩ | ⟨-, hended, engine, hlive, hsnapshot⟩
  · rw [request_ended h.rebuild hended] at hrequest
    cases hrequest
    exact .inl ⟨_, rfl, h⟩
  · rw [request_open h.dry h.rebuild hended] at hrequest
    cases hrequest
    obtain ⟨hdry, hend, -, -, -, -, hrebuild⟩ := begin_spec hlive after
    exact .inr ⟨rfl, hdry.trans h.dry, hend.trans hended, _, hrebuild, hsnapshot, rfl⟩

/-- A worker whose last engine fails says so and is gone. -/
theorem die_spec (hdry : w.dry = false) {fault : Fault} {answer : Except ReloadError ReloadOutcome}
    (h : w.die fault = (answer, w')) :
    answer = .error (.fatal fault) ∧ w'.dry = false ∧ w'.rebuild = none ∧ w'.Gone ∧
      w'.shop = w.shop := by
  cases h
  exact ⟨rfl, by simp [hdry, count, emit], rfl, ⟨⟨by simp, rfl⟩, rfl⟩, by simp [count, emit]⟩

/-- The engine with the handles of the one before it, handed on once more. -/
def adopt (engine : Engine) : Option Nat → Engine
  | some generation => { engine with resources := some (generation + 1) }
  | none => engine

@[simp] theorem adopt_number (engine : Engine) (resources : Option Nat) :
    (adopt engine resources).number = engine.number := by
  cases resources <;> rfl

@[simp] theorem adopt_snapshot (engine : Engine) (resources : Option Nat) :
    (adopt engine resources).snapshot = engine.snapshot := by
  cases resources <;> rfl

/-- The answer to a reload after which an engine serves. -/
def takenOver (fingerprint : String) : Option Fault → Except ReloadError ReloadOutcome
  | none => .ok (.applied fingerprint)
  | some fault => .error (.rejected fault)

/-- **What a takeover comes to.** The engine before it is closed.  The new one serves, or it is
closed as well and the worker is gone. -/
theorem takeOver_cases (w : Worker) (r : Rebuild) (engine : Engine) (refused : Option Fault) :
    ∃ shop, shop.ledger = w.shop.ledger.close r.previous.number ∧ shop.greets = w.shop.greets ∧
      ((∃ fault, w.takeOver r engine refused =
          { w with shop := shop.close (adopt engine r.resources) }.die fault) ∨
        ∃ feed, w.takeOver r engine refused = (takenOver engine.snapshot.fingerprint refused,
          { w with
            shop, feed, state := .listening, rebuild := none
            live := some (adopt engine r.resources) })) := by
  obtain ⟨handed, hledger, hgreets, htakeOver⟩ : ∃ handed : Workshop,
      handed.ledger = w.shop.ledger ∧ handed.greets = w.shop.greets ∧
        w.takeOver r engine refused =
          { w with shop := handed }.takeOver { r with resources := none } (adopt engine r.resources)
            refused := by
    cases hresources : r.resources with
    | none =>
      have hsame : { r with resources := none } = r := by rw [← hresources]
      exact ⟨w.shop, rfl, rfl, by rw [hsame]; rfl⟩
    | some generation =>
      refine ⟨(w.shop.inject engine generation).2, w.shop.ledger_inject engine generation, rfl, ?_⟩
      rw [takeOver, hresources]
      rfl
  rw [htakeOver, takeOver]
  simp only [adopt_snapshot]
  have hserve := (handed.close r.previous).ledger_serve (adopt engine r.resources)
  have hserve' := (handed.close r.previous).greets_serve (adopt engine r.resources)
  rw [Workshop.ledger_close, hledger] at hserve
  split
  · next fault served heq =>
    rw [heq] at hserve hserve'
    exact ⟨served, hserve, hserve'.trans hgreets, .inl ⟨fault, rfl⟩⟩
  · next served heq =>
    rw [heq] at hserve hserve'
    refine ⟨served, hserve, hserve'.trans hgreets, .inr ?_⟩
    obtain ⟨feed, hfeed⟩ := enter_eq { w with
      shop := served
      feed := w.feed.measure (·.setNodes engine.snapshot.nodes.length)
      live := some (adopt engine r.resources)
      rebuild := none } .listening
    rw [hfeed]
    -- the outcome is counted and told, which only observers see
    cases refused <;> exact ⟨_, rfl⟩

/-- **What the second half of a reload comes to.** The engine that was asked for takes over, or one
for the snapshot before does, or neither can be built. -/
theorem complete_cases {r : Rebuild} (hrebuild : w.rebuild = some r) :
    (∃ shop, w.complete = { w with shop }.takeOver r
        ⟨r.number, r.snapshot, some 0, w.shop.known r.number (inherited r.previous r.snapshot)⟩
          none ∧
      shop.ledger = w.shop.ledger.build r.number ∧ shop.greets = w.shop.greets) ∨
    ∃ n, n = w.shop.ledger.issued + 1 ∧
      ((∃ fault shop, w.complete = { w with shop }.takeOver r
          ⟨n, r.previous.snapshot, some 0, w.shop.known n (some r.previous.cache)⟩ (some fault) ∧
        shop.ledger = w.shop.ledger.issue.build n ∧ shop.greets = w.shop.greets) ∨
      ∃ fault, ∃ shop : Workshop, w.complete = { w with shop := shop.close r.previous }.die fault ∧
        shop.ledger = w.shop.ledger.issue) := by
  rw [complete, hrebuild]
  dsimp only
  rcases w.shop.finish_cases r.number (inherited r.previous r.snapshot) r.snapshot with
    ⟨fault, failed, hfinish, hfailed, hgreets⟩ | ⟨built, hfinish, hbuilt, hgreets⟩
  all_goals
    rw [hfinish]
    dsimp only
  · -- the engine that was asked for is not built, and one for the snapshot before is begun
    have hstart := failed.ledger_start r.resources (some r.previous.cache) r.previous.snapshot
    rw [hfailed] at hstart
    set started := failed.start r.resources (some r.previous.cache) r.previous.snapshot
    refine .inr ⟨started.1, by rw [← hfailed]; rfl, ?_⟩
    rcases started.2.finish_cases started.1 (some r.previous.cache) r.previous.snapshot with
      ⟨rollback, broken, hfinish, hbroken, -⟩ | ⟨built, hfinish, hbuilt, hgreets'⟩
    all_goals
      rw [hfinish]
      dsimp only
    · exact .inr ⟨rollback, broken, rfl, hbroken.trans hstart⟩
    · rw [Workshop.known_congr (show started.2.greets = w.shop.greets from hgreets)]
      exact .inl ⟨fault, built, rfl, by rw [hbuilt, hstart], hgreets'.trans hgreets⟩
  · exact .inl ⟨built, rfl, hbuilt, hgreets⟩

/-- **An engine that takes over** serves, or the worker is gone.  Either way the engine before it is
closed, and so is the new one where it does not serve. -/
theorem takeOver_spec (hdry : w.dry = false) (hended : w.ended = none) {r : Rebuild}
    {engine : Engine} {refused : Option Fault} {answer : Except ReloadError ReloadOutcome}
    (hsnapshot : engine.snapshot = refused.elim after fun _ => before)
    (h : w.takeOver r engine refused = (answer, w')) :
    w'.dry = false ∧ w'.rebuild = none ∧ Reloaded before after answer w' ∧
      (w.shop.ledger.Balanced [r.previous.number, engine.number] → w'.Tidy) := by
  obtain ⟨shop, hshop, -, ⟨fault, htakeOver⟩ | ⟨feed, htakeOver⟩⟩ :=
    w.takeOver_cases r engine refused
  all_goals rw [htakeOver] at h
  · obtain ⟨rfl, hdry', hrest, hgone, hclosed⟩ := die_spec (by exact hdry) h
    refine ⟨hdry', hrest, hgone, fun hbalanced => tidy_of_rest hrest ?_⟩
    rw [hclosed, hgone.2, Workshop.ledger_close, hshop, adopt_number]
    exact hbalanced.close.close
  · cases h
    refine ⟨hdry, rfl, ?_, fun hbalanced => tidy_of_rest rfl ?_⟩
    · cases refused <;> simp_all [takenOver, Reloaded, Listens]
    · simpa [hshop] using hbalanced.close

/-- **The second half of a reload** answers what has become of it, and leaves no engine open but the
one that serves. -/
theorem complete_reloads (h : w.Rebuilds before after)
    {answer : Except ReloadError ReloadOutcome} (hcomplete : w.complete = (answer, w')) :
    w'.dry = false ∧ w'.rebuild = none ∧ Reloaded before after answer w' ∧ (w.Tidy → w'.Tidy) := by
  obtain ⟨r, hrebuild, rfl, rfl⟩ := h.rebuild
  have hopen (htidy : w.Tidy) : w.shop.ledger.Balanced [r.previous.number] :=
    held_of_rebuild hrebuild ▸ htidy.balanced
  rcases complete_cases hrebuild with
    ⟨shop, hcases, hbuilt, -⟩ |
    ⟨n, rfl, ⟨fault, shop, hcases, hbuilt, -⟩ | ⟨rollback, shop, hcases, hbroken⟩⟩
  all_goals rw [hcases] at hcomplete
  · obtain ⟨hdry, hrest, hreloaded, htidy'⟩ :=
      takeOver_spec (by exact h.dry) (by exact h.ended) (by rfl) hcomplete
    refine ⟨hdry, hrest, hreloaded, fun htidy => htidy' ?_⟩
    rw [hbuilt]
    exact (hopen htidy).build (htidy.fresh r hrebuild)
  · obtain ⟨hdry, hrest, hreloaded, htidy'⟩ :=
      takeOver_spec (by exact h.dry) (by exact h.ended) (by rfl) hcomplete
    refine ⟨hdry, hrest, hreloaded, fun htidy => htidy' ?_⟩
    rw [hbuilt]
    exact (hopen htidy).issue.build (hopen htidy).fresh_issue
  · obtain ⟨rfl, hdry, hrest, hgone, hshop⟩ := die_spec (by exact h.dry) hcomplete
    refine ⟨hdry, hrest, hgone, fun htidy => tidy_of_rest hrest ?_⟩
    rw [hshop, hgone.2, Workshop.ledger_close, hbroken]
    exact (hopen htidy).issue.close

/-- **The second half of a reload** ends with the engine that was asked for or with the one before.
-/
theorem complete_spec (h : w.Rebuilds before after) {result : Except ReloadError ReloadOutcome}
    (hcomplete : w.complete = (result, w')) :
    (∃ outcome, result = .ok outcome ∧ w'.Serves after) ∨
    (∃ e, result = .error e ∧ w'.Serves before) := by
  obtain ⟨hdry, hrest, hreloaded, -⟩ := complete_reloads h hcomplete
  rcases hreloaded.engine with ⟨⟨outcome, rfl⟩, hengine⟩ | ⟨⟨e, rfl⟩, hengine⟩
  · exact .inl ⟨outcome, rfl, hdry, hrest, .inr hengine⟩
  · exact .inr ⟨e, rfl, hdry, hrest, hengine.imp_left And.left⟩

end Worker
end ProxyPlane
