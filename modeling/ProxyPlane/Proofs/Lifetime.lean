import ProxyPlane.Proofs.Worker

/-!
# The lifetime of a worker

A worker that has started takes one reload after the other until it is shut down, its last client
goes away, or nothing serves any more.  Which of its acts fail is up to the world, and may change
before every move.

## What is here

* `Worker.Move`, `Worker.Started` — the moves of a lifetime, and the workers it leads through.
* `Worker.AtRest`, `Worker.UnderWay` — a worker between two reloads, and in the middle of one.
* `Worker.Started.sound` — **what every move preserves**: a started worker is at rest or under way,
  and has closed all engines but the one it holds.
* `Worker.Started.reload_atomic` — **a reload happens or does not**: its answer says which snapshot
  serves, and after the end every request is refused and nothing is built.
* `Worker.Started.conserves` — **engines are conserved**: each is closed once, the one that serves
  not yet, and when the worker has ended all of them are.
-/

set_option autoImplicit false
namespace ProxyPlane
namespace Worker

/-! ## Moves -/

/-- What can happen to a worker. -/
inductive Move
  /-- Other faults are to come. -/
  | arm (armed : Armed)
  /-- A client asks for a snapshot. -/
  | request (snapshot : Snapshot)
  /-- The reload under way is brought to its end. -/
  | complete
  | shutdown
  /-- The last client goes away.  The reload under way comes first here, too. -/
  | abandon

/-- What a move comes to. -/
def move (w : Worker) : Move → Worker
  | .arm armed => { w with shop := { w.shop with armed } }
  | .request snapshot => (w.request snapshot).2
  | .complete => w.complete.2
  | .shutdown => w.shutdown.2
  | .abandon => w.shutdown.2

/-- One move after the other. -/
def after (w : Worker) (moves : List Move) : Worker := moves.foldl move w

/-- A worker that has started in a new workshop, after any moves. -/
inductive Started : Worker → Prop
  | boot {w : Worker} (armed : Armed) (occupied : Option String) (feed : Feed)
    (h : (idle false (.fresh armed occupied) feed).boot = (.ok (), w)) : Started w
  | move {w : Worker} (h : Started w) (m : Move) : Started (w.move m)

variable {w : Worker}

/-- A request from its beginning to its end is one of these moves or two. -/
theorem Started.submit (h : w.Started) (snapshot : Snapshot) : (w.submit snapshot).2.Started := by
  have hrequest := h.move (.request snapshot)
  rw [Worker.move] at hrequest
  rw [Worker.submit]
  split
  · next heq =>
    rw [heq] at hrequest
    exact hrequest
  · next heq =>
    rw [heq] at hrequest
    exact hrequest.move .complete

/-! ## At rest and under way -/

/-- A worker between two reloads: an engine serves, or the worker is gone. -/
structure AtRest (w : Worker) : Prop where
  dry : w.dry = false
  rebuild : w.rebuild = none
  engine : w.Gone ∨ ∃ snapshot, w.Listens snapshot

/-- A worker in the middle of a reload. -/
structure UnderWay (w : Worker) : Prop where
  state : w.state = .reloading
  live : w.live = none
  rebuilds : ∃ before after, w.Rebuilds before after

theorem Reloaded.atRest {before after : Snapshot} {answer : Except ReloadError ReloadOutcome}
    (h : Reloaded before after answer w) : w.Gone ∨ ∃ snapshot, w.Listens snapshot := by
  rcases h.engine with ⟨-, hlistens⟩ | ⟨-, hengine⟩
  · exact .inr ⟨after, hlistens⟩
  · exact hengine.imp_right fun hlistens => ⟨before, hlistens⟩

theorem UnderWay.isSome_rebuild (h : w.UnderWay) : w.rebuild.isSome = true := by
  obtain ⟨before, after, hrebuilds⟩ := h.rebuilds
  obtain ⟨r, hr, -⟩ := hrebuilds.rebuild
  rw [hr]
  rfl

/-- A worker that serves takes a request up. -/
theorem AtRest.begin (h : w.AtRest) {before : Snapshot} (hlistens : w.Listens before)
    (after : Snapshot) : w.request after = (none, w.begin after) ∧
      (w.begin after).Rebuilds before after ∧ (w.begin after).UnderWay ∧
      (w.Tidy → (w.begin after).Tidy) := by
  obtain ⟨-, hended, engine, hlive, rfl⟩ := hlistens
  obtain ⟨hdry, hend, hstate, hnone, hledger, -, hrebuild⟩ := begin_spec hlive after
  have hrebuilds : (w.begin after).Rebuilds engine.snapshot after :=
    ⟨hdry.trans h.dry, hend.trans hended, _, hrebuild, rfl, rfl⟩
  refine ⟨request_open h.dry h.rebuild hended _, hrebuilds, ⟨hstate, hnone, _, _, hrebuilds⟩,
    fun htidy => ⟨?_, fun r hr => ?_⟩⟩
  · have hbalanced := htidy.balanced
    rw [held_of_live h.rebuild, hlive] at hbalanced
    rw [hledger, held_of_rebuild hrebuild]
    exact hbalanced.issue
  · cases hrebuild.symm.trans hr
    rw [hledger]
    exact htidy.balanced.fresh_issue

/-- The end of a reload. -/
theorem UnderWay.complete (h : w.UnderWay) : w.complete.2.AtRest ∧ (w.Tidy → w.complete.2.Tidy) :=
  have ⟨_, _, hrebuilds⟩ := h.rebuilds
  have ⟨hdry, hrest, hreloaded, htidy⟩ := complete_reloads hrebuilds rfl
  ⟨⟨hdry, hrest, hreloaded.atRest⟩, htidy⟩

theorem shutdown_eq (hrebuild : w.rebuild = none) : w.shutdown =
    if w.ended.isSome then (.error .closed, w)
    else (.ok (), { w.close with ended := some .shutdown }) := by
  simp only [Worker.shutdown, hrebuild, Option.isSome_none, Bool.false_eq_true, if_false]

/-- A worker at rest closes its engine to shut down. -/
theorem AtRest.shutdown (h : w.AtRest) :
    w.shutdown.2.AtRest ∧ w.shutdown.2.Gone ∧ (w.Tidy → w.shutdown.2.Tidy) := by
  rw [shutdown_eq h.rebuild]
  rcases h.engine with hgone | ⟨snapshot, -, hended, engine, hlive, -⟩
  · rw [if_pos hgone.1.2]
    exact ⟨h, hgone, id⟩
  · rw [hended, if_neg (by simp)]
    have hgone : ({ w.close with ended := some .shutdown } : Worker).Gone := by
      simp [Gone, Closed, close]
    have hrest : w.close.rebuild = none := by simp [close, h.rebuild]
    refine ⟨⟨by simp [close, h.dry], hrest, .inl hgone⟩, hgone, fun htidy => tidy_of_rest hrest ?_⟩
    have hbalanced := htidy.balanced
    rw [held_of_live h.rebuild, hlive] at hbalanced
    rw [hgone.2]
    simpa [close, hlive] using hbalanced.close

/-- A reload under way is brought to its end before the worker shuts down. -/
theorem UnderWay.shutdown (h : w.UnderWay) : w.shutdown = w.complete.2.shutdown := by
  rw [shutdown_eq h.complete.1.rebuild, Worker.shutdown, if_pos h.isSome_rebuild]

/-! ## What every move preserves -/

/-- A worker at rest or under way that has closed all engines but the one it holds. -/
structure Sound (w : Worker) : Prop where
  phase : w.AtRest ∨ w.UnderWay
  tidy : w.Tidy

theorem sound_boot {armed : Armed} {occupied : Option String} {feed : Feed}
    (h : (idle false (.fresh armed occupied) feed).boot = (.ok (), w)) : w.Sound := by
  obtain ⟨hdry, hrebuild, hlistens, n, hnumber, hlive, hledger⟩ := boot_spec h
  refine ⟨.inl ⟨hdry, hrebuild, .inr ⟨_, hlistens⟩⟩, tidy_of_rest hrebuild ?_⟩
  have hfresh : (Workshop.fresh armed occupied).ledger.Balanced [] :=
    ⟨by simp, by simp, by simp⟩
  rw [hledger, hlive, Option.map_some, hnumber]
  exact hfresh.issue.build hfresh.fresh_issue

theorem Sound.arm (h : w.Sound) (armed : Armed) : (w.move (.arm armed)).Sound := by
  refine ⟨h.phase.imp (fun h => ⟨h.dry, h.rebuild, h.engine⟩) fun h => ⟨h.state, h.live, ?_⟩,
    h.tidy.balanced, h.tidy.fresh⟩
  obtain ⟨before, after, hrebuilds⟩ := h.rebuilds
  exact ⟨before, after, hrebuilds.dry, hrebuilds.ended, hrebuilds.rebuild⟩

theorem Sound.request (h : w.Sound) (snapshot : Snapshot) : (w.request snapshot).2.Sound := by
  rcases h.phase with hrest | hunder
  · rcases hrest.engine with hgone | ⟨before, hlistens⟩
    · rw [request_ended hrest.rebuild hgone.1.2]
      exact h
    · obtain ⟨hrequest, -, hunder, htidy⟩ := hrest.begin hlistens snapshot
      rw [hrequest]
      exact ⟨.inr hunder, htidy h.tidy⟩
  · rw [request_busy hunder.isSome_rebuild]
    exact h

theorem Sound.complete (h : w.Sound) : w.complete.2.Sound := by
  rcases h.phase with hrest | hunder
  · rw [Worker.complete, hrest.rebuild]
    exact h
  · exact ⟨.inl hunder.complete.1, hunder.complete.2 h.tidy⟩

/-- Whatever is under way, a worker that is shut down is gone. -/
theorem Sound.shutdown (h : w.Sound) :
    w.shutdown.2.AtRest ∧ w.shutdown.2.Gone ∧ w.shutdown.2.Sound := by
  rcases h.phase with hrest | hunder
  · obtain ⟨hrest', hgone, htidy⟩ := hrest.shutdown
    exact ⟨hrest', hgone, .inl hrest', htidy h.tidy⟩
  · obtain ⟨hrest', hgone, htidy⟩ := hunder.complete.1.shutdown
    rw [hunder.shutdown]
    exact ⟨hrest', hgone, .inl hrest', htidy (hunder.complete.2 h.tidy)⟩

theorem Sound.move (h : w.Sound) (m : Move) : (w.move m).Sound := by
  cases m with
  | arm armed => exact h.arm armed
  | request snapshot => exact h.request snapshot
  | complete => exact h.complete
  | shutdown => exact h.shutdown.2.2
  | abandon => exact h.shutdown.2.2

/-- **What every move preserves** holds of every started worker. -/
theorem Started.sound (h : w.Started) : w.Sound := by
  induction h with
  | boot armed occupied feed h => exact sound_boot h
  | move _ m ih => exact ih.move m

/-! ## After the end -/

/-- From now on every request is refused, whatever moves come before it, and no engine is built or
touched any more. -/
def Over (w : Worker) : Prop :=
  ∀ moves snapshot, (w.after moves).submit snapshot = (.error .closed, w.after moves) ∧
    (w.after moves).shop.attempts = w.shop.attempts ∧ (w.after moves).shop.journal = w.shop.journal

/-- Only the faults to come change once a worker is gone. -/
theorem AtRest.move_of_gone (h : w.AtRest) (hgone : w.Gone) (m : Move) :
    (w.move m).AtRest ∧ (w.move m).Gone ∧ (w.move m).shop.attempts = w.shop.attempts ∧
      (w.move m).shop.journal = w.shop.journal := by
  have hstill : (∃ armed, w.move m = { w with shop := { w.shop with armed } }) ∨ w.move m = w := by
    cases m with
    | arm armed => exact .inl ⟨armed, rfl⟩
    | request snapshot => exact .inr (by rw [move, request_ended h.rebuild hgone.1.2])
    | complete => exact .inr (by rw [move, Worker.complete, h.rebuild])
    | shutdown | abandon =>
      refine .inr ?_
      rw [move, shutdown_eq h.rebuild, if_pos hgone.1.2]
  rcases hstill with ⟨armed, hmove⟩ | hmove
  · rw [hmove]
    exact ⟨⟨h.dry, h.rebuild, h.engine⟩, hgone, rfl, rfl⟩
  · rw [hmove]
    exact ⟨h, hgone, rfl, rfl⟩

theorem AtRest.over (h : w.AtRest) (hgone : w.Gone) : w.Over := by
  intro moves snapshot
  induction moves generalizing w with
  | nil =>
    refine ⟨?_, rfl, rfl⟩
    rw [after, List.foldl_nil, submit, request_ended h.rebuild hgone.1.2]
  | cons m rest ih =>
    obtain ⟨hrest, hgone', hattempts, hjournal⟩ := h.move_of_gone hgone m
    obtain ⟨hsubmit, hattempts', hjournal'⟩ := ih hrest hgone'
    exact ⟨hsubmit, hattempts'.trans hattempts, hjournal'.trans hjournal⟩

/-! ## Reloads are atomic -/

/-- What a request comes to: a reload that does what it answers, or nothing at all. -/
theorem Sound.submit (h : w.Sound) (snapshot : Snapshot) :
    (∃ before, w.Listens before ∧ (w.submit snapshot).2.AtRest ∧
      Reloaded before snapshot (w.submit snapshot).1 (w.submit snapshot).2) ∨
    (w.rebuild.isSome = true ∧ w.submit snapshot = (.error .busy, w)) ∨
    (w.ended.isSome = true ∧ w.submit snapshot = (.error .closed, w)) := by
  rcases h.phase with hrest | hunder
  · rcases hrest.engine with hgone | ⟨before, hlistens⟩
    · refine .inr (.inr ⟨hgone.1.2, ?_⟩)
      rw [Worker.submit, request_ended hrest.rebuild hgone.1.2]
    · refine .inl ⟨before, hlistens, ?_⟩
      obtain ⟨hrequest, hrebuilds, -⟩ := hrest.begin hlistens snapshot
      obtain ⟨hdry, hrest, hreloaded, -⟩ := complete_reloads hrebuilds rfl
      rw [Worker.submit, hrequest]
      exact ⟨⟨hdry, hrest, hreloaded.atRest⟩, hreloaded⟩
  · refine .inr (.inl ⟨hunder.isSome_rebuild, ?_⟩)
    rw [Worker.submit, request_busy hunder.isSome_rebuild]

/-- **A reload happens or does not.** A request is refused while another one is under way and after
the end; otherwise its answer says which snapshot serves, the one that was asked for or the one
before, or that nothing does.  After that, or once the worker is shut down or left alone, every
request is refused and nothing is built. -/
theorem Started.reload_atomic (h : w.Started) :
    (∀ snapshot,
      (∃ before, w.Listens before ∧
        Reloaded before snapshot (w.submit snapshot).1 (w.submit snapshot).2) ∨
      (w.rebuild.isSome = true ∧ w.submit snapshot = (.error .busy, w)) ∨
      (w.ended.isSome = true ∧ w.submit snapshot = (.error .closed, w))) ∧
    (∀ snapshot fault, (w.submit snapshot).1 = .error (.fatal fault) →
      (w.submit snapshot).2.Over) ∧
    (w.move .shutdown).Over ∧ (w.move .abandon).Over := by
  obtain ⟨hrest, hgone, -⟩ := h.sound.shutdown
  refine ⟨fun snapshot => ?_, fun snapshot fault hfatal => ?_, hrest.over hgone, hrest.over hgone⟩
  · refine (h.sound.submit snapshot).imp_left ?_
    rintro ⟨before, hlistens, -, hreloaded⟩
    exact ⟨before, hlistens, hreloaded⟩
  · rcases h.sound.submit snapshot with ⟨before, -, hrest, hreloaded⟩ | ⟨-, hbusy⟩ | ⟨-, hclosed⟩
    · rw [hfatal] at hreloaded
      exact hrest.over hreloaded
    · cases hfatal.symm.trans (congrArg Prod.fst hbusy)
    · cases hfatal.symm.trans (congrArg Prod.fst hclosed)

/-- A first start in fair weather. -/
def booted : Worker := (idle false (.fresh .none none) (.ofBus .standard)).boot.2

theorem booted_started : booted.Started :=
  .boot .none none (.ofBus .standard) (Prod.ext (by rfl) rfl)

/-- A worker whose next so many builds fail. -/
def failing (builds : Nat) : Worker := booted.move (.arm { Armed.none with builds })

/-- One build that fails is made good; after two of them nothing serves any more. -/
theorem reload_atomic_failing :
    (failing 1).Started ∧ ((failing 1).submit .empty).1 = .error (.rejected (.build 2)) ∧
      (∃ before, (failing 1).Listens before ∧ ((failing 1).submit .empty).2.Listens before) ∧
    (failing 2).Started ∧ ((failing 2).submit .empty).1 = .error (.fatal (.build 3)) ∧
      ((failing 2).submit .empty).2.Gone ∧ ((failing 2).submit .empty).2.Over := by
  have hone : (failing 1).Started := booted_started.move _
  have htwo : (failing 2).Started := booted_started.move _
  have hrejected : ((failing 1).submit .empty).1 = .error (.rejected (.build 2)) := by rfl
  have hfatal : ((failing 2).submit .empty).1 = .error (.fatal (.build 3)) := by rfl
  refine ⟨hone, hrejected, ?_, htwo, hfatal, ?_, htwo.reload_atomic.2.1 .empty _ hfatal⟩
  · rcases hone.reload_atomic.1 .empty with
      ⟨before, hlistens, hreloaded⟩ | ⟨-, hbusy⟩ | ⟨-, hclosed⟩
    · rw [hrejected] at hreloaded
      exact ⟨before, hlistens, hreloaded⟩
    · cases hrejected.symm.trans (congrArg Prod.fst hbusy)
    · cases hrejected.symm.trans (congrArg Prod.fst hclosed)
  · rcases htwo.reload_atomic.1 .empty with ⟨before, -, hreloaded⟩ | ⟨-, hbusy⟩ | ⟨-, hclosed⟩
    · rw [hfatal] at hreloaded
      exact hreloaded
    · cases hfatal.symm.trans (congrArg Prod.fst hbusy)
    · cases hfatal.symm.trans (congrArg Prod.fst hclosed)

/-! ## Engines are conserved -/

/-- **Engines are conserved.** Between two reloads the worker listens exactly while an engine
serves; that engine has not been closed, and every other one that was ever built was closed once.
A worker that is shut down or left alone ends, and one that has ended has closed them all. -/
theorem Started.conserves (h : w.Started) (hrest : w.rebuild = none) :
    (w.state = .listening ↔ w.live.isSome = true) ∧
    (w.shop.built.map Prod.fst).Nodup ∧
    (∀ engine, w.live = some engine → engine.number ∈ w.shop.built.map Prod.fst ∧
      w.shop.journal.count (.close engine.number) = 0) ∧
    (∀ n ∈ w.shop.built.map Prod.fst, w.live.map Engine.number ≠ some n →
      w.shop.journal.count (.close n) = 1) ∧
    (w.ended.isSome = true → w.state = .closed ∧
      ∀ n ∈ w.shop.built.map Prod.fst, w.shop.journal.count (.close n) = 1) ∧
    (w.move .shutdown).ended.isSome = true ∧ (w.move .abandon).ended.isSome = true := by
  have hengine : w.Gone ∨ ∃ snapshot, w.Listens snapshot := by
    rcases h.sound.phase with hw | hunder
    · exact hw.engine
    · exact absurd hunder.isSome_rebuild (by simp [hrest])
  have hbalanced := h.sound.tidy.balanced
  rw [held_of_live hrest] at hbalanced
  have hcount (n : Nat) : w.shop.journal.count (.close n) =
      if n ∈ w.shop.built.map Prod.fst ∧ w.live.map Engine.number ≠ some n then 1 else 0 := by
    rw [w.shop.count_journal_close, hbalanced.count_closed n]
    exact if_congr (and_congr_right fun _ => not_congr Option.mem_toList) rfl rfl
  have hgone : w.shutdown.2.Gone := h.sound.shutdown.2.1
  refine ⟨?_, hbalanced.distinct, fun engine hlive => ⟨hbalanced.mem_built ?_, ?_⟩,
    fun n hn hother => ?_, fun hended => ?_, hgone.1.2, hgone.1.2⟩
  · rcases hengine with ⟨⟨hstate, -⟩, hlive⟩ | ⟨snapshot, hstate, -, engine, hlive, -⟩
    · simp [hstate, hlive]
    · simp [hstate, hlive]
  · simp [hlive]
  · rw [hcount, if_neg fun hn => hn.2 (by rw [hlive]; rfl)]
  · rw [hcount, if_pos ⟨hn, hother⟩]
  · rcases hengine with ⟨⟨hstate, -⟩, hlive⟩ | ⟨snapshot, -, hopen, -⟩
    · exact ⟨hstate, fun n hn => by rw [hcount, if_pos ⟨hn, by simp [hlive]⟩]⟩
    · exact absurd hended (by simp [hopen])

/-- A worker that has applied one snapshot, refused another one, and failed to serve the third. -/
def spent : Worker :=
  let applied := (booted.submit .empty).2
  let refused := ((applied.move (.arm { Armed.none with builds := 1 })).submit .empty).2
  ((refused.move (.arm { Armed.none with serves := 1 })).submit .empty).2

/-- Four engines were built before nothing served any more, and all four are closed. -/
theorem conserves_spent :
    spent.Started ∧ spent.rebuild = none ∧ spent.shop.built.map Prod.fst = [1, 2, 4, 5] ∧
      spent.state = .closed ∧
      ∀ n ∈ [1, 2, 4, 5], spent.shop.journal.count (.close n) = 1 := by
  have hstarted : spent.Started :=
    ((((booted_started.submit .empty).move _).submit .empty).move _).submit .empty
  have hrest : spent.rebuild = none := by rfl
  have hbuilt : spent.shop.built.map Prod.fst = [1, 2, 4, 5] := by rfl
  obtain ⟨-, -, -, -, hended, -⟩ := hstarted.conserves hrest
  obtain ⟨hstate, hclosed⟩ := hended (by rfl)
  exact ⟨hstarted, hrest, hbuilt, hstate, fun n hn => hclosed n (hbuilt ▸ hn)⟩

end Worker
end ProxyPlane
