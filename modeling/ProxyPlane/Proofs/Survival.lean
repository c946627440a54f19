import ProxyPlane.Proofs.Drift
import ProxyPlane.Proofs.History

/-!
# What is recorded survives

The record of what runs is taken apart to be kept: a stamp into two columns, each of which may be
empty, and the groups and their versions into texts with commas.  Nothing is lost by that as long as
all numbers are 64-bit words, and nothing but the two transactions that are about the record ever
touches it.  So it is the same record, and the same drift is found, after any number of other
transactions, commits and restarts.

## What is here

* `RunningState.state_row_iff` — when a record that is kept is read back as it was.
* `Transaction.LeavesRecord t` — `t` does not touch the record, whether or not it succeeds;
  `createSection_leavesRecord` and the other `…_leavesRecord` — so it is with each transaction,
  and `Alteration.leavesRecord` with all that can be done to a store.
* `Session.Move`, `Session.after` — what can become of a session; `Session.Records` — what is
  recorded in it, which moves keep.
* `Session.record_survives` — what is read after any moves is what was saved, and so is the drift.
-/

set_option autoImplicit false
namespace ProxyPlane

/-! ## The record and its columns -/

/-- A stamp is put together again from its columns, whether or not there is one. -/
theorem Stamp.ofColumns?_columns (stamp : Option Stamp) :
    Stamp.ofColumns? (stamp.map (·.id)) (stamp.map (·.version)) = stamp := by
  cases stamp <;> rfl

/-- **A record is read back as it was** exactly if the identifiers of its groups are 64-bit words.
No groups are kept as the empty text, and none are read back from it. -/
theorem RunningState.state_row_iff (state : RunningState) :
    state.row.state = state ↔ ∀ id ∈ state.groups, Word id := by
  have hrow : state.row.state = { state with groups := readIds (joinNumbers state.groups) } := by
    simp only [RunningState.row, RunningRow.state, Stamp.ofColumns?_columns]
  have hgroups : state.row.state = state ↔ readIds (joinNumbers state.groups) = state.groups := by
    rw [hrow]
    exact ⟨congrArg RunningState.groups, fun h => by rw [h]⟩
  rw [hgroups, readIds_joinNumbers_eq_iff]

/-! ## Transactions that leave the record alone -/

namespace Transaction

variable {α β : Type} {kind : SectionKind} {id : Id}

/-- A transaction does not touch the record of what runs, whether or not it succeeds. -/
def LeavesRecord (t : Transaction α) : Prop := ∀ s, t.Leaves s fun s' => s'.running = s.running

/-! ### Parts -/

theorem leavesRecord_pure (a : α) : (pure a : Transaction α).LeavesRecord := fun _ => rfl

theorem leavesRecord_throw (e : StoreError) : (throw e : Transaction α).LeavesRecord := fun _ => rfl

theorem leavesRecord_check (c : Except StoreError α) : (check c).LeavesRecord :=
  fun _ => leaves_check.2 rfl

theorem leavesRecord_modify {f : Store → Store} (hf : ∀ s, (f s).running = s.running) :
    (modify f : Transaction PUnit).LeavesRecord := hf

theorem LeavesRecord.bind {t : Transaction α} {f : α → Transaction β} (h : t.LeavesRecord)
    (hf : ∀ a, (f a).LeavesRecord) : (t >>= f).LeavesRecord := by
  intro s
  refine Leaves.bind (h s) ((h s).ensures.mono fun a s' hs' => ?_)
  exact (hf a s').trans hs'

theorem LeavesRecord.map {t : Transaction α} (h : t.LeavesRecord) (f : α → β) :
    (f <$> t).LeavesRecord := by
  rw [← bind_pure_comp]
  exact h.bind fun a => leavesRecord_pure (f a)

/-- What comes after a look at the store has to leave the record alone in that store only. -/
theorem leavesRecord_look {f : Store → Transaction α}
    (hf : ∀ s, (f s).Leaves s fun s' => s'.running = s.running) : (get >>= f).LeavesRecord :=
  fun s => Leaves.bind (leaves_get.2 rfl) (ensures_get.2 (hf s))

/-- A store is put in the place of the one that was looked at. -/
theorem leavesRecord_put {f : Store → Store} {t : Store → Transaction α}
    (hf : ∀ s, (f s).running = s.running) (ht : ∀ s, (t s).LeavesRecord) :
    (get >>= fun s => set (f s) >>= fun _ => t s).LeavesRecord :=
  leavesRecord_look fun s =>
    Leaves.bind (leaves_set.2 (hf s)) (ensures_set.2 ((ht s (f s)).trans (hf s)))

theorem leavesRecord_forM {xs : List β} {f : β → Transaction PUnit}
    (hf : ∀ x, (f x).LeavesRecord) : (xs.forM f).LeavesRecord := by
  induction xs with
  | nil => exact leavesRecord_pure _
  | cons x rest ih => exact (hf x).bind fun _ => ih

/-! ### Sections -/

theorem loadSection_leavesRecord : (loadSection kind id).LeavesRecord :=
  leavesRecord_look fun _ => leaves_require.2 rfl

theorem putSections_leavesRecord (t : Table Section) : (putSections kind t).LeavesRecord :=
  leavesRecord_modify fun _ => rfl

theorem createSection_leavesRecord (name body : String) :
    (createSection kind name body).LeavesRecord :=
  leavesRecord_look fun s => ((putSections_leavesRecord _).bind fun _ => loadSection_leavesRecord) s

theorem editSection_leavesRecord (f : Section → Section) : (editSection kind id f).LeavesRecord :=
  leavesRecord_look fun s => ((putSections_leavesRecord _).bind fun _ => loadSection_leavesRecord) s

theorem selectSection_leavesRecord : (selectSection kind id).LeavesRecord :=
  loadSection_leavesRecord.bind fun _ => leavesRecord_look fun s =>
    ((putSections_leavesRecord _).bind fun _ => leavesRecord_pure _) s

theorem removeSection_leavesRecord : (removeSection kind id).LeavesRecord :=
  loadSection_leavesRecord.bind fun _ => leavesRecord_look fun s =>
    ((putSections_leavesRecord _).bind fun _ => leavesRecord_pure _) s

/-! ### Nodes -/

theorem bump_leavesRecord (ids : List Id) : (bump ids).LeavesRecord :=
  leavesRecord_modify fun _ => rfl

theorem node_leavesRecord : (node id).LeavesRecord :=
  leavesRecord_look fun _ => leaves_require.2 rfl

theorem freeNodeTag_leavesRecord (tag : String) (owner : Option Id) :
    (freeNodeTag tag owner).LeavesRecord := fun _ => leaves_freeNodeTag tag owner rfl

theorem importNode_leavesRecord (new : NewNode) (owner : Option Id) :
    (importNode new owner).LeavesRecord := by
  intro s
  obtain heq | ⟨endpoint, htakes⟩ := importNode_takes (s := s) new owner
  · rw [Leaves, heq]
  · rw [Leaves, htakes.store]

/-- An import goes on from the store that a failure has left behind. -/
theorem importNodes_leavesRecord (owner : Option Id) (abort : Bool) (news : List NewNode) :
    (importNodes owner abort news).LeavesRecord := by
  induction news with
  | nil => exact leavesRecord_pure _
  | cons new rest ih =>
    have hrest : ∀ outcome : Except StoreError Node, (do
        return ⟨new.link, outcome⟩ :: (← importNodes owner abort rest)
        : Transaction (List Imported)).LeavesRecord :=
      fun _ => ih.bind fun _ => leavesRecord_pure _
    rw [importNodes]
    refine LeavesRecord.bind (fun s => ?_) fun outcome => ?_
    · rw [Leaves, on_caught]
      exact importNode_leavesRecord new owner s
    · split
      · split
        · exact LeavesRecord.bind (leavesRecord_throw _) fun _ => hrest _
        · exact hrest _
      · exact hrest outcome

theorem removeNodes_leavesRecord (ids : List Id) : (removeNodes ids).LeavesRecord :=
  leavesRecord_put (fun _ => rfl) fun _ => (bump_leavesRecord _).bind fun _ => leavesRecord_pure _

theorem tagNode_leavesRecord (tag : String) : (tagNode id tag).LeavesRecord := by
  refine (leavesRecord_check _).bind fun _ => (freeNodeTag_leavesRecord _ _).bind fun _ =>
    node_leavesRecord.bind fun row => ?_
  split
  · exact leavesRecord_pure row
  · refine .bind (leavesRecord_modify fun _ => rfl) fun _ => leavesRecord_look fun s => ?_
    exact ((bump_leavesRecord _).bind fun _ => node_leavesRecord) s

/-! ### Subscriptions -/

theorem subscription_leavesRecord : (subscription id).LeavesRecord :=
  leavesRecord_look fun _ => leaves_require.2 rfl

theorem freeSubscriptionTag_leavesRecord (tag : String) (owner : Option Id) :
    (freeSubscriptionTag tag owner).LeavesRecord := by
  refine leavesRecord_look fun s => ?_
  split
  · split <;> rfl
  · rfl

theorem createSubscription_leavesRecord (link : String) (tag : Option String) :
    (createSubscription link tag).LeavesRecord := by
  unfold createSubscription
  extract_lets rest
  have hrest : ∀ u, (rest u).LeavesRecord := fun _ =>
    leavesRecord_put (fun _ => rfl) fun _ => subscription_leavesRecord
  refine (leavesRecord_check _).bind fun _ => ?_
  split
  · refine (leavesRecord_check _).bind fun _ => ?_
    exact (freeSubscriptionTag_leavesRecord _ _).bind hrest
  · exact hrest ()

theorem replaceNodes_leavesRecord (links : List String) : (replaceNodes id links).LeavesRecord :=
  subscription_leavesRecord.bind fun _ => leavesRecord_put (fun _ => rfl) fun _ =>
    (importNodes_leavesRecord _ _ _).bind fun _ =>
      (bump_leavesRecord _).bind fun _ => leavesRecord_pure _

theorem editSubscription_leavesRecord (f : Subscription → Subscription) :
    (editSubscription id f).LeavesRecord :=
  .bind (leavesRecord_modify fun _ => rfl) fun _ => subscription_leavesRecord

theorem setStatus_leavesRecord (status : String) : (setStatus id status).LeavesRecord :=
  (editSubscription_leavesRecord _).bind fun _ => leavesRecord_pure _

theorem removeSubscriptions_leavesRecord (ids : List Id) : (removeSubscriptions ids).LeavesRecord :=
  leavesRecord_put (fun _ => rfl) fun _ => (bump_leavesRecord _).bind fun _ => leavesRecord_pure _

theorem tagSubscription_leavesRecord (tag : String) : (tagSubscription id tag).LeavesRecord :=
  (leavesRecord_check _).bind fun _ => (freeSubscriptionTag_leavesRecord _ _).bind fun _ =>
    subscription_leavesRecord.bind fun _ => editSubscription_leavesRecord _

/-! ### Groups -/

theorem group_leavesRecord : (group id).LeavesRecord :=
  leavesRecord_look fun _ => leaves_require.2 rfl

theorem freeGroupName_leavesRecord (name : String) (owner : Option Id) :
    (freeGroupName name owner).LeavesRecord := by
  refine leavesRecord_look fun s => ?_
  split
  · split <;> rfl
  · rfl

theorem createGroup_leavesRecord (name policy : String) (params : List PolicyParam) :
    (createGroup name policy params).LeavesRecord :=
  (leavesRecord_check _).bind fun _ => (freeGroupName_leavesRecord _ _).bind fun _ =>
    leavesRecord_put (fun _ => rfl) fun _ => group_leavesRecord

theorem editGroup_leavesRecord (f : Group → Group) : (editGroup id f).LeavesRecord :=
  leavesRecord_modify fun _ => rfl

theorem bumpGroup_leavesRecord : (bumpGroup id).LeavesRecord :=
  (bump_leavesRecord _).bind fun _ => group_leavesRecord

/-- A group is changed and moved. -/
theorem movingGroup_leavesRecord (f : Group → Group) :
    (do editGroup id f; bumpGroup id).LeavesRecord :=
  (editGroup_leavesRecord f).bind fun _ => bumpGroup_leavesRecord

theorem renameGroup_leavesRecord (name : String) : (renameGroup id name).LeavesRecord :=
  (leavesRecord_check _).bind fun _ => (freeGroupName_leavesRecord _ _).bind fun _ =>
    movingGroup_leavesRecord _

theorem removeGroups_leavesRecord (ids : List Id) : (removeGroups ids).LeavesRecord :=
  leavesRecord_put (fun _ => rfl) fun _ => leavesRecord_pure _

/-- Things are attached to a group one after the other, each after a look at it. -/
theorem rounds_leavesRecord {look : Id → Transaction α} {f : Id → Group → Group}
    (hlook : ∀ x, (look x).LeavesRecord) (xs : List Id) : (do
      let _ ← group id
      xs.forM fun x => do
        let _ ← look x
        editGroup id (f x)
      bumpGroup id).LeavesRecord :=
  group_leavesRecord.bind fun _ =>
    (leavesRecord_forM fun x => (hlook x).bind fun _ => editGroup_leavesRecord _).bind fun _ =>
      bumpGroup_leavesRecord

end Transaction

/-! ## Alterations -/

/-- Whether an alteration is about the record of what runs. -/
def Alteration.marks : Alteration → Bool
  | .saveRunning _ | .setRunning _ => true
  | _ => false

/-- **All that is done to a store leaves the record alone**, but for the two alterations that are
about it. -/
theorem Alteration.leavesRecord {a : Alteration} (h : a.marks = false) :
    a.transaction.LeavesRecord := by
  open Transaction in
  cases a with
  | createSection kind name body => exact (createSection_leavesRecord name body).map _
  | updateSection kind id body => exact (editSection_leavesRecord _).map _
  | renameSection kind id name => exact (editSection_leavesRecord _).map _
  | selectSection kind id => exact selectSection_leavesRecord.map _
  | removeSection kind id => exact removeSection_leavesRecord.map _
  | importNode new subscription => exact (importNode_leavesRecord new subscription).map _
  | importNodes subscription abort news =>
    exact (importNodes_leavesRecord subscription abort news).map _
  | removeNodes ids => exact (removeNodes_leavesRecord ids).map _
  | tagNode id tag => exact (tagNode_leavesRecord tag).map _
  | createSubscription link tag => exact (createSubscription_leavesRecord link tag).map _
  | replaceNodes id links => exact (replaceNodes_leavesRecord links).map _
  | setStatus id status => exact setStatus_leavesRecord status
  | setSchedule id schedule scheduled => exact (editSubscription_leavesRecord _).map _
  | removeSubscriptions ids => exact (removeSubscriptions_leavesRecord ids).map _
  | tagSubscription id tag => exact (tagSubscription_leavesRecord tag).map _
  | createGroup name policy params => exact (createGroup_leavesRecord name policy params).map _
  | renameGroup id name => exact (renameGroup_leavesRecord name).map _
  | removeGroups ids => exact (removeGroups_leavesRecord ids).map _
  | setPolicy id policy params => exact (movingGroup_leavesRecord _).map _
  | attachNodes id nodes => exact (rounds_leavesRecord (fun _ => node_leavesRecord) nodes).map _
  | detachNodes id nodes => exact (movingGroup_leavesRecord _).map _
  | attachSubscriptions id subscriptions =>
    exact (rounds_leavesRecord (fun _ => subscription_leavesRecord) subscriptions).map _
  | detachSubscriptions id subscriptions => exact (movingGroup_leavesRecord _).map _
  | saveRunning state => cases h
  | setRunning on => cases h

/-! ## Sessions -/

namespace Session

/-- What can happen to a session. -/
inductive Move
  /-- A step of the open transaction, whether or not it succeeds. -/
  | alter (a : Alteration)
  | commit
  | rollback
  | reopen

/-- What a move comes to. -/
def move (s : Session) : Move → Session
  | .alter a => (s.step a.transaction).2
  | .commit => s.commit
  | .rollback => s.rollback
  | .reopen => s.reopen

/-- One move after the other. -/
def after (s : Session) (moves : List Move) : Session := moves.foldl move s

/-- A move that has nothing to do with the record: a store is opened again only if it is kept on
disk. -/
def Move.sparesRecord (durable : Bool) : Move → Bool
  | .alter a => !a.marks
  | .commit | .rollback => true
  | .reopen => durable

/-- What is recorded, both in the store that is committed and in the one that is pending. -/
structure Records (s : Session) (row : RunningRow) : Prop where
  committed : s.committed.running = row
  current : s.current.running = row

variable {s : Session} {row : RunningRow} {state : RunningState}

/-- A record that is saved and committed is recorded. -/
theorem records_saved (s : Session) (state : RunningState) :
    (s.step (.saveRunning state)).2.commit.Records state.row := ⟨rfl, rfl⟩

/-- **A move keeps what is recorded** if it has nothing to do with the record. -/
theorem Records.move {m : Move} (h : s.Records row) (hm : m.sparesRecord s.durable = true) :
    (s.move m).Records row ∧ (s.move m).durable = s.durable := by
  cases m with
  | alter a =>
    have hspares : a.marks = false := by simpa [Move.sparesRecord] using hm
    have hcurrent : (s.move (.alter a)).current.running = s.current.running :=
      Alteration.leavesRecord hspares s.current
    exact ⟨⟨h.committed, hcurrent.trans h.current⟩, rfl⟩
  | commit => exact ⟨⟨h.current, h.current⟩, rfl⟩
  | rollback => exact ⟨⟨h.committed, h.committed⟩, rfl⟩
  | reopen =>
    have hdurable : s.durable = true := hm
    have hreopen : s.move .reopen = ⟨s.committed, none, true⟩ := by
      rw [Session.move, Session.reopen, hdurable]
      rfl
    rw [hreopen, hdurable]
    exact ⟨⟨h.committed, h.committed⟩, rfl⟩

/-- What is recorded is recorded after any such moves. -/
theorem Records.after {moves : List Move} (h : s.Records row)
    (hmoves : ∀ m ∈ moves, m.sparesRecord s.durable = true) :
    (s.after moves).Records row ∧ (s.after moves).durable = s.durable := by
  induction moves generalizing s with
  | nil => exact ⟨h, rfl⟩
  | cons m rest ih =>
    obtain ⟨hm, hrest⟩ := List.forall_mem_cons.1 hmoves
    obtain ⟨hmove, hdurable⟩ := h.move hm
    obtain ⟨hafter, hdurable'⟩ := ih hmove (by rwa [hdurable])
    exact ⟨hafter, hdurable'.trans hdurable⟩

/-- The drift in a store is that between its record and its stamps. -/
theorem Records.drift (h : s.Records state.row) (hstate : state.row.state = state) :
    s.current.drift = Drift.detect state s.current.liveStamps := by
  rw [Store.drift, h.current, hstate]

/-- Nothing that is committed is lost by opening a store again that is kept on disk. -/
theorem current_reopen (hdurable : s.durable = true) : s.commit.reopen.current = s.current := by
  show (if s.durable = true then _ else _) = _
  rw [if_pos hdurable]
  rfl

/-- **What is recorded survives.**  The versions of the groups are read back from their text.  A
record that is saved is read as it was, at once and, when it has been committed, after any moves
that have nothing to do with it, restarts included.  The drift that is found then is that between
the record as it was saved and the stamps in the store, and a restart does not change it. -/
theorem record_survives (s : Session) {versions : List Version}
    (htext : state.groupVersions = joinNumbers versions) (hversions : ∀ n ∈ versions, Word n)
    (hgroups : ∀ id ∈ state.groups, Word id) :
    let saved := (s.step (.saveRunning state)).2
    state.frozenVersions? = some versions ∧ (saved.step .running).1 = .ok state ∧
      ∀ moves : List Move, (∀ m ∈ moves, m.sparesRecord s.durable = true) →
        let later := saved.commit.after moves
        (later.step .running).1 = .ok state ∧
          later.current.drift = Drift.detect state later.current.liveStamps ∧
          (s.durable = true → later.commit.reopen.current.drift = later.current.drift) := by
  intro saved
  have hstate : state.row.state = state := state.state_row_iff.2 hgroups
  refine ⟨frozenVersions?_of_words htext hversions, congrArg Except.ok hstate, ?_⟩
  intro moves hmoves later
  obtain ⟨hrecords, hdurable⟩ : later.Records state.row ∧ later.durable = s.durable :=
    (records_saved s state).after hmoves
  refine ⟨?_, hrecords.drift hstate, fun hkept => ?_⟩
  · show Except.ok later.current.running.state = _
    rw [hrecords.current, hstate]
  · rw [current_reopen (hdurable.trans hkept)]

/-- A record of two groups, with a version and an identifier at the ends of the range of words. -/
def wideRecord : RunningState where
  running := true
  config := some ⟨1, 1⟩
  dns := some ⟨1, 1⟩
  routing := some ⟨1, 1⟩
  groupVersions := "1,9223372036854775807"
  groups := [1, -9223372036854775808]

/-- Sections are made and selected and a group is made, between them a step that fails, a rollback
and restarts. -/
def furnishing : List Move :=
  [.alter (.createSection .config "c" ""), .alter (.selectSection .config 1), .commit, .reopen,
    .alter (.createSection .dns "d" ""), .alter (.updateSection .dns 9 ""),
    .alter (.selectSection .dns 1), .alter (.createSection .routing "r" ""),
    .alter (.selectSection .routing 1), .commit, .alter (.removeSection .routing 1), .rollback,
    .alter (.createGroup "proxy" "fixed" []), .commit, .reopen]

/-- The group that is there is in step, and the one that is not is told by its identifier. -/
theorem record_survives_furnishing :
    wideRecord.groupVersions = joinNumbers [1, 9223372036854775807] ∧
      (∀ n ∈ [1, 9223372036854775807], Word n) ∧ (∀ id ∈ wideRecord.groups, Word id) ∧
      (∀ m ∈ furnishing, m.sparesRecord true = true) ∧
      let later := ((fresh true).step (.saveRunning wideRecord)).2.commit.after furnishing
      (later.step .running).1 = .ok wideRecord ∧
        later.commit.reopen.current.drift = some (.groupRemoved (-9223372036854775808)) := by
  have htext : wideRecord.groupVersions = joinNumbers [1, 9223372036854775807] := by decide +kernel
  have hversions : ∀ n ∈ [1, 9223372036854775807], Word n := by decide
  have hgroups : ∀ id ∈ wideRecord.groups, Word id := by decide
  have hmoves : ∀ m ∈ furnishing, m.sparesRecord true = true := by decide
  obtain ⟨-, -, hlater⟩ := record_survives (fresh true) htext hversions hgroups
  obtain ⟨hread, -, hdrift⟩ := hlater furnishing hmoves
  exact ⟨htext, hversions, hgroups, hmoves, hread, (hdrift rfl).trans (by decide +kernel)⟩

end Session
end ProxyPlane
