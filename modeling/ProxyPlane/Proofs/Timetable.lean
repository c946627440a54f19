import ProxyPlane.Control.Subscriptions
import ProxyPlane.Proofs.Commitment

/-!
# Which subscriptions are refreshed on schedule

A subscription tells by which schedule it is refreshed, and whether that is followed.  Of all
transactions there are, three change that: one makes a subscription, one removes some, and one
changes a schedule.  What each of the others does to a subscription, if anything, says nothing about
its refreshes.

## What is here

* `Store.scheduledIds`, `Store.Readable` — the subscriptions that are to be refreshed on schedule,
  and that all schedules can be read.
* `Store.Retimes ids` — a change after which schedules can be read that could be before, and after
  which no subscriptions are to be refreshed but those that were, up to `ids`.
* `createSection_retimes`, … — the transactions that change nothing of this.
* `newSubscription_retimes`, `setSchedule_retimes`, `removeSubscriptions_retimes` — the three that
  do, each with the subscriptions that it is about.
-/

set_option autoImplicit false
namespace ProxyPlane

namespace Store

variable {s s' s'' : Store} {id : Id} {ids : List Id}

/-- The subscriptions that are to be refreshed on schedule. -/
def scheduledIds (s : Store) : List Id := (s.subscriptions.rows.filter (·.scheduled)).map (·.id)

/-- Every schedule can be read, whether or not it is followed. -/
def Readable (s : Store) : Prop :=
  ∀ row ∈ s.subscriptions.rows, ∃ schedule, readSchedule row.schedule = .ok schedule

theorem mem_scheduledIds :
    id ∈ s.scheduledIds ↔ ∃ row ∈ s.subscriptions.rows, row.scheduled = true ∧ row.id = id := by
  simp only [scheduledIds, List.mem_map, List.mem_filter, and_assoc]

theorem Valid.scheduledIds_increasing (h : s.Valid) : s.scheduledIds.Pairwise (· < ·) :=
  List.pairwise_map.2 (h.subscriptions.increasing.filter _)

/-- No subscription has come to be refreshed on schedule, or ceased to be, but for some. -/
structure Retimes (ids : List Id) (s s' : Store) : Prop where
  valid : s'.Valid
  readable : s.Readable → s'.Readable
  others : ∀ id, id ∉ ids → (id ∈ s'.scheduledIds ↔ id ∈ s.scheduledIds)

theorem Retimes.trans (h : s.Retimes ids s') (h' : s'.Retimes ids s'') : s.Retimes ids s'' :=
  ⟨h'.valid, fun hs => h'.readable (h.readable hs),
    fun id hid => (h'.others id hid).trans (h.others id hid)⟩

/-- The subscriptions are what they were. -/
theorem retimes_of_eq (hvalid : s'.Valid) (h : s'.subscriptions = s.subscriptions) :
    s.Retimes ids s' where
  valid := hvalid
  readable hs := by rwa [Readable, h]
  others id _ := by rw [scheduledIds, h, scheduledIds]

/-- One subscription has another schedule, which can be read. -/
theorem retimes_modify {f : Subscription → Subscription} (hid : ∀ row, (f row).id = row.id)
    (hread : ∀ row, (∃ schedule, readSchedule row.schedule = .ok schedule) →
      ∃ schedule, readSchedule (f row).schedule = .ok schedule)
    (hvalid : ({ s with subscriptions := s.subscriptions.modify id f } : Store).Valid) :
    s.Retimes [id] { s with subscriptions := s.subscriptions.modify id f } where
  valid := hvalid
  readable hs row hrow := by
    obtain ⟨old, hold, ⟨-, rfl⟩ | ⟨-, rfl⟩⟩ := Table.mem_modify hrow
    · exact hread old (hs old hold)
    · exact hs _ hold
  others id' hne := by
    rw [List.mem_singleton] at hne
    simp only [mem_scheduledIds]
    constructor
    · rintro ⟨row, hrow, hon, rfl⟩
      obtain ⟨old, hold, ⟨heq, rfl⟩ | ⟨-, rfl⟩⟩ := Table.mem_modify hrow
      · exact absurd ((hid old).trans heq) hne
      · exact ⟨_, hold, hon, rfl⟩
    · rintro ⟨row, hrow, hon, rfl⟩
      have hother : ¬(Row.id row == id) = true := fun heq => hne (beq_iff_eq.1 heq)
      exact ⟨row, Table.mem_map.2 ⟨row, hrow, if_neg hother⟩, hon, rfl⟩

/-- One subscription was changed, but neither its schedule nor whether it is followed. -/
theorem retimes_touch {f : Subscription → Subscription} (hid : ∀ row, (f row).id = row.id)
    (hschedule : ∀ row, (f row).schedule = row.schedule)
    (hscheduled : ∀ row, (f row).scheduled = row.scheduled)
    (hvalid : ({ s with subscriptions := s.subscriptions.modify id f } : Store).Valid) :
    s.Retimes ids { s with subscriptions := s.subscriptions.modify id f } := by
  have hmodify := retimes_modify hid (fun row hrow => by rwa [hschedule]) hvalid
  refine ⟨hvalid, hmodify.readable, fun id' _ => ?_⟩
  have hsame (row : Subscription) :
      (if row.id == id then f row else row).id = row.id ∧
        (if row.id == id then f row else row).scheduled = row.scheduled := by
    split
    · exact ⟨hid row, hscheduled row⟩
    · exact ⟨rfl, rfl⟩
  simp only [mem_scheduledIds]
  constructor
  · rintro ⟨row, hrow, hon, rfl⟩
    obtain ⟨old, hold, rfl⟩ := Table.mem_map.1 hrow
    exact ⟨old, hold, (hsame old).2.symm.trans hon, (hsame old).1.symm⟩
  · rintro ⟨row, hrow, hon, rfl⟩
    exact ⟨_, Table.mem_map.2 ⟨row, hrow, rfl⟩, (hsame row).2.trans hon, (hsame row).1⟩

end Store

namespace Transaction

open Store

variable {α β : Type} {s : Store} {kind : SectionKind} {id : Id} {ids : List Id}

/-! ## Parts -/

theorem Does.andThen_retimes {t : Transaction α} {f : α → Transaction β} (h : t.Does (Retimes ids))
    (hf : ∀ a, (f a).Does (Retimes ids)) : (t >>= f).Does (Retimes ids) := by
  intro s hs
  refine ensures_bind.2 ((h s hs).mono fun a s' hs' => ?_)
  exact (hf a s' hs'.valid).mono fun _ _ => hs'.trans

theorem retimes_pure (a : α) : (pure a : Transaction α).Does (Retimes ids) :=
  fun _ hs => ensures_pure.2 (retimes_of_eq hs rfl)

/-- A transaction that leaves the subscriptions alone. -/
theorem retimes_of_does {R : Store → Store → Prop} {t : Transaction α} (h : t.Does R)
    (hR : ∀ s s', R s s' → s'.Valid)
    (hsame : ∀ s, s.Valid → t.Ensures s fun _ s' => s'.subscriptions = s.subscriptions) :
    t.Does (Retimes ids) := fun s hs =>
  ((h s hs).and (hsame s hs)).mono fun _ _ hs' => retimes_of_eq (hR _ _ hs'.1) hs'.2

/-! ## Sections -/

theorem createSection_retimes (name body : String) :
    (createSection kind name body).Does (Retimes ids) := by
  refine retimes_of_does (createSection_does name body) (fun _ _ h => h.valid) fun s _ => ?_
  simp only [createSection, ensures_bind, ensures_get, ensures_putSections, ensures_loadSection]
  exact fun _ _ => rfl

theorem editSection_retimes {f : Section → Section}
    (h : (editSection kind id f).Does (Edits KeepsGroups)) :
    (editSection kind id f).Does (Retimes ids) := by
  refine retimes_of_does h (fun _ _ h => h.valid) fun s _ => ?_
  simp only [editSection, ensures_bind, ensures_get, ensures_putSections, ensures_loadSection]
  exact fun _ _ => rfl

theorem selectSection_retimes : (selectSection kind id).Does (Retimes ids) := by
  refine retimes_of_does selectSection_does (fun _ _ h => h.1.valid) fun s _ => ?_
  simp only [selectSection, ensures_bind, ensures_get, ensures_putSections, ensures_loadSection,
    ensures_pure]
  exact fun _ _ => rfl

theorem removeSection_retimes : (removeSection kind id).Does (Retimes ids) := by
  refine retimes_of_does removeSection_does (fun _ _ h => h.1.valid) fun s _ => ?_
  simp only [removeSection, ensures_bind, ensures_get, ensures_putSections, ensures_loadSection,
    ensures_pure]
  exact fun _ _ => rfl

/-! ## Nodes -/

theorem importNodes_retimes (owner : Option Id) (abort : Bool) (news : List NewNode) :
    (importNodes owner abort news).Does (Retimes ids) := fun _ hs =>
  (importNodes_ensures hs owner abort news).mono fun _ _ h => retimes_of_eq h.valid h.subscriptions

theorem removeNodes_retimes (gone : List Id) : (removeNodes gone).Does (Retimes ids) := by
  refine retimes_of_does (removeNodes_does gone) (fun _ _ h => h.valid) fun s _ => ?_
  simp only [removeNodes, ensures_bind, ensures_get, ensures_set, ensures_bump, ensures_pure]
  rfl

theorem tagNode_retimes (tag : String) : (tagNode id tag).Does (Retimes ids) := by
  refine retimes_of_does (tagNode_does tag) (fun _ _ h => h.valid) fun s _ => ?_
  simp only [tagNode, ensures_bind, ensures_check]
  intro _ _
  refine (ensures_freeNodeTag tag _).mono ?_
  rintro _ _ ⟨rfl, -⟩
  simp only [ensures_node, ensures_ite, ensures_pure, ensures_bind, ensures_modify, ensures_get,
    ensures_bump]
  exact fun _ _ => ⟨fun _ => trivial, fun _ _ _ => rfl⟩

theorem replaceNodes_retimes (links : List String) :
    (replaceNodes id links).Does (Retimes ids) := by
  refine retimes_of_does (replaceNodes_does links) (fun _ _ h => h.valid) fun s hs => ?_
  refine (replaceNodes_refills hs links).mono ?_
  rintro _ _ ⟨t, himports, rfl⟩
  exact himports.subscriptions

/-! ## Groups -/

theorem createGroup_retimes (name policy : String) (params : List PolicyParam) :
    (createGroup name policy params).Does (Retimes ids) := by
  refine retimes_of_does (createGroup_does name policy params) (fun _ _ h => h.valid)
    fun s hs => ?_
  simp only [createGroup, ensures_bind, ensures_check]
  intro _ _
  refine (ensures_freeGroupName hs name none).mono ?_
  rintro _ _ ⟨rfl, -⟩
  simp only [ensures_get, ensures_set, ensures_group, implies_true]

theorem removeGroups_retimes (gone : List Id) : (removeGroups gone).Does (Retimes ids) := by
  refine retimes_of_does (removeGroups_does gone) (fun _ _ h => h.valid) fun s _ => ?_
  simp only [removeGroups, ensures_bind, ensures_get, ensures_set, ensures_pure]

theorem renameGroup_retimes (name : String) : (renameGroup id name).Does (Retimes ids) := by
  refine retimes_of_does (renameGroup_does name) (fun _ _ h => h.valid) fun s hs => ?_
  simp only [renameGroup, ensures_bind, ensures_check]
  intro _ _
  refine (ensures_freeGroupName hs name (some id)).mono ?_
  rintro _ s ⟨rfl, -⟩
  simp only [bumpGroup, ensures_bind, ensures_editGroup, ensures_bump, ensures_group]
  exact fun _ _ => rfl

/-- A change of a group, and then one version. -/
theorem editGroup_retimes {f : Group → Group}
    (h : (do editGroup id f; bumpGroup id : Transaction Group).Does (Edits MovesGroups)) :
    (do editGroup id f; bumpGroup id : Transaction Group).Does (Retimes ids) := by
  refine retimes_of_does h (fun _ _ h => h.valid) fun s _ => ?_
  simp only [bumpGroup, ensures_bind, ensures_editGroup, ensures_bump, ensures_group]
  exact fun _ _ => rfl

/-- Any number of rounds, each of which looks for something and changes the group, and then one
version. -/
theorem rounds_retimes {xs : List Id} {look : Id → Transaction α} {f : Id → Group → Group}
    (hlook : ∀ x s, (look x).Ensures s fun _ s' => s' = s)
    (h : (do
      let _ ← group id
      xs.forM fun x => do
        let _ ← look x
        editGroup id (f x)
      bumpGroup id : Transaction Group).Does (Edits MovesGroups)) :
    (do
      let _ ← group id
      xs.forM fun x => do
        let _ ← look x
        editGroup id (f x)
      bumpGroup id : Transaction Group).Does (Retimes ids) := by
  refine retimes_of_does h (fun _ _ h => h.valid) fun s _ => ?_
  simp only [ensures_bind, ensures_group]
  intro _ _
  refine (ensures_forM (P := fun s' => s'.subscriptions = s.subscriptions) rfl ?_).mono ?_
  · rintro x - s' hsame
    refine ensures_bind.2 ((hlook x s').mono ?_)
    rintro _ _ rfl
    exact ensures_editGroup.2 hsame
  · rintro _ s' hsame
    simp only [bumpGroup, ensures_bind, ensures_bump, ensures_group]
    exact fun _ _ => hsame

theorem attachNodes_retimes (nodes : List Id) : (attachNodes id nodes).Does (Retimes ids) :=
  rounds_retimes (fun _ _ => ensures_node.2 fun _ _ => rfl) (attachNodes_does nodes)

theorem attachSubscriptions_retimes (subscriptions : List Id) :
    (attachSubscriptions id subscriptions).Does (Retimes ids) :=
  rounds_retimes (fun _ _ => ensures_subscription.2 fun _ _ => rfl)
    (attachSubscriptions_does subscriptions)

/-! ## Subscriptions -/

/-- All that a change of a subscription does. -/
theorem editSubscription_modifies (hs : s.Valid) {f : Subscription → Subscription}
    (hid : ∀ row, (f row).id = row.id) :
    (editSubscription id f).Ensures s fun row s' =>
      s'.Valid ∧ s' = { s with subscriptions := s.subscriptions.modify id f } ∧
        row ∈ s'.subscriptions.rows ∧ row.id = id := by
  refine (Ensures.and (editSubscription_does hid s hs) ?_).mono fun _ _ h => ⟨h.1.valid, h.2⟩
  simp only [editSubscription, ensures_bind, ensures_modify, ensures_subscription]
  exact fun row hrow => ⟨trivial, Table.mem_of_find? hrow⟩

theorem setStatus_retimes (status : String) : (setStatus id status).Does (Retimes ids) := by
  refine Does.andThen_retimes (fun s hs => ?_) fun _ => retimes_pure _
  refine (editSubscription_modifies hs ?_).mono ?_
  · exact fun _ => rfl
  · rintro _ _ ⟨hvalid, rfl, -⟩
    exact retimes_touch (fun _ => rfl) (fun _ => rfl) (fun _ => rfl) hvalid

theorem tagSubscription_retimes (tag : String) :
    (tagSubscription id tag).Does (Retimes ids) := by
  intro s hs
  simp only [tagSubscription, ensures_bind, ensures_check]
  intro _ _
  refine (ensures_freeSubscriptionTag tag _).mono ?_
  rintro _ _ ⟨rfl, -⟩
  refine ensures_subscription.2 fun _ _ => (editSubscription_modifies hs ?_).mono ?_
  · exact fun _ => rfl
  · rintro _ _ ⟨hvalid, rfl, -⟩
    exact retimes_touch (fun _ => rfl) (fun _ => rfl) (fun _ => rfl) hvalid

/-- The transaction of a refresh. -/
theorem refreshNodes_retimes (links : List String) :
    (do
      let results ← replaceNodes id links
      if countImported results = 0 then return none
      setStatus id ""
      return some ⟨← subscription id, results⟩ : Transaction (Option Report)).Does
      (Retimes ids) := by
  refine (replaceNodes_retimes links).andThen_retimes fun results s hs => ?_
  refine ensures_ite.2 ⟨fun _ => retimes_pure _ s hs, fun _ => ?_⟩
  refine (setStatus_retimes "").andThen_retimes (fun _ s hs => ?_) s hs
  simp only [ensures_bind, ensures_subscription, ensures_pure]
  exact fun _ _ => retimes_of_eq hs rfl

/-- A schedule was changed, and the row that is given tells what it is now. -/
theorem setSchedule_retimes (hs : s.Valid) {schedule : Option String} (scheduled : Option Bool)
    (hread : ∀ e, schedule = some e → ∃ schedule, readSchedule e = .ok schedule) :
    (setSchedule id schedule scheduled).Ensures s fun row s' =>
      s.Retimes [row.id] s' ∧ row ∈ s'.subscriptions.rows := by
  refine (editSubscription_modifies hs ?_).mono ?_
  · exact fun _ => rfl
  · rintro row _ ⟨hvalid, rfl, hrow, rfl⟩
    refine ⟨retimes_modify (fun _ => rfl) (fun old hold => ?_) hvalid, hrow⟩
    cases schedule with
    | none => exact hold
    | some e => exact hread e rfl

/-- A subscription was made, with the schedule that all have at first, and nodes of its own. -/
theorem newSubscription_retimes (hs : s.Valid) (link : String) (tag : Option String) (abort : Bool)
    (news : List NewNode) (f : Subscription → List Imported → α) :
    (do
      let row ← createSubscription link tag
      let results ← importNodes (some row.id) abort news
      return f row results).Ensures s fun a s' =>
        ∃ row results, a = f row results ∧ s.Retimes [row.id] s' ∧ row ∈ s'.subscriptions.rows := by
  refine ensures_bind.2 (((createSubscription_ensures hs link tag).and
    (createSubscription_opens hs link tag)).mono ?_)
  rintro _ _ ⟨⟨hedits, -⟩, -, rfl, rfl⟩
  refine ensures_bind.2 ((importNodes_ensures hedits.valid _ abort news).mono ?_)
  refine fun results s' hi => ensures_pure.2 ⟨_, results, rfl, ⟨hi.valid, ?_, ?_⟩, ?_⟩
  · intro hread row hrow
    rw [hi.subscriptions] at hrow
    obtain hrow | rfl := Table.mem_push.1 hrow
    · exact hread row hrow
    · exact Custom.house.initial
  · intro id hne
    rw [List.mem_singleton] at hne
    rw [mem_scheduledIds, mem_scheduledIds, hi.subscriptions]
    constructor
    · rintro ⟨row, hrow, hon, rfl⟩
      obtain hrow | rfl := Table.mem_push.1 hrow
      · exact ⟨row, hrow, hon, rfl⟩
      · exact absurd rfl hne
    · rintro ⟨row, hrow, hon, rfl⟩
      exact ⟨row, Table.mem_push.2 (.inl hrow), hon, rfl⟩
  · rw [hi.subscriptions]
    exact Table.mem_push.2 (.inr rfl)

/-- Subscriptions were taken out, and are not refreshed any more. -/
theorem removeSubscriptions_retimes (hs : s.Valid) (gone : List Id) :
    (removeSubscriptions gone).Ensures s fun _ s' =>
      s.Retimes gone s' ∧ ∀ id ∈ gone, id ∉ s'.scheduledIds := by
  refine (Ensures.and (removeSubscriptions_does gone s hs) ?_ : Ensures _ s fun _ s' =>
    s.Edits MovesGroups s' ∧
      s'.subscriptions = s.subscriptions.retain fun row => !gone.contains row.id).mono ?_
  · simp only [removeSubscriptions, ensures_bind, ensures_get, ensures_set, ensures_bump,
      ensures_pure]
    rfl
  rintro _ s' ⟨hedits, hkept⟩
  have hmem (id : Id) : id ∈ s'.scheduledIds ↔ id ∈ s.scheduledIds ∧ id ∉ gone := by
    simp only [mem_scheduledIds, hkept, Table.mem_retain, Bool.not_eq_true', ← Bool.not_eq_true,
      List.contains_iff_mem]
    constructor
    · rintro ⟨row, ⟨hrow, hstays⟩, hon, rfl⟩
      exact ⟨⟨row, hrow, hon, rfl⟩, hstays⟩
    · rintro ⟨⟨row, hrow, hon, rfl⟩, hstays⟩
      exact ⟨row, ⟨hrow, hstays⟩, hon, rfl⟩
  refine ⟨⟨hedits.valid, fun hread row hrow => ?_, fun id hid => ?_⟩, fun id hid hon => ?_⟩
  · rw [hkept] at hrow
    exact hread row (Table.mem_retain.1 hrow).1
  · rw [hmem]
    exact and_iff_left hid
  · exact ((hmem id).1 hon).2 hid

end Transaction
end ProxyPlane
