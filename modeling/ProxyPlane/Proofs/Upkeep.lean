import ProxyPlane.Proofs.Tidy

/-!
# Transactions keep stores in good order

Every transaction that succeeds leaves a store in good order behind, with new identifiers for all
that is new.  That tables are in order and references lead somewhere is what `Transaction.Does`
says of it already; here are the rules for rows.

## What is here

* `Tidies.bind`, `Tidies.of_does` — how the parts of a transaction come together.
* `editSection_tidies`, `editSubscription_tidies`, `editGroup_tidies`, `rounds_tidies` — changes of
  one row, in general; `importNodes_tidies` — any number of imports.
* `createSection_tidies` … `setRunning_tidies` — one for each transaction there is.
-/

set_option autoImplicit false
namespace ProxyPlane
namespace Transaction

open Store

variable {α β : Type} {c : Custom} {s : Store} {kind : SectionKind} {id : Id}

/-! ## Parts -/

theorem tidies_pure (a : α) : (pure a : Transaction α).Tidies c :=
  fun _ hs h => ensures_pure.2 (.refl hs h)

theorem Tidies.bind {t : Transaction α} {f : α → Transaction β} (h : t.Tidies c)
    (hf : ∀ a, (f a).Tidies c) : (t >>= f).Tidies c := by
  intro s hs htidy
  refine ensures_bind.2 ((h s hs htidy).mono fun a s' hs' => ?_)
  exact (hf a s' hs'.valid hs'.tidy).mono fun _ _ => hs'.trans

theorem Tidies.map {t : Transaction α} (h : t.Tidies c) (f : α → β) : (f <$> t).Tidies c :=
  fun s hs htidy => ensures_map.2 (h s hs htidy)

theorem tidies_ite {p : Prop} [Decidable p] {t u : Transaction α} (ht : t.Tidies c)
    (hu : u.Tidies c) : (if p then t else u).Tidies c := by
  split
  · exact ht
  · exact hu

/-- What is known of the tables, and what is left to say of the rows. -/
theorem Tidies.of_does {R : Store → Store → Prop} {t : Transaction α} (h : t.Does R)
    (hR : ∀ s s', R s s' → s'.Valid)
    (ht : ∀ s, s.Valid → s.Tidy c → t.Ensures s fun _ s' => s'.Tidy c ∧ s.Grows s') :
    t.Tidies c := by
  intro s hs htidy
  refine ((h s hs).and (ht s hs htidy)).mono fun _ s' hs' => ?_
  obtain ⟨hrelated, htidy', hgrows⟩ := hs'
  exact ⟨hR s s' hrelated, htidy', hgrows⟩

/-! ## Sections -/

theorem createSection_tidies (name body : String) : (createSection kind name body).Tidies c := by
  refine .of_does (createSection_does name body) (fun _ _ h => h.valid) fun s _ h => ?_
  simp only [createSection, ensures_bind, ensures_get, ensures_putSections, ensures_loadSection]
  exact fun _ _ => ⟨h.withSections _ _, .withSections (.push _ rfl)⟩

theorem editSection_tidies {f : Section → Section} (hid : ∀ row, (f row).id = row.id)
    (h : (editSection kind id f).Does (Edits KeepsGroups)) : (editSection kind id f).Tidies c := by
  refine .of_does h (fun _ _ h => h.valid) fun s _ h => ?_
  simp only [editSection, ensures_bind, ensures_get, ensures_putSections, ensures_loadSection]
  exact fun _ _ => ⟨h.withSections _ _, .withSections (.modify _ hid)⟩

theorem updateSection_tidies (body : String) : (updateSection kind id body).Tidies c :=
  editSection_tidies (fun _ => rfl) (updateSection_does body)

theorem renameSection_tidies (name : String) : (renameSection kind id name).Tidies c :=
  editSection_tidies (fun _ => rfl) (renameSection_does name)

theorem selectSection_tidies : (selectSection kind id).Tidies c := by
  refine .of_does selectSection_does (fun _ _ h => h.1.valid) fun s _ h => ?_
  simp only [selectSection, ensures_bind, ensures_get, ensures_putSections, ensures_loadSection,
    ensures_pure]
  exact fun _ _ => ⟨h.withSections _ _, .withSections (.map _ fun _ => rfl)⟩

theorem removeSection_tidies : (removeSection kind id).Tidies c := by
  refine .of_does removeSection_does (fun _ _ h => h.1.valid) fun s _ h => ?_
  simp only [removeSection, ensures_bind, ensures_get, ensures_putSections, ensures_loadSection,
    ensures_pure]
  exact fun _ _ => ⟨h.withSections _ _, .withSections (.retain _ _)⟩

/-! ## Nodes -/

/-- An import leaves good order behind, whether or not it succeeds. -/
theorem importNode_follows (hs : s.Valid) (h : s.Tidy c) (new : NewNode) (owner : Option Id) :
    (importNode new owner).Leaves s (s.Follows c) := by
  obtain heq | ⟨endpoint, htakes⟩ := importNode_takes (s := s) new owner
  · rw [Leaves, heq]
    exact .refl hs h
  · exact .takes hs h htakes

theorem importNode_tidies (new : NewNode) (owner : Option Id) : (importNode new owner).Tidies c :=
  fun _ hs h => (importNode_follows hs h new owner).ensures

theorem importNodes_tidies (owner : Option Id) (abort : Bool) (news : List NewNode) :
    (importNodes owner abort news).Tidies c := by
  intro s hs h
  refine importNodes_keeps (fun new s' hs' => ?_) news (.refl hs h)
  exact hs'.trans (importNode_follows hs'.valid hs'.tidy new owner)

theorem removeNodes_tidies (ids : List Id) : (removeNodes ids).Tidies c := by
  intro s hs h
  simp only [removeNodes, ensures_bind, ensures_get, ensures_set, ensures_bump, ensures_pure]
  have hdropped := Follows.dropNodes hs h fun n => ids.contains n.id
  exact hdropped.trans (.bumped hdropped.valid hdropped.tidy _)

theorem tagNode_tidies (tag : String) : (tagNode id tag).Tidies c := by
  intro s hs h
  simp only [tagNode, ensures_bind, ensures_check]
  intro _ hidentifier
  refine (ensures_freeNodeTag tag _).mono ?_
  rintro _ _ ⟨rfl, hfree⟩
  simp only [ensures_node, ensures_ite, ensures_pure, ensures_bind, ensures_modify, ensures_get,
    ensures_bump]
  intro row _
  refine ⟨fun _ => .refl hs h, fun _ _ _ => ?_⟩
  have htagged := Follows.tagged hs h hidentifier hfree
  exact htagged.trans (.bumped htagged.valid htagged.tidy _)

/-! ## Subscriptions -/

theorem createSubscription_tidies (link : String) (tag : Option String) :
    (createSubscription link tag).Tidies c := by
  refine .of_does (R := Edits KeepsGroups) (fun s hs => ?_) (fun _ _ h => h.valid) fun s hs h => ?_
  · exact (createSubscription_ensures hs link tag).mono fun _ _ h => h.1
  refine (createSubscription_opens hs link tag).mono ?_
  rintro _ _ ⟨htag, -, rfl⟩
  refine ⟨h.pushSubscription ⟨fun t heq => (htag t heq).1, c.initial⟩ ?_, .pushSubscription s rfl⟩
  rintro row hrow ⟨t, hrow', heq⟩
  exact (htag t heq).2 row hrow hrow'

/-- A change of a subscription that leaves its identifier and its tag alone. -/
theorem editSubscription_tidies {f : Subscription → Subscription} (hid : ∀ row, (f row).id = row.id)
    (htag : ∀ row, (f row).tag = row.tag) (hf : ∀ row, row.Tidy c → (f row).Tidy c) :
    (editSubscription id f).Tidies c := by
  refine .of_does (editSubscription_does hid) (fun _ _ h => h.valid) fun s _ h => ?_
  simp only [editSubscription, ensures_bind, ensures_modify, ensures_subscription]
  intro _ _
  refine ⟨h.modifySubscription hid hf fun row _ heq => .inl ((htag row).symm.trans heq), ?_⟩
  exact ⟨fun _ => .refl _, .refl _, .modify _ hid, .refl _⟩

theorem setStatus_tidies (status : String) : (setStatus id status).Tidies c := by
  refine Tidies.bind (editSubscription_tidies ?_ ?_ ?_) fun _ => tidies_pure _
  · exact fun _ => rfl
  · exact fun _ => rfl
  · exact fun _ h => ⟨h.tag, h.schedule⟩

/-- A schedule that is given has to be one that is asked for. -/
theorem setSchedule_tidies {schedule : Option String} (scheduled : Option Bool)
    (h : ∀ expression, schedule = some expression → c.schedule expression) :
    (setSchedule id schedule scheduled).Tidies c := by
  refine editSubscription_tidies (fun _ => rfl) (fun _ => rfl) fun row hrow => ⟨hrow.tag, ?_⟩
  cases schedule with
  | none => exact hrow.schedule
  | some expression => exact h expression rfl

theorem tagSubscription_tidies (tag : String) : (tagSubscription id tag).Tidies c := by
  refine .of_does (tagSubscription_does tag) (fun _ _ h => h.valid) fun s _ h => ?_
  simp only [tagSubscription, ensures_bind, ensures_check]
  intro _ hidentifier
  refine (ensures_freeSubscriptionTag tag _).mono ?_
  rintro _ _ ⟨rfl, hfree⟩
  simp only [editSubscription, ensures_bind, ensures_modify, ensures_subscription]
  intro _ _ _ _
  refine ⟨h.modifySubscription ?_ ?_ fun row tag' heq => .inr ?_, ?_⟩
  · exact fun _ => rfl
  · exact fun row hrow => ⟨fun _ heq => Option.some.inj heq ▸ hidentifier, hrow.schedule⟩
  · intro row' hrow' heq'
    obtain rfl := Option.some.inj heq
    refine h.subscriptionTags.of_find? (fun a b ha hb => ?_) hfree row' hrow' (by simpa using heq')
    exact ⟨tag, by simpa using ha, by simpa using hb⟩
  · exact ⟨fun _ => .refl _, .refl _, .modify _ fun _ => rfl, .refl _⟩

theorem replaceNodes_tidies (links : List String) : (replaceNodes id links).Tidies c := by
  intro s hs h
  simp only [replaceNodes, ensures_bind, ensures_subscription, ensures_get, ensures_set]
  intro _ _
  have hdropped := Follows.dropNodes hs h fun n => n.subscription == some id
  refine (importNodes_tidies (some id) false _ _ hdropped.valid hdropped.tidy).mono ?_
  intro _ s' himported
  simp only [ensures_bump, ensures_pure]
  exact hdropped.trans (himported.trans (.bumped himported.valid himported.tidy _))

/-- The nodes that come in place of others have identifiers of their own. -/
theorem replaceNodes_new (hs : s.Valid) (links : List String) :
    (replaceNodes id links).Ensures s fun _ s' =>
      ∀ n ∈ s'.nodes.rows, n.subscription = some id → s.nodes.issued < n.id := by
  refine (replaceNodes_refills hs links).mono ?_
  rintro _ _ ⟨t, himports, rfl⟩ n hn howner
  obtain ⟨new, hrows, hnew⟩ := himports.nodes
  change n ∈ t.nodes.rows at hn
  rw [hrows] at hn
  obtain hold | hn := List.mem_append.1 hn
  · obtain ⟨-, hkept⟩ := Table.mem_retain.1 hold
    simp [howner] at hkept
  · exact (hnew n hn).1

theorem removeSubscriptions_tidies (ids : List Id) : (removeSubscriptions ids).Tidies c := by
  refine .of_does (removeSubscriptions_does ids) (fun _ _ h => h.valid) fun s _ h => ?_
  simp only [removeSubscriptions, ensures_bind, ensures_get, ensures_set, ensures_bump,
    ensures_pure]
  refine ⟨((h.dropNodes _).dropSubscriptions ids).bumped _, ?_⟩
  exact (Grows.dropNodes s _).trans ((Grows.dropSubscriptions _ ids).trans (.bumped _ _))

/-! ## Groups -/

theorem createGroup_tidies (name : String) {policy : String} (params : List PolicyParam)
    (hpolicy : c.policy policy) : (createGroup name policy params).Tidies c := by
  refine .of_does (createGroup_does name policy params) (fun _ _ h => h.valid) fun s hs h => ?_
  simp only [createGroup, ensures_bind, ensures_check]
  intro _ hname
  refine (ensures_freeGroupName hs name none).mono ?_
  rintro _ _ ⟨rfl, -⟩
  simp only [ensures_get, ensures_set, ensures_group]
  intro _ _
  refine ⟨{ h with groups := fun g hg => ?_ }, .withGroups (.push _ rfl)⟩
  obtain hg | rfl := Table.mem_push.1 hg
  · exact h.groups g hg
  · exact ⟨hname, hpolicy, .nil, .nil⟩

theorem removeGroups_tidies (ids : List Id) : (removeGroups ids).Tidies c := by
  refine .of_does (removeGroups_does ids) (fun _ _ h => h.valid) fun s _ h => ?_
  simp only [removeGroups, ensures_bind, ensures_get, ensures_set, ensures_pure]
  exact ⟨{ h with groups := fun g hg => h.groups g (Table.mem_retain.1 hg).1 },
    .withGroups (.retain _ _)⟩

/-- A change of a group that leaves its identifier alone, and then one version. -/
theorem editGroup_tidies {f : Group → Group} (hid : ∀ g, (f g).id = g.id)
    (hf : ∀ g, g.Tidy c → (f g).Tidy c)
    (h : (do editGroup id f; bumpGroup id : Transaction Group).Does (Edits MovesGroups)) :
    (do editGroup id f; bumpGroup id : Transaction Group).Tidies c := by
  refine .of_does h (fun _ _ h => h.valid) fun s _ h => ?_
  simp only [bumpGroup, ensures_bind, ensures_editGroup, ensures_bump, ensures_group]
  exact fun _ _ => ⟨(h.modifyGroup hf).bumped _, (Grows.modifyGroup s hid).trans (.bumped _ _)⟩

theorem setPolicy_tidies {policy : String} (params : List PolicyParam) (hpolicy : c.policy policy) :
    (setPolicy id policy params).Tidies c :=
  editGroup_tidies (fun _ => rfl) (fun _ hg => ⟨hg.name, hpolicy, hg.nodes, hg.subscriptions⟩)
    (setPolicy_does policy params)

theorem renameGroup_tidies (name : String) : (renameGroup id name).Tidies c := by
  refine .of_does (renameGroup_does name) (fun _ _ h => h.valid) fun s hs h => ?_
  simp only [renameGroup, ensures_bind, ensures_check]
  intro _ hname
  refine (ensures_freeGroupName hs name (some id)).mono ?_
  rintro _ s ⟨rfl, -⟩
  simp only [bumpGroup, ensures_bind, ensures_editGroup, ensures_bump, ensures_group]
  intro _ _
  refine ⟨(h.modifyGroup fun g hg => ?_).bumped _, (Grows.modifyGroup s ?_).trans (.bumped _ _)⟩
  · exact ⟨hname, hg.policy, hg.nodes, hg.subscriptions⟩
  · exact fun _ => rfl

theorem detachNodes_tidies (nodes : List Id) : (detachNodes id nodes).Tidies c :=
  editGroup_tidies (fun _ => rfl)
    (fun _ hg => hg.sublist rfl rfl List.filter_sublist (.refl _)) (detachNodes_does nodes)

theorem detachSubscriptions_tidies (subscriptions : List Id) :
    (detachSubscriptions id subscriptions).Tidies c :=
  editGroup_tidies (fun _ => rfl)
    (fun _ hg => hg.sublist rfl rfl (.refl _) List.filter_sublist)
    (detachSubscriptions_does subscriptions)

/-- Any number of rounds, each of which looks for something and changes the group, and then one
version. -/
theorem rounds_tidies {xs : List Id} {look : Id → Transaction α} {f : Id → Group → Group}
    (hlook : ∀ x s, (look x).Ensures s fun _ s' => s' = s) (hid : ∀ x g, (f x g).id = g.id)
    (hf : ∀ x g, g.Tidy c → (f x g).Tidy c)
    (h : (do
      let _ ← group id
      xs.forM fun x => do
        let _ ← look x
        editGroup id (f x)
      bumpGroup id : Transaction Group).Does (Edits MovesGroups)) :
    (do
      let _ ← group id
      xs.forM fun x => do
        let _ ← look x
        editGroup id (f x)
      bumpGroup id : Transaction Group).Tidies c := by
  refine .of_does h (fun _ _ h => h.valid) fun s _ h => ?_
  simp only [ensures_bind, ensures_group]
  intro _ _
  refine (ensures_forM (P := fun s' => s'.Tidy c ∧ s.Grows s') ⟨h, .refl s⟩ ?_).mono ?_
  · rintro x - s' ⟨htidy, hgrows⟩
    refine ensures_bind.2 ((hlook x s').mono ?_)
    rintro _ _ rfl
    exact ensures_editGroup.2 ⟨htidy.modifyGroup (hf x), hgrows.trans (.modifyGroup _ (hid x))⟩
  · rintro _ s' ⟨htidy, hgrows⟩
    simp only [bumpGroup, ensures_bind, ensures_bump, ensures_group]
    exact fun _ _ => ⟨htidy.bumped _, hgrows.trans (.bumped _ _)⟩

theorem attachNodes_tidies (nodes : List Id) : (attachNodes id nodes).Tidies c := by
  refine rounds_tidies (fun n s => ensures_node.2 fun _ _ => rfl) ?_ ?_ (attachNodes_does nodes)
  · exact fun _ _ => rfl
  · exact fun n g hg => ⟨hg.name, hg.policy, nodup_attach hg.nodes n, hg.subscriptions⟩

theorem attachSubscriptions_tidies (subscriptions : List Id) :
    (attachSubscriptions id subscriptions).Tidies c := by
  refine rounds_tidies (fun n s => ensures_subscription.2 fun _ _ => rfl) ?_ ?_
    (attachSubscriptions_does subscriptions)
  · exact fun _ _ => rfl
  · exact fun n g hg => ⟨hg.name, hg.policy, hg.nodes, nodup_attach hg.subscriptions n⟩

/-! ## The record of what runs -/

theorem saveRunning_tidies (state : RunningState) : (saveRunning state).Tidies c :=
  fun _ hs h => ensures_saveRunning.2 (.running hs h _)

theorem setRunning_tidies (on : Bool) : (setRunning on).Tidies c :=
  fun _ hs h => ensures_setRunning.2 (.running hs h _)

end Transaction
end ProxyPlane
