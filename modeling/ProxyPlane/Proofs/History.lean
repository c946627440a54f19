import ProxyPlane.Proofs.Upkeep
import ProxyPlane.Store.Session

/-!
# Histories of a store

A store begins empty and is altered by transactions, some of which are committed and some are not.
Whatever the alterations are and wherever the commits fall, as long as every alteration succeeds the
rows of the store represent what they should, and an identifier that was committed once is never
given to another row.

## What is here

* `Alteration` — everything that can be done to a store, as data; `Alteration.tidies` has one case
  for each.
* `Session.Reached past s` — the sessions there can be, with the stores that were committed on the
  way.
* `Store.Represents`, `Store.Renews`, `Store.RenewsNodesOf` — what is promised of the rows of a store
  and of those that are new in it.
* `Session.Reached.representation` — the promise is kept.
-/

set_option autoImplicit false
namespace ProxyPlane

/-! ## Alterations -/

/-- What can be done to a store. -/
inductive Alteration
  | createSection (kind : SectionKind) (name body : String)
  | updateSection (kind : SectionKind) (id : Id) (body : String)
  | renameSection (kind : SectionKind) (id : Id) (name : String)
  | selectSection (kind : SectionKind) (id : Id)
  | removeSection (kind : SectionKind) (id : Id)
  | importNode (new : NewNode) (subscription : Option Id)
  | importNodes (subscription : Option Id) (abort : Bool) (news : List NewNode)
  | removeNodes (ids : List Id)
  | tagNode (id : Id) (tag : String)
  | createSubscription (link : String) (tag : Option String)
  | replaceNodes (id : Id) (links : List String)
  | setStatus (id : Id) (status : String)
  | setSchedule (id : Id) (schedule : Option String) (scheduled : Option Bool)
  | removeSubscriptions (ids : List Id)
  | tagSubscription (id : Id) (tag : String)
  | createGroup (name policy : String) (params : List PolicyParam)
  | renameGroup (id : Id) (name : String)
  | removeGroups (ids : List Id)
  | setPolicy (id : Id) (policy : String) (params : List PolicyParam)
  | attachNodes (id : Id) (nodes : List Id)
  | detachNodes (id : Id) (nodes : List Id)
  | attachSubscriptions (id : Id) (subscriptions : List Id)
  | detachSubscriptions (id : Id) (subscriptions : List Id)
  | saveRunning (state : RunningState)
  | setRunning (on : Bool)

/-- The transaction that does it. -/
def Alteration.transaction : Alteration → Transaction Unit
  | createSection kind name body => discard (.createSection kind name body)
  | updateSection kind id body => discard (.updateSection kind id body)
  | renameSection kind id name => discard (.renameSection kind id name)
  | selectSection kind id => discard (.selectSection kind id)
  | removeSection kind id => discard (.removeSection kind id)
  | importNode new subscription => discard (.importNode new subscription)
  | importNodes subscription abort news => discard (.importNodes subscription abort news)
  | removeNodes ids => discard (.removeNodes ids)
  | tagNode id tag => discard (.tagNode id tag)
  | createSubscription link tag => discard (.createSubscription link tag)
  | replaceNodes id links => discard (.replaceNodes id links)
  | setStatus id status => .setStatus id status
  | setSchedule id schedule scheduled => discard (.setSchedule id schedule scheduled)
  | removeSubscriptions ids => discard (.removeSubscriptions ids)
  | tagSubscription id tag => discard (.tagSubscription id tag)
  | createGroup name policy params => discard (.createGroup name policy params)
  | renameGroup id name => discard (.renameGroup id name)
  | removeGroups ids => discard (.removeGroups ids)
  | setPolicy id policy params => discard (.setPolicy id policy params)
  | attachNodes id nodes => discard (.attachNodes id nodes)
  | detachNodes id nodes => discard (.detachNodes id nodes)
  | attachSubscriptions id subscriptions => discard (.attachSubscriptions id subscriptions)
  | detachSubscriptions id subscriptions => discard (.detachSubscriptions id subscriptions)
  | saveRunning state => .saveRunning state
  | setRunning on => .setRunning on

/-- **Every alteration that succeeds keeps good order**, whatever policies and schedules it sets. -/
theorem Alteration.tidies (a : Alteration) : a.transaction.Tidies .free := by
  open Transaction in
  cases a with
  | createSection kind name body => exact (createSection_tidies name body).map _
  | updateSection kind id body => exact (updateSection_tidies body).map _
  | renameSection kind id name => exact (renameSection_tidies name).map _
  | selectSection kind id => exact selectSection_tidies.map _
  | removeSection kind id => exact removeSection_tidies.map _
  | importNode new subscription => exact (importNode_tidies new subscription).map _
  | importNodes subscription abort news => exact (importNodes_tidies subscription abort news).map _
  | removeNodes ids => exact (removeNodes_tidies ids).map _
  | tagNode id tag => exact (tagNode_tidies tag).map _
  | createSubscription link tag => exact (createSubscription_tidies link tag).map _
  | replaceNodes id links => exact (replaceNodes_tidies links).map _
  | setStatus id status => exact setStatus_tidies status
  | setSchedule id schedule scheduled =>
    exact (setSchedule_tidies scheduled fun _ _ => trivial).map _
  | removeSubscriptions ids => exact (removeSubscriptions_tidies ids).map _
  | tagSubscription id tag => exact (tagSubscription_tidies tag).map _
  | createGroup name policy params => exact (createGroup_tidies name params trivial).map _
  | renameGroup id name => exact (renameGroup_tidies name).map _
  | removeGroups ids => exact (removeGroups_tidies ids).map _
  | setPolicy id policy params => exact (setPolicy_tidies params trivial).map _
  | attachNodes id nodes => exact (attachNodes_tidies nodes).map _
  | detachNodes id nodes => exact (detachNodes_tidies nodes).map _
  | attachSubscriptions id subscriptions => exact (attachSubscriptions_tidies subscriptions).map _
  | detachSubscriptions id subscriptions => exact (detachSubscriptions_tidies subscriptions).map _
  | saveRunning state => exact saveRunning_tidies state
  | setRunning on => exact setRunning_tidies on

/-! ## What rows represent -/

/-- New rows of a table have identifiers that are greater than all that stood in it in the past. -/
def Table.Renews {α : Type} [Row α] (past : List (Table α)) (t t' : Table α) : Prop :=
  ∀ row ∈ t'.rows, (∀ old ∈ t.rows, Row.id old ≠ Row.id row) →
    ∀ u ∈ past, ∀ old ∈ u.rows, Row.id old < Row.id row

theorem Table.Grows.renews {α : Type} [Row α] {past : List (Table α)} {t t' : Table α}
    (h : t.Grows t') (hpast : ∀ u ∈ past, u.Ordered ∧ u.Grows t) : t.Renews past t' := by
  intro row hrow hnew u hu old hold
  obtain ⟨hordered, hgrows⟩ := hpast u hu
  obtain ⟨same, hsame, hid⟩ | hlt := h.new row hrow
  · exact absurd hid (hnew same hsame)
  · exact Int.lt_of_le_of_lt (Int.le_trans (hordered.issued old hold) hgrows.issued) hlt

namespace Store

/-- What the rows of a store represent. -/
structure Represents (s : Store) : Prop where
  nodeTags : ∀ n ∈ s.nodes.rows, ∀ n' ∈ s.nodes.rows, ∀ tag,
    n.tag = some tag → n'.tag = some tag → n = n'
  subscriptionTags : ∀ row ∈ s.subscriptions.rows, ∀ row' ∈ s.subscriptions.rows, ∀ tag,
    row.tag = some tag → row'.tag = some tag → row = row'
  groupNames : ∀ g ∈ s.groups.rows, ∀ g' ∈ s.groups.rows, g.name = g'.name → g = g'
  links : ∀ n ∈ s.nodes.rows, ∀ n' ∈ s.nodes.rows,
    n.link = n'.link → n.subscription = n'.subscription → n = n'
  owners : ∀ n ∈ s.nodes.rows, ∀ id, n.subscription = some id →
    ∃ row ∈ s.subscriptions.rows, row.id = id
  attached : ∀ g ∈ s.groups.rows, g.nodes.Nodup ∧
    ∀ id ∈ g.nodes, ∃ n ∈ s.nodes.rows, n.id = id
  subscribed : ∀ g ∈ s.groups.rows, g.subscriptions.Nodup ∧
    ∀ id ∈ g.subscriptions, ∃ row ∈ s.subscriptions.rows, row.id = id
  nodeIdentifiers : ∀ n ∈ s.nodes.rows, ∀ tag, n.tag = some tag →
    checkIdentifier .tag tag = .ok ()
  subscriptionIdentifiers : ∀ row ∈ s.subscriptions.rows, ∀ tag, row.tag = some tag →
    checkIdentifier .tag tag = .ok ()
  groupIdentifiers : ∀ g ∈ s.groups.rows, checkIdentifier .name g.name = .ok ()
  endpoints : ∀ n ∈ s.nodes.rows, readLink n.link = .ok ⟨n.name, n.address, n.protocol⟩

/-- New rows have identifiers that are greater than all that were committed for their table. -/
structure Renews (past : List Store) (s s' : Store) : Prop where
  sections : ∀ kind,
    (s.sections.get kind).Renews (past.map (·.sections.get kind)) (s'.sections.get kind)
  nodes : s.nodes.Renews (past.map (·.nodes)) s'.nodes
  subscriptions : s.subscriptions.Renews (past.map (·.subscriptions)) s'.subscriptions
  groups : s.groups.Renews (past.map (·.groups)) s'.groups

/-- All nodes of a subscription have identifiers that are greater than all that were committed. -/
def RenewsNodesOf (past : List Store) (id : Id) (s : Store) : Prop :=
  ∀ n ∈ s.nodes.rows, n.subscription = some id → ∀ u ∈ past, ∀ old ∈ u.nodes.rows, old.id < n.id

theorem Tidy.represents {c : Custom} {s : Store} (h : s.Tidy c) (hs : s.Valid) :
    s.Represents where
  nodeTags n hn n' hn' tag htag htag' :=
    hs.nodes.eq_of_id hn hn' (h.nodeTags n hn n' hn' ⟨tag, htag, htag'⟩)
  subscriptionTags row hrow row' hrow' tag htag htag' :=
    hs.subscriptions.eq_of_id hrow hrow' (h.subscriptionTags row hrow row' hrow' ⟨tag, htag, htag'⟩)
  groupNames g hg g' hg' hname := hs.group_eq hg hg' (hs.names g hg g' hg' hname)
  links n hn n' hn' hlink howner := hs.nodes.eq_of_id hn hn' (h.links n hn n' hn' ⟨hlink, howner⟩)
  owners := hs.owned
  attached g hg := ⟨(h.groups g hg).nodes, hs.attached g hg⟩
  subscribed g hg := ⟨(h.groups g hg).subscriptions, hs.subscribed g hg⟩
  nodeIdentifiers n hn := (h.nodes n hn).tag
  subscriptionIdentifiers row hrow := (h.subscriptions row hrow).tag
  groupIdentifiers g hg := (h.groups g hg).name
  endpoints n hn := (h.nodes n hn).endpoint

theorem Grows.renews {past : List Store} {s s' : Store} (h : s.Grows s')
    (hpast : ∀ u ∈ past, u.Valid ∧ u.Grows s) : s.Renews past s' := by
  refine ⟨fun kind => (h.sections kind).renews ?_, h.nodes.renews ?_, h.subscriptions.renews ?_,
    h.groups.renews ?_⟩
  all_goals
    refine List.forall_mem_map.2 fun u hu => ?_
    obtain ⟨hvalid, hgrows⟩ := hpast u hu
  · exact ⟨hvalid.sections kind, hgrows.sections kind⟩
  · exact ⟨hvalid.nodes, hgrows.nodes⟩
  · exact ⟨hvalid.subscriptions, hgrows.subscriptions⟩
  · exact ⟨hvalid.groups, hgrows.groups⟩

end Store

/-! ## Sessions -/

namespace Session

open Store Transaction

/-- The store that the next step begins with. -/
def current (s : Session) : Store := s.pending.getD s.committed

/-- The sessions there can be, each with the stores that were committed until then. -/
inductive Reached : List Store → Session → Prop
  | fresh (durable : Bool) : Reached [] (.fresh durable)
  /-- A step that succeeds. -/
  | alter {past : List Store} {s : Session} (h : Reached past s) (a : Alteration)
    (hok : (s.step a.transaction).1 = .ok ()) : Reached past (s.step a.transaction).2
  | commit {past : List Store} {s : Session} (h : Reached past s) :
    Reached (s.current :: past) s.commit
  | rollback {past : List Store} {s : Session} (h : Reached past s) : Reached past s.rollback
  | reopen {past : List Store} {s : Session} (h : Reached past s) (hdurable : s.durable = true) :
    Reached past s.reopen

/-- What is committed is in order, what is pending follows it, and so did it follow all that was
committed before. -/
structure Orderly (past : List Store) (s : Session) : Prop where
  valid : s.committed.Valid
  tidy : s.committed.Tidy .free
  pending : s.committed.Follows .free s.current
  past : ∀ u ∈ past, u.Valid ∧ u.Grows s.committed

variable {past : List Store} {s : Session}

/-- A session without an open transaction. -/
theorem orderly_of_committed {store : Store} {durable : Bool} (hs : store.Valid)
    (h : store.Tidy .free) (hpast : ∀ u ∈ past, u.Valid ∧ u.Grows store) :
    Orderly past ⟨store, none, durable⟩ :=
  ⟨hs, h, .refl hs h, hpast⟩

theorem Orderly.before (h : Orderly past s) {u : Store} (hu : u ∈ past) :
    u.Valid ∧ u.Grows s.current := by
  obtain ⟨hvalid, hgrows⟩ := h.past u hu
  exact ⟨hvalid, hgrows.trans h.pending.grows⟩

/-- A step is the transaction on the store that it begins with. -/
theorem on_of_step {a : Alteration} (hok : (s.step a.transaction).1 = .ok ()) :
    a.transaction.on s.current = (.ok (), (s.step a.transaction).2.current) :=
  Prod.ext hok rfl

theorem Orderly.alter (h : Orderly past s) {a : Alteration}
    (hok : (s.step a.transaction).1 = .ok ()) :
    Orderly past (s.step a.transaction).2 ∧
      s.current.Follows .free (s.step a.transaction).2.current := by
  have hstep := a.tidies s.current h.pending.valid h.pending.tidy () _ (on_of_step hok)
  exact ⟨⟨h.valid, h.tidy, h.pending.trans hstep, h.past⟩, hstep⟩

theorem Orderly.commit (h : Orderly past s) : Orderly (s.current :: past) s.commit := by
  refine orderly_of_committed h.pending.valid h.pending.tidy ?_
  rintro u (_ | ⟨_, hu⟩)
  · exact ⟨h.pending.valid, .refl _⟩
  · exact h.before hu

theorem Reached.orderly (h : Reached past s) : Orderly past s := by
  induction h with
  | fresh durable =>
    exact orderly_of_committed Store.valid_empty (Store.tidy_empty _) fun u hu => nomatch hu
  | alter h a hok ih => exact (ih.alter hok).1
  | commit h ih => exact ih.commit
  | rollback h ih => exact orderly_of_committed ih.valid ih.tidy ih.past
  | @reopen _ s h hdurable ih =>
    rw [Session.reopen, hdurable]
    exact orderly_of_committed ih.valid ih.tidy ih.past

/-- **Stores represent what they should**: in every session, the store that is committed and the one
that is pending; and whatever succeeds as the next step, each row that it makes has an identifier
greater than all that were ever committed for its table.  Where the nodes of a subscription come in
place of others, all of them are made. -/
theorem Reached.representation (h : Reached past s) :
    s.committed.Represents ∧ s.current.Represents ∧
      ∀ a : Alteration, (s.step a.transaction).1 = .ok () →
        s.current.Renews past (s.step a.transaction).2.current ∧
          ∀ id links, a = .replaceNodes id links →
            RenewsNodesOf past id (s.step a.transaction).2.current := by
  have ho := h.orderly
  refine ⟨ho.tidy.represents ho.valid, ho.pending.tidy.represents ho.pending.valid,
    fun a hok => ⟨?_, ?_⟩⟩
  · exact (ho.alter hok).2.grows.renews fun u hu => ho.before hu
  · rintro id links rfl n hn howner u hu old hold
    have hnew : (Alteration.replaceNodes id links).transaction.Ensures s.current fun _ s' =>
        ∀ n ∈ s'.nodes.rows, n.subscription = some id → s.current.nodes.issued < n.id :=
      ensures_map.2 (replaceNodes_new ho.pending.valid links)
    obtain ⟨hvalid, hgrows⟩ := ho.before hu
    have hissued := Int.le_trans (hvalid.nodes.issued old hold) hgrows.nodes.issued
    exact Int.lt_of_le_of_lt hissued (hnew () _ (on_of_step hok) n hn howner)

/-- A node was committed and is gone; no node that is made now is taken for it. -/
theorem Reached.representation_removed : ∃ past s, Reached past s ∧
    (∃ u ∈ past, ∃ n ∈ u.nodes.rows, n.id = 1) ∧ s.committed.nodes.rows = [] ∧
      s.committed.Represents ∧ s.current.Represents ∧
        ∀ a : Alteration, (s.step a.transaction).1 = .ok () →
          s.current.Renews past (s.step a.transaction).2.current ∧
            ∀ id links, a = .replaceNodes id links →
              RenewsNodesOf past id (s.step a.transaction).2.current := by
  have hmade := (Reached.fresh true).alter
    (.importNode ⟨"socks5://n1.example:1080#N1", some "main"⟩ none) (by rfl)
  have hgone := hmade.commit.alter (.removeNodes [1]) (by rfl)
  exact ⟨_, _, hgone.commit, by decide +kernel, by rfl, hgone.commit.representation⟩

end Session
end ProxyPlane
