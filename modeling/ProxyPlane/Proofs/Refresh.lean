import ProxyPlane.Proofs.Anonymity
import ProxyPlane.Proofs.Contents
import ProxyPlane.Proofs.History

/-!
# A refresh that brings nothing new

A refresh takes all nodes of a subscription out and imports them again, so each of them gets a new
identifier, even if the list is what it was.  A group that has the subscription attached moves, and
with it what is recorded of it; but it reaches the same links with the same names in the same order,
and that is all that a snapshot tells.

## What is here

* `Store.Attained` — the stores there can be, of sessions and of control planes.
* `Store.Lists` — a subscription whose nodes are what an import of some links makes of them.
* `Store.Relisted` — a store in which the nodes of one subscription were replaced by nodes with the
  same links; `Relisted.reached`, `Relisted.members` — what groups reach in it.
* `mem_touchedBy` — the groups that a refresh moves, if no node is attached by itself.
* `Store.Attained.refresh_unchanged` — what comes of such a refresh.
-/

set_option autoImplicit false
namespace ProxyPlane

/-! ## Stores there can be -/

/-- A store that an open session works on, or that a control plane holds. -/
inductive Store.Attained : Store → Prop
  | session {past : List Store} {s : Session} (h : Session.Reached past s) : Attained s.current
  | plane {t : Traffic} {s : Store} (h : t.Reachable) (hs : t.plane.store = some s) : Attained s

namespace Store

variable {s s' : Store} {id : Id} {links : List String}

/-- What obeys the rules of the house obeys none in particular. -/
theorem Tidy.free {c : Custom} (h : s.Tidy c) : s.Tidy .free :=
  { h with
    subscriptions := fun row hrow => ⟨(h.subscriptions row hrow).tag, trivial⟩
    groups := fun g hg =>
      let hg := h.groups g hg
      ⟨hg.name, trivial, hg.nodes, hg.subscriptions⟩ }

theorem Attained.orderly (h : s.Attained) : s.Valid ∧ s.Tidy .free := by
  cases h with
  | session h => exact ⟨h.orderly.pending.valid, h.orderly.pending.tidy⟩
  | plane h hs =>
    obtain ⟨_, hs', hvalid, htidy⟩ := h.kempt
    cases hs.symm.trans hs'
    exact ⟨hvalid, htidy.free⟩

/-! ## What an import makes of links -/

/-- The nodes of a subscription are what an import of some links makes of them: they have no tags,
and their links are those that can be read. -/
structure Lists (s : Store) (id : Id) (links : List String) : Prop where
  links : (s.nodesOf id).map (·.link) = readableLinks links
  plain : ∀ n ∈ s.nodesOf id, n.tag = none

/-- Such are the nodes of a subscription that had none before the import. -/
theorem Fills.lists {results : List Imported} (h : Fills id links results s s')
    (hempty : s.nodesOf id = []) : s'.Lists id links := by
  have hstocked := h.stocks hempty rfl
  refine ⟨hstocked.links, fun n hn => ?_⟩
  rw [hstocked.owned] at hn
  exact (h.plain n hn).1

/-- What an import makes of a link, as far as a snapshot tells. -/
def importedRow (owner : Id) (link : String) : Node :=
  ⟨0, link, ((readLink link).toOption.map (·.name)).getD "", "", "", none, some owner⟩

/-- A snapshot can tell no more of such nodes than their links. -/
theorem Lists.anonymous (h : s.Lists id links) (htidy : s.Tidy .free) :
    (s.nodesOf id).map Node.anonymous = (readableLinks links).map (importedRow id) := by
  rw [← h.links, List.map_map]
  refine List.map_congr_left fun n hn => ?_
  obtain ⟨hrow, howner⟩ := List.mem_filter.1 hn
  have hname : n.name = ((readLink n.link).toOption.map (·.name)).getD "" := by
    rw [(htidy.nodes n hrow).endpoint]
    rfl
  simp only [Node.anonymous, h.plain n hn, beq_iff_eq.1 howner, hname, Function.comp_apply,
    importedRow]

/-! ## What groups reach -/

/-- The nodes of one subscription were replaced by nodes with the same links, and groups have at
most moved. -/
structure Relisted (id : Id) (links : List String) (touched : List Id) (s s' : Store) : Prop where
  before : s.Lists id links
  after : s'.Lists id links
  others : (s'.nodes.rows.filter fun n => n.subscription != some id) =
    s.nodes.rows.filter fun n => n.subscription != some id
  groups : s'.groups.rows = s.groups.rows.map (bumpIn touched)
  /-- None of the nodes that are gone was attached by itself. -/
  detached : ∀ n ∈ s.nodesOf id, ∀ g ∈ s.groups.rows, n.id ∉ g.nodes

section Relisted
variable {touched : List Id} {g : Group}

/-- Other subscriptions own what they owned. -/
theorem Relisted.nodesOf_other (h : Relisted id links touched s s') {id' : Id} (hne : id' ≠ id) :
    s'.nodesOf id' = s.nodesOf id' := by
  have hothers (u : Store) : u.nodesOf id' =
      (u.nodes.rows.filter fun n => n.subscription != some id).filter fun n =>
        n.subscription == some id' := by
    rw [nodesOf, List.filter_filter]
    refine List.filter_congr fun n _ => ?_
    by_cases hn : n.subscription = some id'
    · simp [hn, hne]
    · simp [hn]
  rw [hothers s', hothers s, h.others]

/-- A node that is attached by itself is found where it was. -/
theorem Relisted.find?_attached (h : Relisted id links touched s s') (hs : s.Valid)
    (hs' : s'.Valid) (hg : g ∈ s.groups.rows) {id' : Id} (hid : id' ∈ g.nodes) :
    s'.nodes.find? id' = s.nodes.find? id' := by
  obtain ⟨n, hn, rfl⟩ := hs.attached g hg id' hid
  have hother : (n.subscription != some id) = true := by
    rw [bne_iff_ne]
    exact fun howner => h.detached n (List.mem_filter.2 ⟨hn, by simp [howner]⟩) g hg hid
  have hmem : n ∈ s.nodes.rows.filter fun n => n.subscription != some id :=
    List.mem_filter.2 ⟨hn, hother⟩
  rw [← h.others] at hmem
  have hfound' := hs'.nodes.find?_eq_some.2 ⟨(List.mem_filter.1 hmem).1, rfl⟩
  exact hfound'.trans (hs.nodes.find?_eq_some.2 ⟨hn, rfl⟩).symm

/-- **A group reaches the same**, as far as a snapshot tells. -/
theorem Relisted.reached (h : Relisted id links touched s s') (hs : s.Valid) (hs' : s'.Valid)
    (htidy : s.Tidy .free) (htidy' : s'.Tidy .free) (hg : g ∈ s.groups.rows) :
    (s'.reached g).map Node.anonymous = (s.reached g).map Node.anonymous := by
  rw [Store.reached, Store.reached, List.map_append, List.map_append, List.map_flatMap,
    List.map_flatMap]
  congr 1
  -- the nodes of a subscription come in the order of its links, old and new alike
  · refine List.flatMap_congr fun id' _ => ?_
    by_cases hid : id' = id
    · rw [hid, h.after.anonymous htidy', h.before.anonymous htidy]
    · rw [h.nodesOf_other hid]
  · exact congrArg _ (List.filterMap_congr fun id' hid => h.find?_attached hs hs' hg hid)

/-- **So do all groups** that have given names. -/
theorem Relisted.members (h : Relisted id links touched s s') (hs : s.Valid) (hs' : s'.Valid)
    (htidy : s.Tidy .free) (htidy' : s'.Tidy .free) (names : List String) :
    (s'.membersOf names).map GroupMembers.anonymous =
      (s.membersOf names).map GroupMembers.anonymous := by
  have hnamed : s'.groupsNamed names = (s.groupsNamed names).map (bumpIn touched) := by
    rw [groupsNamed, h.groups, List.filter_map, groupsNamed]
    simp only [Function.comp_def, bumpIn_name]
  have hversion (g : Group) : (bumpIn touched g).anonymous = g.anonymous := by
    rw [bumpIn]
    split <;> rfl
  rw [membersOf, hnamed, List.map_map, List.map_map, membersOf, List.map_map]
  refine List.map_congr_left fun g hg => ?_
  have hsame : s'.reached (bumpIn touched g) = s'.reached g := by
    rw [Store.reached, bumpIn_subscriptions, bumpIn_nodes, Store.reached]
  simp only [Function.comp_apply, GroupMembers.anonymous, hversion, hsame,
    h.reached hs hs' htidy htidy' (List.mem_filter.1 hg).1]

end Relisted

/-! ## What a refresh moves -/

/-- Where no node of a subscription is attached by itself, a refresh moves the groups that have the
subscription attached. -/
theorem mem_touchedBy (hs : s.Valid)
    (hdetached : ∀ n ∈ s.nodesOf id, ∀ g ∈ s.groups.rows, n.id ∉ g.nodes) {g : Group}
    (hg : g ∈ s.groups.rows) : g.id ∈ s.touchedBy id ↔ id ∈ g.subscriptions := by
  rw [touchedBy, List.mem_append]
  constructor
  · rintro (hreaching | hwith)
    · obtain ⟨g', hg', hid⟩ := List.mem_map.1 hreaching
      obtain ⟨hg', hany⟩ := List.mem_filter.1 hg'
      obtain rfl := hs.group_eq hg' hg hid
      obtain ⟨n, hn, hreaches⟩ := List.any_eq_true.1 hany
      obtain ⟨hn, hgone⟩ := List.mem_filter.1 hn
      obtain ⟨n', hn', hid'⟩ := List.mem_map.1 (List.contains_iff_mem.1 hgone)
      obtain ⟨hrow, howner⟩ := List.mem_filter.1 hn'
      obtain rfl := hs.nodes.eq_of_id hrow hn hid'
      -- it is reached through the subscription, since it is not attached by itself
      obtain hattached | ⟨id', hid', howner'⟩ := reaches_iff.1 hreaches
      · exact absurd hattached (hdetached _ hn' _ hg)
      · rw [beq_iff_eq.1 howner] at howner'
        exact Option.some.inj howner' ▸ hid'
    · obtain ⟨g', hg', hid⟩ := List.mem_map.1 hwith
      obtain ⟨hg', hany⟩ := List.mem_filter.1 hg'
      obtain rfl := hs.group_eq hg' hg hid
      obtain ⟨id', hid', hmem⟩ := List.any_eq_true.1 hany
      exact List.mem_singleton.1 (List.contains_iff_mem.1 hmem) ▸ hid'
  · intro hsubscribed
    refine .inr (List.mem_map.2 ⟨g, List.mem_filter.2 ⟨hg, ?_⟩, rfl⟩)
    exact List.any_eq_true.2 ⟨id, hsubscribed, by simp⟩

/-- A group that moves by one version if it has a subscription attached. -/
def movedWith (id : Id) (g : Group) : Group :=
  if id ∈ g.subscriptions then { g with version := g.version + 1 } else g

theorem bumpIn_touchedBy (hs : s.Valid)
    (hdetached : ∀ n ∈ s.nodesOf id, ∀ g ∈ s.groups.rows, n.id ∉ g.nodes) {g : Group}
    (hg : g ∈ s.groups.rows) : bumpIn (s.touchedBy id) g = movedWith id g := by
  simp only [bumpIn, movedWith, List.contains_iff_mem, mem_touchedBy hs hdetached hg]

/-- Taking nodes out changes no group, if none of them is attached by itself. -/
theorem groups_dropNodes (hdetached : ∀ n ∈ s.nodesOf id, ∀ g ∈ s.groups.rows, n.id ∉ g.nodes) :
    (s.dropNodes fun n => n.subscription == some id).groups.rows = s.groups.rows := by
  refine (List.map_congr_left fun g hg => ?_).trans (List.map_id _)
  have hkept : (g.nodes.filter fun id' => !((s.nodesOf id).map (·.id)).contains id') = g.nodes := by
    refine List.filter_eq_self.2 fun id' hid => ?_
    simp only [Bool.not_eq_true', ← Bool.not_eq_true, List.contains_iff_mem]
    intro hmem
    obtain ⟨n, hn, rfl⟩ := List.mem_map.1 hmem
    exact hdetached n hn g hg hid
  exact congrArg (fun nodes => { g with nodes }) hkept

/-- **A refresh that brings nothing new.**  In every store that there can be, take a subscription
whose nodes are what an import of some links makes of them, none of them attached to a group by
itself.  A refresh with the same links succeeds; every routing compiles to the snapshot that it
compiled to before, or fails as it failed before; all nodes of the subscription have identifiers that
are greater than all there were; and the groups are what they were, but for those that have the
subscription attached, which have moved by one version. -/
theorem Attained.refresh_unchanged (h : s.Attained) {row : Subscription}
    (hrow : row ∈ s.subscriptions.rows) (hlists : s.Lists row.id links)
    (hdetached : ∀ n ∈ s.nodesOf row.id, ∀ g ∈ s.groups.rows, n.id ∉ g.nodes) :
    ∃ results s', (Transaction.replaceNodes row.id links).on s = (.ok results, s') ∧
      (∀ sections name,
        (compile sections name (s'.membersOf sections.routing.outbounds)).map (·.snapshot) =
          (compile sections name (s.membersOf sections.routing.outbounds)).map (·.snapshot)) ∧
      s'.Lists row.id links ∧ (∀ n ∈ s'.nodesOf row.id, ∀ old ∈ s.nodes.rows, old.id < n.id) ∧
      s'.groups.rows = s.groups.rows.map (movedWith row.id) := by
  obtain ⟨hvalid, htidy⟩ := h.orderly
  have hfound : s.subscriptions.find? row.id = some row :=
    hvalid.subscriptions.find?_eq_some.2 ⟨hrow, rfl⟩
  obtain ⟨results, t, hon, hfills⟩ := Transaction.replaceNodes_on hvalid hfound links
  have hempty := nodesOf_dropNodes s row.id
  have hlisted := hfills.lists hempty
  have hafter : (t.bumped (s.touchedBy row.id)).Lists row.id links :=
    ⟨hlisted.links, hlisted.plain⟩
  obtain ⟨hvalid', htidy', -⟩ := Transaction.replaceNodes_tidies links s hvalid htidy _ _ hon
  have hgroups : (t.bumped (s.touchedBy row.id)).groups.rows =
      s.groups.rows.map (bumpIn (s.touchedBy row.id)) := by
    rw [bumped, hfills.imports.groups, ← groups_dropNodes hdetached]
    rfl
  have hrelisted : Relisted row.id links (s.touchedBy row.id) s (t.bumped (s.touchedBy row.id)) :=
    ⟨hlists, hafter, (hfills.stocks hempty (others_dropNodes s row.id)).others, hgroups, hdetached⟩
  refine ⟨results, t.bumped (s.touchedBy row.id), hon, fun sections name => ?_, hafter,
    fun n hn old hold => ?_, ?_⟩
  · exact snapshot_eq_of_anonymous (hrelisted.members hvalid hvalid' htidy htidy' _) sections name
  · obtain ⟨hn, howner⟩ := List.mem_filter.1 hn
    have hnew := Transaction.replaceNodes_new hvalid links _ _ hon n hn (beq_iff_eq.1 howner)
    exact Int.lt_of_le_of_lt (hvalid.nodes.issued old hold) hnew
  · rw [hgroups]
    exact List.map_congr_left fun g hg => bumpIn_touchedBy hvalid hdetached hg

end Store

/-! ## An example -/

namespace Traffic

/-- The list of a subscription was taken over.  One group has the subscription attached and a tagged
node that shares a link with it; another group has that node only. -/
def shared : Traffic := relisted.asks
  [(.edit (.updateSubscription 1), 4),
    (.edit (.tagNode 2 "home"), 1),
    (.edit (.createGroup "proxy" "random" []), 1),
    (.edit (.attachSubscriptions 1 [1]), 1),
    (.edit (.attachNodes 1 [2]), 1),
    (.edit (.createGroup "media" "random" []), 1),
    (.edit (.attachNodes 2 [2]), 1)]

theorem shared_reachable : shared.Reachable := relisted_reachable.asks _

/-- The same list is fetched again, with a link that is there twice and one that cannot be read: the
nodes are new, and the group that has the subscription attached has moved, but nothing else. -/
theorem refresh_unchanged_shared : ∃ s results s', shared.plane.store = some s ∧
    (Transaction.replaceNodes 1 ["socks5://n2.example:1080#N2", "vmess://?",
      "socks5://n1.example:1080#N1", "socks5://n2.example:1080#N2"]).on s = (.ok results, s') ∧
    (∀ sections name,
      (compile sections name (s'.membersOf sections.routing.outbounds)).map (·.snapshot) =
        (compile sections name (s.membersOf sections.routing.outbounds)).map (·.snapshot)) ∧
    (s.nodes.rows.map fun n => (n.id, n.subscription)) = [(2, none), (3, some 1), (4, some 1)] ∧
    (∀ n ∈ s'.nodesOf 1, 4 < n.id) ∧
    (s.groups.rows.map fun g => (g.id, g.version)) = [(1, 3), (2, 2)] ∧
    (s'.groups.rows.map fun g => (g.id, g.version)) = [(1, 4), (2, 2)] := by
  let links := ["socks5://n2.example:1080#N2", "vmess://?", "socks5://n1.example:1080#N1",
    "socks5://n2.example:1080#N2"]
  obtain ⟨s, hs, hrow, hlinks, hplain, hdetached, hnodes, hgroups⟩ :=
    exists_of_any (o := shared.plane.store)
    (P := fun s => (∃ row ∈ s.subscriptions.rows, row.id = 1) ∧
      (s.nodesOf 1).map (·.link) = readableLinks links ∧ (∀ n ∈ s.nodesOf 1, n.tag = none) ∧
      (∀ n ∈ s.nodesOf 1, ∀ g ∈ s.groups.rows, n.id ∉ g.nodes) ∧
      (s.nodes.rows.map fun n => (n.id, n.subscription)) = [(2, none), (3, some 1), (4, some 1)] ∧
      (s.groups.rows.map fun g => (g.id, g.version, (g.subscriptions.contains 1 : Bool))) =
        [(1, 3, true), (2, 2, false)]) (by decide +kernel)
  obtain ⟨row, hrow, hid⟩ := hrow
  rw [← hid] at hlinks hplain hdetached
  obtain ⟨results, s', hon, hsame, hlists, hnew, hgroups'⟩ :=
    (Store.Attained.plane shared_reachable hs).refresh_unchanged hrow ⟨hlinks, hplain⟩ hdetached
  rw [hid] at hon hnew hgroups'
  have hlast : ((4 : Id), some (1 : Id)) ∈ s.nodes.rows.map fun n => (n.id, n.subscription) := by
    rw [hnodes]
    decide
  obtain ⟨old, hold, heq⟩ := List.mem_map.1 hlast
  refine ⟨s, results, s', hs, hon, hsame, hnodes, fun n hn => ?_, ?_, ?_⟩
  · have hid : old.id = 4 := congrArg Prod.fst heq
    exact hid ▸ hnew n hn old hold
  · have hversions := congrArg (List.map fun g => (g.1, g.2.1)) hgroups
    simpa [Function.comp_def] using hversions
  · have hversions := congrArg (List.map fun g => (g.1, if g.2.2 then g.2.1 + 1 else g.2.1)) hgroups
    rw [hgroups', List.map_map]
    rw [List.map_map] at hversions
    refine (List.map_congr_left fun g _ => ?_).trans hversions
    simp only [Function.comp_apply, Store.movedWith, List.contains_iff_mem]
    split <;> rfl

end Traffic
end ProxyPlane
