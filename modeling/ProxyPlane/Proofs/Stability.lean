import ProxyPlane.Proofs.Unresolved

/-!
# Resolutions that stay

Names are given out one after the other, so each depends on those before it.  What a resolution
depends on is therefore a matter of order, and the order is that of the groups referred to, by
identifier, and of their rows.  Groups that are not referred to do not take part in it, and neither
does the order in which groups are given.  Rows that come last are named last, and all that was named
before keeps its name.

## What is here

* `resolve_congr` — a resolution depends on the groups that are referred to, and
  `resolve_eq_of_perm` — not on the order in which groups are given, nor on other groups.
* `appendTo` — some rows more at the end of a group.
* `nameCandidates_append`, `taggedFirst_append`, `collect_append` — candidates that come last change
  nothing of what comes before them.
* `resolve_appended` — new rows at the end of the last group rename nothing.
-/

set_option autoImplicit false
namespace ProxyPlane

open Config

/-! ## The groups that are referred to -/

section Reference
variable {members members' : List GroupMembers} {routing : RoutingOptions}

/-- A resolution depends on the groups that are found. -/
theorem resolve_congr (h : referenced routing members = referenced routing members')
    (routingName : String) :
    resolve members routingName routing = resolve members' routingName routing := by
  rw [resolve, resolve, h]

/-- A group that is not referred to is not found. -/
theorem filter_outbounds_eq_nil (h : ∀ m ∈ members, m.group.name ∉ routing.references) :
    members.filter (fun m => routing.outbounds.contains m.group.name) = [] := by
  refine List.filter_eq_nil_iff.2 fun m hm hmem => h m hm (routing.mem_outbounds.1 ?_)
  exact List.contains_iff_mem.1 hmem

theorem perm_referenced (routing : RoutingOptions) (members : List GroupMembers) :
    (referenced routing members).Perm
      (members.filter fun m => routing.outbounds.contains m.group.name) :=
  List.mergeSort_perm _ _

/-- **Neither the order of groups nor groups that are not referred to** make a difference: of two
lists of groups that are the same groups in any order, except for some that are not referred to, the
same comes, a resolution with the same nodes under the same names or the same fault. -/
theorem resolve_eq_of_perm {unused unused' : List GroupMembers} {routingName : String}
    (hids : (members.map (·.group.id)).Nodup) (hids' : (members'.map (·.group.id)).Nodup)
    (hunused : ∀ m ∈ unused ++ unused', m.group.name ∉ routing.references)
    (hperm : (members ++ unused).Perm (members' ++ unused')) :
    resolve members routingName routing = resolve members' routingName routing := by
  obtain ⟨hleft, hright⟩ := List.forall_mem_append.1 hunused
  have hfilter := hperm.filter fun m => routing.outbounds.contains m.group.name
  rw [List.filter_append, List.filter_append, filter_outbounds_eq_nil hleft,
    filter_outbounds_eq_nil hright, List.append_nil, List.append_nil] at hfilter
  have hfound : (referenced routing members).Perm (referenced routing members') :=
    (perm_referenced routing members).trans (hfilter.trans (perm_referenced routing members').symm)
  -- one list only is in the order of identifiers
  refine resolve_congr (hfound.eq_of_pairwise (fun m m' _ _ hlt hgt => ?_)
    (pairwise_referenced hids) (pairwise_referenced hids')) routingName
  exact absurd hgt (Int.not_lt.2 (Int.le_of_lt hlt))

/-- Groups in another order, and with one more that is not referred to, resolve to the same names; and
of two empty groups the same one is reported in every order. -/
theorem resolve_eq_of_perm_crowded :
    let other : GroupMembers := ⟨⟨0, "other", "random", [], [], [], 1⟩, []⟩
    resolve (other :: crowded.reverse) "main" crowdedRouting = .ok crowdedResolution ∧
      resolve deserted "main" (routingTo "block" ["must_proxy", "media"]) =
        .error (.emptyGroup "proxy" "main") := by
  intro other
  let routing := routingTo "block" ["must_proxy", "media"]
  let sorted := deserted.rotate 1
  constructor
  · have hperm : (other :: crowded.reverse ++ []).Perm (crowded ++ [other]) := by decide +kernel
    have hunused : ∀ m ∈ [] ++ [other], m.group.name ∉ crowdedRouting.references := by
      decide +kernel
    exact (resolve_eq_of_perm (by decide +kernel) (by decide +kernel) hunused hperm).trans
      resolve_crowded
  · have hperm : (deserted ++ []).Perm (sorted ++ []) := by decide +kernel
    have hunused : ∀ m ∈ ([] ++ [] : List GroupMembers), m.group.name ∉ routing.references := nofun
    refine (resolve_eq_of_perm (by decide +kernel) (by decide +kernel) hunused hperm).trans ?_
    have hfound : referenced routing sorted = sorted :=
      referenced_eq (by decide +kernel) (by decide +kernel)
    rw [resolve, hfound]
    decide +kernel

end Reference

/-! ## Rows that come last -/

section Appended
variable {routing : RoutingOptions} {found : List GroupMembers}

/-- Groups that were changed, but neither in their names nor in their identifiers, are found as they
were. -/
theorem referenced_map {f : GroupMembers → GroupMembers}
    (hid : ∀ m, (f m).group.id = m.group.id) (hname : ∀ m, (f m).group.name = m.group.name)
    (routing : RoutingOptions) (members : List GroupMembers) :
    referenced routing (members.map f) = (referenced routing members).map f := by
  have hsort (l : List GroupMembers) :
      (l.mergeSort fun a b => decide (a.group.id ≤ b.group.id)).map f =
        (l.map f).mergeSort fun a b => decide (a.group.id ≤ b.group.id) :=
    List.map_mergeSort fun a _ b _ => by simp only [hid]
  rw [referenced, referenced, hsort, List.filter_map]
  simp only [Function.comp_def, hname]

theorem missingNames_map {f : GroupMembers → GroupMembers}
    (hname : ∀ m, (f m).group.name = m.group.name) (routing : RoutingOptions)
    (found : List GroupMembers) :
    missingNames routing (found.map f) = missingNames routing found := by
  simp only [missingNames, List.any_map, Function.comp_def, hname]

/-- A group with some rows more at its end, if it is the given one. -/
def appendTo (id : Id) (new : List Node) (m : GroupMembers) : GroupMembers :=
  if m.group.id = id then { m with nodes := m.nodes ++ new } else m

@[simp] theorem appendTo_group (id : Id) (new : List Node) (m : GroupMembers) :
    (appendTo id new m).group = m.group := by
  rw [appendTo]
  split <;> rfl

theorem appendTo_ne_nil {id : Id} {new : List Node} {m : GroupMembers} (h : m.nodes ≠ []) :
    (appendTo id new m).nodes ≠ [] := by
  rw [appendTo]
  split
  · exact List.append_ne_nil_of_left_ne_nil h new
  · exact h

/-- The last of some groups gets more rows. -/
theorem map_appendTo_last {before : List GroupMembers} {m : GroupMembers}
    (hids : ((before ++ [m]).map (·.group.id)).Nodup) (new : List Node) :
    (before ++ [m]).map (appendTo m.group.id new) =
      before ++ [{ m with nodes := m.nodes ++ new }] := by
  rw [List.map_append, List.nodup_append] at hids
  rw [List.map_append, List.map_singleton, appendTo, if_pos rfl]
  congr 1
  refine (List.map_congr_left fun other hother => ?_).trans (List.map_id before)
  refine if_neg fun hid => hids.2.2 _ (List.mem_map_of_mem hother) _ ?_ hid
  exact List.mem_singleton_self _

/-! ### One step after the other -/

/-- A row with a link that is new among the first candidates leaves them alone. -/
theorem Candidate.add_append {group : String} {node : Node} {cs : List Candidate}
    (h : node.link ∉ cs.map (·.node.link)) (ds : List Candidate) :
    add group node (cs ++ ds) = cs ++ add group node ds := by
  induction cs with
  | nil => rfl
  | cons c cs ih =>
    rw [List.map_cons, List.mem_cons, not_or] at h
    rw [List.cons_append, add, if_neg (Ne.symm h.1), ih h.2, List.cons_append]

/-- The same for any number of rows. -/
theorem foldl_add_append {vs : List Visit} {cs : List Candidate}
    (h : ∀ v ∈ vs, v.node.link ∉ cs.map (·.node.link)) (ds : List Candidate) :
    vs.foldl (fun cs v => Candidate.add v.group v.node cs) (cs ++ ds) =
      cs ++ vs.foldl (fun cs v => Candidate.add v.group v.node cs) ds := by
  induction vs generalizing ds with
  | nil => rfl
  | cons v vs ih =>
    obtain ⟨hv, hvs⟩ := List.forall_mem_cons.1 h
    rw [List.foldl_cons, List.foldl_cons, Candidate.add_append hv, ih hvs]

/-- **New links at the end** become candidates after all others. -/
theorem collect_append {before : List GroupMembers} {m : GroupMembers} {new : List Node}
    (hnew : ∀ n ∈ new, n.link ∉ (rowsOf (before ++ [m])).map (·.link)) :
    collect (before ++ [{ m with nodes := m.nodes ++ new }]) =
      collect (before ++ [m]) ++ collect [⟨m.group, new⟩] := by
  have hvisits : visits (before ++ [{ m with nodes := m.nodes ++ new }]) =
      visits (before ++ [m]) ++ visits [⟨m.group, new⟩] := by
    simp [visits]
  have hfresh : ∀ v ∈ visits [⟨m.group, new⟩],
      v.node.link ∉ (collect (before ++ [m])).map (·.node.link) := by
    intro v hv
    obtain ⟨m', hm', -, hnode⟩ := mem_visits.1 hv
    obtain rfl := List.mem_singleton.1 hm'
    rw [mem_links_collect]
    exact hnew v.node hnode
  rw [collect_eq_foldl, hvisits, List.foldl_append, ← collect_eq_foldl, ← List.append_nil (collect _),
    foldl_add_append hfresh, ← collect_eq_foldl, List.append_nil]

theorem taggedFirst_append {ds : List Candidate} (h : ∀ c ∈ ds, c.node.tag = none)
    (cs : List Candidate) : taggedFirst (cs ++ ds) = taggedFirst cs ++ ds := by
  have hsome : ds.filter (fun c => c.node.tag.isSome) = [] :=
    List.filter_eq_nil_iff.2 fun c hc => by simp [h c hc]
  have hnone : ds.filter (fun c => c.node.tag.isNone) = ds :=
    List.filter_eq_self.2 fun c hc => by simp [h c hc]
  rw [taggedFirst, List.filter_append, List.filter_append, hsome, hnone, List.append_nil,
    ← List.append_assoc, taggedFirst]

/-- Names are given out from the front. -/
theorem nameCandidates_append (taken : List String) (cs ds : List Candidate) :
    ∃ taken', nameCandidates taken (cs ++ ds) =
      nameCandidates taken cs ++ nameCandidates taken' ds := by
  induction cs generalizing taken with
  | nil => exact ⟨taken, rfl⟩
  | cons c cs ih =>
    obtain ⟨taken', h⟩ := ih (c.name taken :: taken)
    exact ⟨taken', by rw [List.cons_append, nameCandidates, h, nameCandidates, List.cons_append]⟩

/-- **Untagged rows with new links at the end of the last group** come after all that was named
before, and are in that group only. -/
theorem resolvedNodes_append {before : List GroupMembers} {m : GroupMembers} {new : List Node}
    (htags : ∀ n ∈ new, n.tag = none)
    (hlinks : ∀ n ∈ new, n.link ∉ (rowsOf (before ++ [m])).map (·.link)) :
    ∃ fresh, resolvedNodes (before ++ [{ m with nodes := m.nodes ++ new }]) =
        resolvedNodes (before ++ [m]) ++ fresh ∧
      ∀ node ∈ fresh, ∀ group ∈ node.groups, group = m.group.name := by
  have huntagged : ∀ c ∈ collect [⟨m.group, new⟩], c.node.tag = none := by
    intro c hc
    have hrow := (mem_of_standIn (standIn_of_mem_collect hc)).1
    rw [rowsOf, List.flatMap_singleton] at hrow
    exact htags c.node hrow
  obtain ⟨taken, hnames⟩ := nameCandidates_append [] (taggedFirst (collect (before ++ [m])))
    (collect [⟨m.group, new⟩])
  refine ⟨nameCandidates taken (collect [⟨m.group, new⟩]), ?_, fun node hnode group hgroup => ?_⟩
  · rw [resolvedNodes, collect_append hlinks, taggedFirst_append huntagged, hnames, resolvedNodes]
  · obtain ⟨c, hc, -, -, -, hgroups⟩ := mem_nameCandidates hnode
    obtain ⟨m', hm', hname, -⟩ := (mem_groups_collect hc).1 ((hgroups group).1 hgroup)
    rw [← hname, List.mem_singleton.1 hm']

/-- The names of nodes that are in one group only. -/
theorem namesIn_append (nodes : List ResolvedNode) {fresh : List ResolvedNode} {name : String}
    (h : ∀ node ∈ fresh, ∀ group ∈ node.groups, group = name) (group : String) :
    namesIn nodes group <+: namesIn (nodes ++ fresh) group ∧
      (group ≠ name → namesIn (nodes ++ fresh) group = namesIn nodes group) := by
  have happend : namesIn (nodes ++ fresh) group = namesIn nodes group ++ namesIn fresh group := by
    rw [namesIn, List.filter_append, List.map_append, namesIn, namesIn]
  rw [happend]
  refine ⟨List.prefix_append _ _, fun hne => ?_⟩
  have hnone : fresh.filter (fun node => node.groups.contains group) = [] :=
    List.filter_eq_nil_iff.2 fun node hnode hmem =>
      hne (h node hnode group (List.contains_iff_mem.1 hmem))
  rw [namesIn, namesIn, hnone, List.map_nil, List.append_nil]

/-! ### The last group -/

/-- A routing is resolved when no name is missing and no group is empty. -/
theorem exists_resolve {members : List GroupMembers} (routingName : String)
    (hmissing : missingNames routing (referenced routing members) = [])
    (hrows : ∀ m ∈ referenced routing members, m.nodes ≠ []) :
    ∃ resolution, resolve members routingName routing = .ok resolution :=
  let nodes := resolvedNodes (referenced routing members)
  ⟨⟨(referenced routing members).map fun m => ⟨m.group, namesIn nodes m.group.name⟩, nodes⟩,
    resolve_eq_ok_iff.2 ⟨hmissing, hrows, rfl, rfl⟩⟩

/-- The group with the largest identifier is found last. -/
theorem referenced_eq_append {members : List GroupMembers} {last : GroupMembers}
    (hids : (members.map (·.group.id)).Nodup) (hlast : last ∈ members)
    (href : last.group.name ∈ routing.references)
    (hlargest : ∀ m ∈ members, m.group.name ∈ routing.references → m.group.id ≤ last.group.id) :
    ∃ before, referenced routing members = before ++ [last] := by
  have hfound := mem_referenced.2 ⟨hlast, routing.mem_outbounds.2 href⟩
  obtain ⟨before, after, heq⟩ := List.append_of_mem hfound
  have hsorted : (referenced routing members).Pairwise fun m m' => m.group.id < m'.group.id :=
    pairwise_referenced hids
  rw [heq, List.pairwise_append, List.pairwise_cons] at hsorted
  have hnone : after = [] := by
    refine List.eq_nil_iff_forall_not_mem.2 fun m hm => ?_
    obtain ⟨hmem, hname⟩ := mem_referenced.1 (heq ▸ List.mem_append_right before (.tail _ hm))
    have hle := hlargest m hmem (routing.mem_outbounds.1 hname)
    exact absurd (hsorted.2.1.1 m hm) (Int.not_lt.2 hle)
  exact ⟨before, by rw [heq, hnone]⟩

/-- **Rows at the end of the last group rename nothing.**  If a resolution succeeds and the group
with the largest identifier among those that are referred to gets more rows at its end, which have no
tags and no links that are there already, the resolution succeeds as well: its nodes begin with all
that were there before, each with its name, its link, its row and its groups.  The groups are the
same, each with a filter that begins with what it was, and that is what it was in all groups which do
not have the name of the last one. -/
theorem resolve_appended {members : List GroupMembers} {last : GroupMembers} {new : List Node}
    {routingName : String} {resolution : Resolution} (hids : (members.map (·.group.id)).Nodup)
    (hresolve : resolve members routingName routing = .ok resolution) (hlast : last ∈ members)
    (href : last.group.name ∈ routing.references)
    (hlargest : ∀ m ∈ members, m.group.name ∈ routing.references → m.group.id ≤ last.group.id)
    (htags : ∀ n ∈ new, n.tag = none)
    (hlinks : ∀ n ∈ new, ∀ m ∈ members, m.group.name ∈ routing.references →
      n.link ∉ m.nodes.map (·.link)) :
    ∃ resolution', resolve (members.map (appendTo last.group.id new)) routingName routing =
        .ok resolution' ∧
      resolution.nodes <+: resolution'.nodes ∧
      List.Forall₂ (fun g g' => g'.group = g.group ∧ g.nodes <+: g'.nodes ∧
        (g.group.name ≠ last.group.name → g'.nodes = g.nodes))
        resolution.groups resolution'.groups := by
  obtain ⟨before, hfound⟩ := referenced_eq_append hids hlast href hlargest
  obtain ⟨hmissing, hrows, hnodes, hgroups⟩ := resolve_eq_ok_iff.1 hresolve
  have hfound' : referenced routing (members.map (appendTo last.group.id new)) =
      (referenced routing members).map (appendTo last.group.id new) :=
    referenced_map (by simp) (by simp) routing members
  have hlast' : (referenced routing members).map (appendTo last.group.id new) =
      before ++ [{ last with nodes := last.nodes ++ new }] := by
    rw [hfound]
    exact map_appendTo_last (hfound ▸ nodup_referenced hids) new
  have hfresh : ∀ n ∈ new, n.link ∉ (rowsOf (before ++ [last])).map (·.link) := by
    intro n hn hmem
    rw [← hfound, rowsOf, List.map_flatMap] at hmem
    obtain ⟨m, hm, hlink⟩ := List.mem_flatMap.1 hmem
    obtain ⟨hm, hname⟩ := mem_referenced.1 hm
    exact hlinks n hn m hm (routing.mem_outbounds.1 hname) hlink
  -- the rows of the last group are met last, so the new ones come after all others
  obtain ⟨fresh, hresolved, hin⟩ := resolvedNodes_append htags hfresh
  rw [← hlast', ← hfound, ← hnodes] at hresolved
  have hmissing' : missingNames routing
      ((referenced routing members).map (appendTo last.group.id new)) = [] := by
    rw [missingNames_map (by simp), hmissing]
  have hrows' : ∀ m ∈ (referenced routing members).map (appendTo last.group.id new),
      m.nodes ≠ [] := by
    rintro _ hmem
    obtain ⟨m, hm, rfl⟩ := List.mem_map.1 hmem
    exact appendTo_ne_nil (hrows m hm)
  rw [← hfound'] at hmissing' hrows' hresolved
  obtain ⟨resolution', hresolve'⟩ := exists_resolve routingName hmissing' hrows'
  obtain ⟨-, -, hnodes', hgroups'⟩ := resolve_eq_ok_iff.1 hresolve'
  rw [hresolved] at hnodes'
  refine ⟨resolution', hresolve', hnodes' ▸ List.prefix_append _ _, ?_⟩
  rw [hgroups, hgroups', hfound', List.map_map, List.forall₂_map_left_iff,
    List.forall₂_map_right_iff, List.forall₂_same]
  intro m _
  simpa [hnodes'] using namesIn_append resolution.nodes hin m.group.name

/-- Rows that share a link of their own and would like a name that is taken, at the end of the later
of two groups: all that had a name keeps it. -/
theorem resolve_appended_crowded :
    let new : List Node := [⟨7, "socks5://g:1", "hk", "h:1", "socks5", none, none⟩,
      ⟨8, "socks5://g:1", "a:b'c", "h:1", "socks5", none, some 7⟩]
    ∃ resolution', resolve (crowded.map (appendTo 2 new)) "main" crowdedRouting = .ok resolution' ∧
      crowdedResolution.nodes <+: resolution'.nodes ∧
      List.Forall₂ (fun g g' => g'.group = g.group ∧ g.nodes <+: g'.nodes ∧
        (g.group.name ≠ "media" → g'.nodes = g.nodes)) crowdedResolution.groups resolution'.groups := by
  intro new
  have hids : (crowded.map (·.group.id)).Nodup := by decide +kernel
  have hlargest : ∀ m ∈ crowded, m.group.name ∈ crowdedRouting.references → m.group.id ≤ 2 := by
    decide +kernel
  have hlinks : ∀ n ∈ new, ∀ m ∈ crowded, m.group.name ∈ crowdedRouting.references →
      n.link ∉ m.nodes.map (·.link) := by decide +kernel
  have hlast : crowded[0] ∈ crowded := List.getElem_mem (by decide +kernel)
  have hreferred : crowded[0].group.name ∈ crowdedRouting.references := by decide +kernel
  have htags : ∀ n ∈ new, n.tag = none := by decide +kernel
  exact (resolve_appended hids resolve_crowded hlast hreferred hlargest htags hlinks :)

/-! ### Groups of one name -/

/-- Two groups that share their name. -/
def namesakes : List GroupMembers :=
  [⟨⟨1, "proxy", "random", [], [], [], 1⟩, [⟨1, "socks5://a:1", "a", "a:1", "socks5", none, none⟩]⟩,
    ⟨⟨2, "proxy", "random", [], [], [], 1⟩, [⟨2, "socks5://b:1", "b", "b:1", "socks5", none, none⟩]⟩]

/-- Filters go by the names of groups: of two groups with one name, a row at the end of the last one
is in the filter of the other as well. -/
theorem filters_namesakes :
    let routing := routingTo "proxy" []
    let new : List Node := [⟨3, "socks5://c:1", "c", "c:1", "socks5", none, none⟩]
    let filters := fun resolution : Resolution =>
      resolution.groups.map fun g => (g.group.id, g.nodes)
    (namesakes.map (·.group.id)).Nodup ∧
      (∀ m ∈ namesakes, m.group.name ∈ routing.references ∧ m.group.id ≤ 2) ∧
      (∀ n ∈ new, n.tag = none ∧ ∀ m ∈ namesakes, n.link ∉ m.nodes.map (·.link)) ∧
      (resolve namesakes "main" routing).map filters =
        .ok [(1, ["a", "b"]), (2, ["a", "b"])] ∧
      (resolve (namesakes.map (appendTo 2 new)) "main" routing).map filters =
        .ok [(1, ["a", "b", "c"]), (2, ["a", "b", "c"])] := by
  intro routing new filters
  refine ⟨by decide +kernel, by decide +kernel, by decide +kernel, ?_, ?_⟩
  · have hfound : referenced routing namesakes = namesakes :=
      referenced_eq (by decide +kernel) (by decide +kernel)
    rw [resolve, hfound]
    decide +kernel
  · have hfound : referenced routing (namesakes.map (appendTo 2 new)) =
        namesakes.map (appendTo 2 new) :=
      referenced_eq (by decide +kernel) (by decide +kernel)
    rw [resolve, hfound]
    decide +kernel

end Appended
end ProxyPlane
