import Mathlib.Data.List.Perm.Basic
import ProxyPlane.Proofs.Merging
import ProxyPlane.Proofs.Naming
import ProxyPlane.Snapshot.Compile

/-!
# What is resolved and compiled

The groups that a routing refers to are taken by identifier.  Their rows are merged by link, and
what comes of a link is named once and put into every group that has a row with that link.

## What is here

* `resolve_eq_ok_iff`, `compile_eq_ok_iff` — when a routing is resolved and sections are compiled,
  and to what.
* `Resolves` — what the nodes of a resolution are.
* `Kept` — what a store makes sure of about its rows.
* `resolve_names` — names differ, and are the tags and display names of the rows first met.
* `compile_distributes` — no node is lost, duplicated or put into the wrong group.
-/

set_option autoImplicit false
namespace ProxyPlane

open Config

/-! ## Steps that may fail -/

section Steps
variable {ε ε' α β : Type} {x : Except ε α}

theorem bind_eq_ok_iff {f : α → Except ε β} {b : β} :
    x >>= f = .ok b ↔ ∃ a, x = .ok a ∧ f a = .ok b := by
  cases x with
  | error e =>
    constructor
    · intro h
      cases h
    · rintro ⟨_, ⟨⟩, _⟩
  | ok a =>
    refine ⟨fun h => ⟨a, rfl, h⟩, ?_⟩
    rintro ⟨_, ⟨⟩, h⟩
    exact h

theorem mapError_eq_ok_iff {f : ε → ε'} {a : α} : x.mapError f = .ok a ↔ x = .ok a := by
  cases x <;> simp [Except.mapError]

theorem toOption_eq_some_iff {a : α} : x.toOption = some a ↔ x = .ok a := by
  cases x <;> simp [Except.toOption]

end Steps

/-! ## The groups that are referred to -/

section Referenced
variable {routing : RoutingOptions} {members : List GroupMembers}

theorem mem_referenced {m : GroupMembers} :
    m ∈ referenced routing members ↔ m ∈ members ∧ m.group.name ∈ routing.outbounds := by
  simp [referenced, List.mem_mergeSort]

/-- Groups that differ in some way are found once each. -/
theorem nodup_referenced {α : Type} {f : GroupMembers → α} (h : (members.map f).Nodup) :
    ((referenced routing members).map f).Nodup := by
  have hperm : (referenced routing members).Perm _ := List.mergeSort_perm _ _
  exact (hperm.map f).nodup_iff.2 (h.sublist (List.filter_sublist.map f))

/-- Groups that differ by identifier are found in its order. -/
theorem pairwise_referenced (hids : (members.map (·.group.id)).Nodup) :
    (referenced routing members).Pairwise fun m m' => m.group.id < m'.group.id := by
  have hsorted : (referenced routing members).Pairwise fun m m' => m.group.id ≤ m'.group.id := by
    refine (List.pairwise_mergeSort (fun a b c => ?_) (fun a b => ?_) _).imp fun h => ?_
    · simpa using Int.le_trans
    · simpa using Int.le_total a.group.id b.group.id
    · simpa using h
  refine hsorted.imp₂ (fun m m' hle hne => ?_) (List.pairwise_map.1 (nodup_referenced hids))
  exact Int.lt_iff_le_and_ne.2 ⟨hle, hne⟩

/-- Groups in the order of their identifiers that are all referred to are found as they are. -/
theorem referenced_eq (hsorted : members.Pairwise fun m m' => m.group.id < m'.group.id)
    (hnamed : ∀ m ∈ members, m.group.name ∈ routing.outbounds) :
    referenced routing members = members := by
  rw [referenced]
  rw [List.filter_eq_self.2 fun m hm => by simpa using hnamed m hm]
  refine List.mergeSort_of_pairwise (hsorted.imp fun hlt => ?_)
  simpa using Int.le_of_lt hlt

theorem rowsOf_referenced_subset (routing : RoutingOptions) (members : List GroupMembers) :
    rowsOf (referenced routing members) ⊆ rowsOf members := by
  intro row hrow
  obtain ⟨m, hm, hmem⟩ := List.mem_flatMap.1 hrow
  exact List.mem_flatMap.2 ⟨m, (mem_referenced.1 hm).1, hmem⟩

/-- Where no name is missing, every name that is not built in is that of a group. -/
theorem missingNames_nil (h : missingNames routing members = []) {name : String}
    (hname : name ∈ routing.outbounds) (hbuiltin : isBuiltinOutbound name = false) :
    ∃ m ∈ members, m.group.name = name := by
  by_contra hnone
  push Not at hnone
  have hmem : name ∈ missingNames routing members := by
    refine List.mem_filter.2 ⟨hname, ?_⟩
    simpa [hbuiltin] using hnone
  rw [h] at hmem
  cases hmem

end Referenced

/-! ## What a resolution consists of -/

/-- The nodes that come of some groups. -/
def resolvedNodes (found : List GroupMembers) : List ResolvedNode :=
  nameCandidates [] (taggedFirst (collect found))

/-- The names of the nodes that are in a group. -/
def namesIn (nodes : List ResolvedNode) (group : String) : List String :=
  (nodes.filter fun node => node.groups.contains group).map (·.name)

section Compile
variable {members : List GroupMembers} {name : String} {routing : RoutingOptions}
  {resolution : Resolution} {sections : Sections} {compiled : Compiled}

/-- **When a routing is resolved, and to what**: no name is missing and no group is empty. -/
theorem resolve_eq_ok_iff :
    resolve members name routing = .ok resolution ↔
      missingNames routing (referenced routing members) = [] ∧
      (∀ m ∈ referenced routing members, m.nodes ≠ []) ∧
      resolution.nodes = resolvedNodes (referenced routing members) ∧
      resolution.groups = (referenced routing members).map fun m =>
        ⟨m.group, namesIn resolution.nodes m.group.name⟩ := by
  rw [resolve]
  dsimp only
  generalize referenced routing members = found
  split
  · next hmissing => simp_all
  · next hmissing =>
    have hmissing : missingNames routing found = [] := by simpa using hmissing
    cases hfind : found.find? fun m => m.nodes.isEmpty with
    | some m =>
      have hempty : m.nodes = [] := by simpa using List.find?_some hfind
      simp only [reduceCtorEq, false_iff]
      exact fun ⟨_, hnodes, _⟩ => hnodes m (List.mem_of_find?_eq_some hfind) hempty
    | none =>
      have hnodes : ∀ m ∈ found, m.nodes ≠ [] := by simpa using hfind
      cases resolution
      simp only [Except.ok.injEq, Resolution.mk.injEq, resolvedNodes, namesIn]
      constructor
      · rintro ⟨rfl, rfl⟩
        exact ⟨hmissing, hnodes, rfl, rfl⟩
      · rintro ⟨-, -, rfl, rfl⟩
        exact ⟨rfl, rfl⟩

/-- A resolution that succeeds finds all names, and does not depend on the name of the routing. -/
theorem resolve_eq_ok (h : resolve members name routing = .ok resolution) :
    missingNames routing (referenced routing members) = [] ∧
      ∀ name', resolve members name' routing = .ok resolution :=
  ⟨(resolve_eq_ok_iff.1 h).1, fun _ => resolve_eq_ok_iff.2 (resolve_eq_ok_iff.1 h)⟩

/-- A resolution is of the groups that are referred to. -/
theorem resolve_groups (h : resolve members name routing = .ok resolution) :
    resolution.groups.map (·.group) = (referenced routing members).map (·.group) := by
  obtain ⟨-, -, -, hgroups⟩ := resolve_eq_ok_iff.1 h
  simp [hgroups]

/-- **What is compiled** is what was resolved. -/
theorem compile_eq_ok_iff :
    compile sections name members = .ok compiled ↔ ∃ resolution,
      resolve members name sections.routing = .ok resolution ∧
        compiled = ⟨assemble sections resolution, resolution.groups.map (·.group)⟩ := by
  rw [compile, bind_eq_ok_iff]
  refine exists_congr fun resolution => and_congr_right fun _ => ?_
  constructor
  · rintro ⟨⟩
    rfl
  · rintro rfl
    rfl

theorem compile_groups (h : compile sections name members = .ok compiled) :
    compiled.groups = (referenced sections.routing members).map (·.group) := by
  obtain ⟨resolution, hresolve, rfl⟩ := compile_eq_ok_iff.1 h
  exact resolve_groups hresolve

theorem compile_eq_ok (h : compile sections name members = .ok compiled) :
    missingNames sections.routing (referenced sections.routing members) = [] ∧
      compiled.snapshot.sections = sections ∧
      compiled.snapshot.groups.map (·.name) = compiled.groups.map (·.name) ∧
      ∀ name', compile sections name' members = .ok compiled := by
  obtain ⟨resolution, hresolve, rfl⟩ := compile_eq_ok_iff.1 h
  obtain ⟨hmissing, hany⟩ := resolve_eq_ok hresolve
  refine ⟨hmissing, rfl, by simp [assemble], fun name' => ?_⟩
  exact compile_eq_ok_iff.2 ⟨resolution, hany name', rfl⟩

end Compile

/-! ## The nodes of a resolution -/

theorem perm_taggedFirst (cs : List Candidate) : (taggedFirst cs).Perm cs := by
  have hnone : (fun c : Candidate => c.node.tag.isNone) = fun c => !c.node.tag.isSome := by
    funext c
    cases c.node.tag <;> rfl
  rw [taggedFirst, hnone]
  exact List.filter_append_perm _ cs

/-- Tagged candidates come before the others. -/
theorem pairwise_taggedFirst (cs : List Candidate) :
    (taggedFirst cs).Pairwise fun a b => a.node.tag = none → b.node.tag = none := by
  rw [taggedFirst, List.pairwise_append]
  refine ⟨?_, ?_, fun a _ b hb _ => by simpa using (List.mem_filter.1 hb).2⟩
  · refine List.pairwise_of_forall_mem_list fun a ha b _ hnone => ?_
    have hsome := (List.mem_filter.1 ha).2
    rw [hnone] at hsome
    cases hsome
  · exact List.pairwise_of_forall_mem_list fun a _ b hb _ => by simpa using (List.mem_filter.1 hb).2

/-- What the nodes of a resolution are. -/
structure Resolves (found : List GroupMembers) (nodes : List ResolvedNode) : Prop where
  /-- No link has two nodes. -/
  nodup : (nodes.map (·.link)).Nodup
  /-- The links of the nodes are those of the rows. -/
  links : ∀ link, link ∈ nodes.map (·.link) ↔ link ∈ (rowsOf found).map (·.link)
  /-- A node is the row that stands for its link, under a name that suits it. -/
  row : ∀ node ∈ nodes, ∃ row, standIn (rowsOf found) node.link = some row ∧ node.node = row.id ∧
    Suits row node.name
  /-- It is in the groups that have a row with its link. -/
  groups : ∀ node ∈ nodes, ∀ group, group ∈ node.groups ↔
    ∃ m ∈ found, m.group.name = group ∧ node.link ∈ m.nodes.map (·.link)

theorem resolves_resolvedNodes (found : List GroupMembers) :
    Resolves found (resolvedNodes found) := by
  have hperm := perm_taggedFirst (collect found)
  have hlinks : ((resolvedNodes found).map (·.link)).Perm ((collect found).map (·.node.link)) := by
    rw [resolvedNodes, map_link_nameCandidates]
    exact hperm.map _
  refine ⟨hlinks.nodup_iff.2 (merges_collect found).nodup, fun link => ?_, fun node hnode => ?_,
    fun node hnode group => ?_⟩
  · rw [hlinks.mem_iff, mem_links_collect]
  · obtain ⟨c, hc, hlink, hid, hsuits, -⟩ := mem_nameCandidates hnode
    rw [hlink]
    exact ⟨c.node, standIn_of_mem_collect (hperm.mem_iff.1 hc), hid, hsuits⟩
  · obtain ⟨c, hc, hlink, -, -, hgroups⟩ := mem_nameCandidates hnode
    rw [hlink, hgroups, mem_groups_collect (hperm.mem_iff.1 hc)]

/-! ## Names -/

/-- What a store makes sure of about its rows: an identifier belongs to one row, a tag is not empty,
and it belongs to one row as well. -/
structure Kept (rows : List Node) : Prop where
  same : ∀ row ∈ rows, ∀ other ∈ rows, row.id = other.id → row = other
  tagged : ∀ row ∈ rows, row.tag ≠ some ""
  owner : ∀ row ∈ rows, ∀ other ∈ rows, row.id ≠ other.id → row.tag.isSome = true →
    row.tag ≠ other.tag

instance (rows : List Node) : Decidable (Kept rows) :=
  decidable_of_iff (_ ∧ _ ∧ _) ⟨fun h => ⟨h.1, h.2.1, h.2.2⟩, fun h => ⟨h.same, h.tagged, h.owner⟩⟩

theorem Kept.mono {rows rows' : List Node} (h : Kept rows) (hsub : rows' ⊆ rows) : Kept rows' :=
  ⟨fun row hrow other hother => h.same row (hsub hrow) other (hsub hother),
    fun row hrow => h.tagged row (hsub hrow),
    fun row hrow other hother => h.owner row (hsub hrow) other (hsub hother)⟩

/-- **All names differ**: a tag belongs to one row, so to one link, and all other names were free
when they were given. -/
theorem nodup_names_resolvedNodes {found : List GroupMembers} (hkept : Kept (rowsOf found)) :
    ((resolvedNodes found).map (·.name)).Nodup := by
  have hrow : ∀ c ∈ collect found, c.node ∈ rowsOf found := fun c hc =>
    (mem_of_standIn (standIn_of_mem_collect hc)).1
  have htags : ((collect found).filterMap (·.node.tag)).Nodup := by
    refine List.pairwise_filterMap.2
      ((List.pairwise_map.1 (merges_collect found).nodup).imp_of_mem ?_)
    intro c c' hc hc' hlink tag htag tag' htag'
    rintro rfl
    by_cases hid : c.node.id = c'.node.id
    · exact hlink (congrArg _ (hkept.same _ (hrow c hc) _ (hrow c' hc') hid))
    · exact hkept.owner _ (hrow c hc) _ (hrow c' hc') hid (by rw [htag]; rfl)
        (htag.trans htag'.symm)
  have hperm := (perm_taggedFirst (collect found)).filterMap (·.node.tag)
  exact (nodup_nameCandidates (pairwise_taggedFirst _) (hperm.nodup_iff.2 htags)
    fun _ _ => List.not_mem_nil).1

/-- The name of a link among some rows: the tag that is met first, or, where there is none, the
display name that is met first, after the number of its subscription, with or without a number. -/
def NamedAs (rows : List Node) (link name : String) : Prop :=
  match firstTagged? rows link with
  | some row => row.tag = some name
  | none => ∃ row, firstRow? rows link = some row ∧
    (name = baseName row ∨ ∃ k, name = numbered (baseName row) k)

theorem namedAs_of_suits {rows : List Node} {link name : String} {row : Node}
    (hstands : standIn rows link = some row) (hsuits : Suits row name) :
    NamedAs rows link name := by
  rw [NamedAs]
  rw [standIn] at hstands
  cases hfirst : firstTagged? rows link with
  | some tagged =>
    have hsome := (mem_of_firstTagged? hfirst).2.2
    rw [hfirst, Option.some_or] at hstands
    cases hstands
    cases hsuits with
    | tag htag => exact htag
    | base hnone | numbered hnone =>
      rw [hnone] at hsome
      cases hsome
  | none =>
    rw [hfirst, Option.none_or] at hstands
    have hnone := firstTagged?_eq_none.1 hfirst row (mem_of_firstRow? hstands).1
      (mem_of_firstRow? hstands).2
    refine ⟨row, hstands, ?_⟩
    cases hsuits with
    | tag htag =>
      rw [hnone] at htag
      cases htag
    | base => exact .inl rfl
    | numbered _ k => exact .inr ⟨k, rfl⟩

/-- **Names differ, and tags are respected.** Of rows as a store keeps them, each link gets one
node; no two nodes have the same name and no name is empty; and a node is named by the first tag that
its link is met with, or else by the first display name that it is met with. -/
theorem resolve_names {members : List GroupMembers} {routingName : String}
    {routing : RoutingOptions} {resolution : Resolution} (hkept : Kept (rowsOf members))
    (h : resolve members routingName routing = .ok resolution) :
    (resolution.nodes.map (·.name)).Nodup ∧ (∀ node ∈ resolution.nodes, node.name ≠ "") ∧
      (∀ row ∈ rowsOf (referenced routing members),
        ∃! node, node ∈ resolution.nodes ∧ node.link = row.link) ∧
      ∀ node ∈ resolution.nodes,
        NamedAs (rowsOf (referenced routing members)) node.link node.name := by
  have hkept := hkept.mono (rowsOf_referenced_subset routing members)
  obtain ⟨-, -, hnodes, -⟩ := resolve_eq_ok_iff.1 h
  rw [hnodes]
  generalize referenced routing members = found at hkept
  have hresolves := resolves_resolvedNodes found
  refine ⟨nodup_names_resolvedNodes hkept, fun node hnode => ?_, fun row hrow => ?_,
    fun node hnode => ?_⟩
  · obtain ⟨row, hstands, -, hsuits⟩ := hresolves.row node hnode
    exact hsuits.ne_empty (hkept.tagged row (mem_of_standIn hstands).1)
  · obtain ⟨node, hnode, hlink⟩ := List.mem_map.1
      ((hresolves.links row.link).2 (List.mem_map_of_mem hrow))
    refine ⟨node, ⟨hnode, hlink⟩, fun other ⟨hother, hlink'⟩ => ?_⟩
    exact List.inj_on_of_nodup_map hresolves.nodup hother hnode (hlink'.trans hlink.symm)
  · obtain ⟨row, hstands, -, hsuits⟩ := hresolves.row node hnode
    exact namedAs_of_suits hstands hsuits

/-- Two groups, of which the later one is given first.  They share a link, which has a tag in one of
them; the tag is the display name of other rows, and a number after it is a display name as well. -/
def crowded : List GroupMembers :=
  let row := fun id link name tag subscription =>
    Node.mk id link name "h:1" "socks5" tag subscription
  [⟨⟨2, "media", "min", [], [], [], 1⟩,
      [row 3 "socks5://c:1" "whatever" (some "hk") none, row 6 "socks5://f:1" "hk.0" none none,
        row 2 "socks5://b:1" "hk" none none]⟩,
    ⟨⟨1, "proxy", "random", [], [], [], 1⟩,
      [row 4 "socks5://d:1" " a:b'c" none (some 7), row 1 "socks5://a:1" "hk" none none,
        row 5 "socks5://c:1" "hk" none none, row 2 "socks5://b:1" "hk" none none]⟩]

/-- A routing that refers to both groups. -/
def crowdedRouting : RoutingOptions := ⟨[⟨[], .named "must_media"⟩], .named "proxy", []⟩

/-- What they are resolved to. -/
def crowdedResolution : Resolution :=
  ⟨crowded.reverse.map fun m => ⟨m.group, namesIn (resolvedNodes crowded.reverse) m.group.name⟩,
    resolvedNodes crowded.reverse⟩

theorem resolve_crowded :
    resolve crowded "main" crowdedRouting = .ok crowdedResolution := by
  have hfound : referenced crowdedRouting crowded = crowded.reverse := by
    rw [referenced, List.filter_eq_self.2 (by decide +kernel)]
    simp [crowded, List.mergeSort]
  rw [resolve_eq_ok_iff, hfound]
  exact ⟨by decide +kernel, by decide +kernel, rfl, rfl⟩

/-- Names stay apart where a tag, display names and numbers meet. -/
theorem resolve_names_crowded :
    Kept (rowsOf crowded) ∧ resolve crowded "main" crowdedRouting = .ok crowdedResolution ∧
      crowdedResolution.nodes.map (·.name) = ["hk", "7.a_b_c", "hk.0", "hk.1", "hk.0.0"] ∧
      (crowdedResolution.nodes.map (·.name)).Nodup := by
  have hkept : Kept (rowsOf crowded) := by decide +kernel
  exact ⟨hkept, resolve_crowded, by decide +kernel, (resolve_names hkept resolve_crowded).1⟩

/-! ## Where the nodes are -/

/-- The names of the nodes whose link is that of one of some rows, in their order. -/
def Snapshot.namesOf (s : Snapshot) (rows : List Node) : List String :=
  (s.nodes.filter fun entry => (rows.map (·.link)).contains entry.link).map (·.name)

section Distribution
variable {found : List GroupMembers} {resolution : Resolution} {m : GroupMembers}

/-- The nodes that are in a group are those whose link it has, if no other group has its name. -/
theorem Resolves.namesIn_eq (h : Resolves found resolution.nodes)
    (hnames : (found.map (·.group.name)).Nodup) (hm : m ∈ found) (sections : Sections) :
    namesIn resolution.nodes m.group.name = (assemble sections resolution).namesOf m.nodes := by
  rw [namesIn, Snapshot.namesOf, assemble, List.filter_map, List.map_map]
  refine congrArg _ (List.filter_congr fun node hnode => ?_)
  rw [Bool.eq_iff_iff, List.contains_iff_mem, h.groups node hnode, Function.comp_apply,
    List.contains_iff_mem]
  constructor
  · rintro ⟨m', hm', hname, hlink⟩
    rwa [← List.inj_on_of_nodup_map hnames hm' hm hname]
  · exact fun hlink => ⟨m, hm, rfl, hlink⟩

/-- A group that has a row has a node. -/
theorem Resolves.namesIn_ne_nil (h : Resolves found resolution.nodes) (hm : m ∈ found)
    (hrows : m.nodes ≠ []) : namesIn resolution.nodes m.group.name ≠ [] := by
  obtain ⟨row, hrow⟩ := List.exists_mem_of_ne_nil _ hrows
  obtain ⟨node, hnode, hlink⟩ := List.mem_map.1 <| (h.links row.link).2 <|
    List.mem_map_of_mem (List.mem_flatMap.2 ⟨m, hm, hrow⟩)
  have hgroup : node.groups.contains m.group.name = true := by
    rw [List.contains_iff_mem, h.groups node hnode]
    exact ⟨m, hm, rfl, hlink ▸ List.mem_map_of_mem hrow⟩
  exact List.ne_nil_of_mem (List.mem_map_of_mem (List.mem_filter.2 ⟨hnode, hgroup⟩))

end Distribution

/-- **No node is lost, duplicated or put into the wrong group.** Each link that a group has which is
referred to is one node.  These groups are in the snapshot, by identifier, and each chooses among
the nodes whose link it has, of which there is one at least; and it does not name any of them twice
if the rows are as a store keeps them. -/
theorem compile_distributes {sections : Sections} {routingName : String}
    {members : List GroupMembers} {compiled : Compiled}
    (hids : (members.map (·.group.id)).Nodup) (hnames : (members.map (·.group.name)).Nodup)
    (h : compile sections routingName members = .ok compiled) :
    (compiled.snapshot.nodes.map (·.link)).Nodup ∧
      ∃ found : List GroupMembers, found.Pairwise (fun m m' => m.group.id < m'.group.id) ∧
        (∀ m, m ∈ found ↔ m ∈ members ∧ m.group.name ∈ sections.routing.outbounds) ∧
        (∀ link, link ∈ compiled.snapshot.nodes.map (·.link) ↔
          ∃ m ∈ found, link ∈ m.nodes.map (·.link)) ∧
        compiled.groups = found.map (·.group) ∧
        compiled.snapshot.groups = found.map (fun m =>
          ⟨m.group.name, nameFilter (compiled.snapshot.namesOf m.nodes), m.group.policyCall⟩) ∧
        (∀ m ∈ found, compiled.snapshot.namesOf m.nodes ≠ []) ∧
        (Kept (rowsOf found) → ∀ m ∈ found, (compiled.snapshot.namesOf m.nodes).Nodup) := by
  obtain ⟨resolution, hresolve, rfl⟩ := compile_eq_ok_iff.1 h
  obtain ⟨-, hrows, hnodes, hgroups⟩ := resolve_eq_ok_iff.1 hresolve
  have hresolves := hnodes ▸ resolves_resolvedNodes (referenced sections.routing members)
  have hnamesOf : ∀ m ∈ referenced sections.routing members, namesIn resolution.nodes m.group.name =
      (assemble sections resolution).namesOf m.nodes := fun m hm =>
    hresolves.namesIn_eq (nodup_referenced hnames) hm sections
  have hlinks : (assemble sections resolution).nodes.map (·.link) =
      resolution.nodes.map (·.link) := by
    simp [assemble]
  refine ⟨hlinks ▸ hresolves.nodup, _, pairwise_referenced hids, fun m => mem_referenced,
    fun link => ?_, ?_, ?_, fun m hm => ?_, fun hkept m hm => ?_⟩
  · rw [hlinks, hresolves.links, rowsOf, List.map_flatMap, List.mem_flatMap]
  · simp [hgroups]
  · rw [assemble, hgroups, List.map_map]
    refine List.map_congr_left fun m hm => ?_
    rw [Function.comp_apply, hnamesOf m hm]
    rfl
  · rw [← hnamesOf m hm]
    exact hresolves.namesIn_ne_nil hm (hrows m hm)
  · rw [← hnamesOf m hm, namesIn]
    have hnodup := nodup_names_resolvedNodes hkept
    rw [← hnodes] at hnodup
    exact hnodup.sublist (List.filter_sublist.map _)

/-- A group chooses among three of five nodes, of which one is named by a tag. -/
theorem compile_distributes_crowded :
    (crowded.map (·.group.id)).Nodup ∧ (crowded.map (·.group.name)).Nodup ∧
      ∃ compiled, compile ⟨.default, .default, crowdedRouting⟩ "main" crowded = .ok compiled ∧
        (compiled.snapshot.nodes.map (·.link)).Nodup ∧ compiled.snapshot.nodes.length = 5 ∧
        ∃ group ∈ compiled.snapshot.groups, group.name = "media" ∧
          group.filter = nameFilter ["hk", "hk.1", "hk.0.0"] := by
  have hids : (crowded.map (·.group.id)).Nodup := by decide +kernel
  have hnames : (crowded.map (·.group.name)).Nodup := by decide +kernel
  have hcompile : compile ⟨.default, .default, crowdedRouting⟩ "main" crowded = .ok _ :=
    compile_eq_ok_iff.2 ⟨crowdedResolution, resolve_crowded, rfl⟩
  obtain ⟨hnodup, found, -, hmem, -, -, hgroups, -⟩ := compile_distributes hids hnames hcompile
  have hmedia : crowded.head (by decide) ∈ found := (hmem _).2 (by decide +kernel)
  have hgroup := hgroups ▸ List.mem_map_of_mem hmedia
  exact ⟨hids, hnames, _, hcompile, hnodup, by decide +kernel, _, hgroup, rfl, by decide +kernel⟩

end ProxyPlane
