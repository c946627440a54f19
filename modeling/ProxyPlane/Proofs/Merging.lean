import Mathlib.Data.List.Induction
import Mathlib.Data.List.Nodup
import ProxyPlane.Snapshot.Resolve

/-!
# Rows that share a link

Rows are met one after the other, in one group after the other.  All rows with one link become one
candidate, which is in every group that one of them is met in.  The first tagged one of them stands
for the link, or the first one if none of them is tagged.

## What is here

* `Visit`, `visits` — a row met in a group; all that are met, in their order.
* `standIn rows link` — the row that stands for a link.
* `Merges` — candidates that are what was met: one for each link, the row that stands for it, and
  the groups that it was met in.
* `Merges.add`, `merges_collect` — one more row; all rows.
-/

set_option autoImplicit false
namespace ProxyPlane

/-! ## What is met -/

/-- A row that is met in a group. -/
structure Visit where
  group : String
  node : Node

/-- The rows of some groups. -/
def rowsOf (members : List GroupMembers) : List Node := members.flatMap (·.nodes)

/-- What is met in some groups. -/
def visits (members : List GroupMembers) : List Visit :=
  members.flatMap fun m => m.nodes.map (⟨m.group.name, ·⟩)

theorem map_node_visits (members : List GroupMembers) :
    (visits members).map (·.node) = rowsOf members := by
  simp [visits, rowsOf, List.map_flatMap, Function.comp_def]

theorem mem_visits {members : List GroupMembers} {v : Visit} :
    v ∈ visits members ↔ ∃ m ∈ members, m.group.name = v.group ∧ v.node ∈ m.nodes := by
  cases v
  simp [visits, and_comm, and_assoc]

theorem collect_eq_foldl (members : List GroupMembers) :
    collect members = (visits members).foldl (fun cs v => Candidate.add v.group v.node cs) [] := by
  simp only [collect, visits, List.foldl_flatMap, List.foldl_map]

/-! ## The row that stands for a link -/

/-- The first row that has a link. -/
def firstRow? (rows : List Node) (link : String) : Option Node :=
  rows.find? fun row => row.link == link

/-- The first tagged row that has a link. -/
def firstTagged? (rows : List Node) (link : String) : Option Node :=
  rows.find? fun row => row.link == link && row.tag.isSome

/-- The row that stands for a link: the first tagged one that has it, or else the first one. -/
def standIn (rows : List Node) (link : String) : Option Node :=
  (firstTagged? rows link).or (firstRow? rows link)

section StandIn
variable {rows : List Node} {row old : Node} {link : String}

theorem firstRow?_eq_none : firstRow? rows link = none ↔ link ∉ rows.map (·.link) := by
  simp [firstRow?]

theorem firstTagged?_eq_none :
    firstTagged? rows link = none ↔ ∀ row ∈ rows, row.link = link → row.tag = none := by
  simp [firstTagged?]

theorem mem_of_firstRow? (h : firstRow? rows link = some row) : row ∈ rows ∧ row.link = link :=
  ⟨List.mem_of_find?_eq_some h, by simpa using List.find?_some h⟩

theorem mem_of_firstTagged? (h : firstTagged? rows link = some row) :
    row ∈ rows ∧ row.link = link ∧ row.tag.isSome = true :=
  ⟨List.mem_of_find?_eq_some h, by simpa using List.find?_some h⟩

theorem mem_of_standIn (h : standIn rows link = some row) : row ∈ rows ∧ row.link = link := by
  rcases Option.or_eq_some_iff.1 h with h | ⟨-, h⟩
  · exact ⟨(mem_of_firstTagged? h).1, (mem_of_firstTagged? h).2.1⟩
  · exact mem_of_firstRow? h

/-- Another link has nothing to do with it. -/
theorem standIn_append_of_ne (h : row.link ≠ link) :
    standIn (rows ++ [row]) link = standIn rows link := by
  simp [standIn, firstTagged?, firstRow?, List.find?_append, h]

/-- The first row with a link stands for it. -/
theorem standIn_append_of_notMem (h : row.link ∉ rows.map (·.link)) :
    standIn (rows ++ [row]) row.link = some row := by
  have hfirst : firstRow? rows row.link = none := firstRow?_eq_none.2 h
  have htagged : firstTagged? rows row.link = none :=
    firstTagged?_eq_none.2 fun other hmem hlink => absurd (List.mem_map.2 ⟨other, hmem, hlink⟩) h
  rw [firstRow?] at hfirst
  rw [firstTagged?] at htagged
  cases htag : row.tag <;>
    simp [standIn, firstTagged?, firstRow?, List.find?_append, hfirst, htagged, htag]

/-- Another row with the link stands for it if it is the first tagged one. -/
theorem standIn_append_of_some (h : standIn rows row.link = some old) :
    standIn (rows ++ [row]) row.link =
      some (if old.tag.isNone && row.tag.isSome then row else old) := by
  rcases Option.or_eq_some_iff.1 h with htagged | ⟨hnone, hfirst⟩
  · have hsome := (mem_of_firstTagged? htagged).2.2
    rw [firstTagged?] at htagged
    cases htag : old.tag with
    | none => simp [htag] at hsome
    | some tag => simp [standIn, firstTagged?, List.find?_append, htagged]
  · have huntagged : old.tag = none :=
      firstTagged?_eq_none.1 hnone old (mem_of_firstRow? hfirst).1 (mem_of_firstRow? hfirst).2
    rw [firstTagged?] at hnone
    rw [firstRow?] at hfirst
    cases htag : row.tag <;>
      simp [standIn, firstTagged?, firstRow?, List.find?_append, hnone, hfirst, huntagged, htag]

end StandIn

/-! ## Candidates -/

namespace Candidate

variable {group : String} {node : Node} {c : Candidate} {cs : List Candidate}

theorem mem_groups_meet {other : String} :
    other ∈ (c.meet group node).groups ↔ other ∈ c.groups ∨ other = group := by
  simp only [meet]
  split
  · next hmem =>
    refine ⟨.inl, fun h => h.elim id ?_⟩
    rintro rfl
    simpa using hmem
  · simp

/-- A row with a new link becomes a candidate. -/
theorem add_of_notMem (h : node.link ∉ cs.map (·.node.link)) :
    add group node cs = cs ++ [⟨node, [group]⟩] := by
  induction cs with
  | nil => rfl
  | cons c rest ih =>
    rw [List.map_cons, List.mem_cons, not_or] at h
    rw [add, if_neg (Ne.symm h.1), ih h.2, List.cons_append]

/-- A row with a known link is met by the one candidate that has it. -/
theorem add_of_mem (hnodup : (cs.map (·.node.link)).Nodup) (h : node.link ∈ cs.map (·.node.link)) :
    add group node cs =
      cs.map fun c => if c.node.link = node.link then c.meet group node else c := by
  induction cs with
  | nil => cases h
  | cons c rest ih =>
    obtain ⟨hother, hnodup⟩ := List.nodup_cons.1 hnodup
    rw [add, List.map_cons]
    split
    · next hlink =>
      have hrest : ∀ c' ∈ rest, c'.node.link ≠ node.link := fun c' hc' hlink' =>
        hother (List.mem_map.2 ⟨c', hc', hlink'.trans hlink.symm⟩)
      rw [List.map_congr_left fun c' hc' => if_neg (hrest c' hc'), List.map_id']
    · next hlink => rw [ih hnodup ((List.mem_cons.1 h).resolve_left (Ne.symm hlink))]

end Candidate

/-! ## All that is met -/

/-- A link is met in a group. -/
def MetIn (met : List Visit) (group link : String) : Prop :=
  ∃ v ∈ met, v.group = group ∧ v.node.link = link

theorem metIn_append {met : List Visit} {v : Visit} {group link : String} :
    MetIn (met ++ [v]) group link ↔
      MetIn met group link ∨ (v.group = group ∧ v.node.link = link) := by
  simp [MetIn, or_and_right, exists_or]

theorem MetIn.mem {met : List Visit} {group link : String} (h : MetIn met group link) :
    link ∈ (met.map (·.node)).map (·.link) := by
  obtain ⟨v, hv, -, rfl⟩ := h
  exact List.mem_map_of_mem (List.mem_map_of_mem hv)

/-- Candidates that are what was met. -/
structure Merges (met : List Visit) (cs : List Candidate) : Prop where
  /-- No link has two candidates. -/
  nodup : (cs.map (·.node.link)).Nodup
  /-- The links of the candidates are those that were met. -/
  links : ∀ link, link ∈ cs.map (·.node.link) ↔ link ∈ (met.map (·.node)).map (·.link)
  /-- A candidate is the row that stands for its link. -/
  row : ∀ c ∈ cs, standIn (met.map (·.node)) c.node.link = some c.node
  /-- It is in the groups that its link was met in. -/
  groups : ∀ c ∈ cs, ∀ group, group ∈ c.groups ↔ MetIn met group c.node.link

namespace Merges

variable {met : List Visit} {cs : List Candidate} {v : Visit}

theorem nil : Merges [] [] :=
  ⟨List.nodup_nil, fun _ => .rfl, fun _ hc => absurd hc List.not_mem_nil,
    fun _ hc => absurd hc List.not_mem_nil⟩

/-- A link that was not met before. -/
theorem add_new (h : Merges met cs) (hv : v.node.link ∉ cs.map (·.node.link)) :
    Merges (met ++ [v]) (Candidate.add v.group v.node cs) := by
  have hne : ∀ c ∈ cs, v.node.link ≠ c.node.link := fun c hc hlink =>
    hv (hlink ▸ List.mem_map_of_mem hc)
  have hnew : v.node.link ∉ (met.map (·.node)).map (·.link) := mt (h.links _).2 hv
  rw [Candidate.add_of_notMem hv]
  refine ⟨?_, fun link => ?_, fun c hc => ?_, fun c hc group => ?_⟩
  · rw [List.map_append, List.nodup_append]
    refine ⟨h.nodup, by simp, ?_⟩
    simpa using fun c hc => (hne c hc).symm
  · simp only [List.map_append, List.mem_append, h.links link]
    rfl
  · rw [List.map_append, List.map_singleton]
    rcases List.mem_append.1 hc with hc | hc
    · rw [standIn_append_of_ne (hne c hc), h.row c hc]
    · rw [List.mem_singleton.1 hc, standIn_append_of_notMem hnew]
  · rw [metIn_append]
    rcases List.mem_append.1 hc with hc | hc
    · simp [h.groups c hc group, hne c hc]
    · rw [List.mem_singleton.1 hc]
      simp [mt MetIn.mem hnew, eq_comm]

/-- A link that was met before. -/
theorem add_known (h : Merges met cs) (hv : v.node.link ∈ cs.map (·.node.link)) :
    Merges (met ++ [v]) (Candidate.add v.group v.node cs) := by
  rw [Candidate.add_of_mem h.nodup hv]
  -- what becomes of a candidate keeps its link, stands for it, and is in one more group
  have hmeet : ∀ c ∈ cs, let c' := if c.node.link = v.node.link then c.meet v.group v.node else c
      c'.node.link = c.node.link ∧ standIn ((met ++ [v]).map (·.node)) c.node.link = some c'.node ∧
        ∀ group, group ∈ c'.groups ↔ MetIn (met ++ [v]) group c.node.link := by
    intro c hc
    have hrow := h.row c hc
    simp only [List.map_append, List.map_singleton, metIn_append, ← h.groups c hc]
    split
    · next hlink =>
      rw [hlink] at hrow ⊢
      refine ⟨?_, standIn_append_of_some hrow, fun group => ?_⟩
      · simp only [Candidate.meet]
        split
        · rfl
        · exact hlink
      · simp [Candidate.mem_groups_meet, eq_comm]
    · next hlink =>
      rw [standIn_append_of_ne (Ne.symm hlink)]
      exact ⟨rfl, hrow, by simp [Ne.symm hlink]⟩
  have hlinks : (cs.map fun c => if c.node.link = v.node.link then c.meet v.group v.node else c).map
      (·.node.link) = cs.map (·.node.link) := by
    rw [List.map_map]
    exact List.map_congr_left fun c hc => (hmeet c hc).1
  refine ⟨hlinks ▸ h.nodup, fun link => ?_, ?_, ?_⟩
  · rw [hlinks, h.links link, List.map_append, List.map_append, List.mem_append]
    refine ⟨.inl, fun hmem => hmem.elim id fun hlast => (h.links link).1 ?_⟩
    rwa [List.mem_singleton.1 hlast]
  all_goals
    intro c' hc'
    obtain ⟨c, hc, rfl⟩ := List.mem_map.1 hc'
    obtain ⟨hlink, hrow, hgroups⟩ := hmeet c hc
    rw [hlink]
  · exact hrow
  · exact hgroups

/-- **One row more.** -/
theorem add (h : Merges met cs) (v : Visit) :
    Merges (met ++ [v]) (Candidate.add v.group v.node cs) := by
  by_cases hv : v.node.link ∈ cs.map (·.node.link)
  · exact h.add_known hv
  · exact h.add_new hv

end Merges

/-- **What the candidates of some groups are.** -/
theorem merges_collect (members : List GroupMembers) :
    Merges (visits members) (collect members) := by
  rw [collect_eq_foldl]
  induction visits members using List.reverseRecOn with
  | nil => exact .nil
  | append_singleton met v ih =>
    rw [List.foldl_append]
    exact ih.add v

section Collect
variable {members : List GroupMembers} {c : Candidate}

theorem standIn_of_mem_collect (h : c ∈ collect members) :
    standIn (rowsOf members) c.node.link = some c.node :=
  map_node_visits members ▸ (merges_collect members).row c h

theorem mem_links_collect {link : String} :
    link ∈ (collect members).map (·.node.link) ↔ link ∈ (rowsOf members).map (·.link) :=
  map_node_visits members ▸ (merges_collect members).links link

theorem mem_groups_collect (h : c ∈ collect members) {group : String} :
    group ∈ c.groups ↔
      ∃ m ∈ members, m.group.name = group ∧ c.node.link ∈ m.nodes.map (·.link) := by
  rw [(merges_collect members).groups c h group]
  simp only [MetIn, mem_visits, List.mem_map]
  constructor
  · rintro ⟨v, ⟨m, hm, hgroup, hnode⟩, rfl, hlink⟩
    exact ⟨m, hm, hgroup, v.node, hnode, hlink⟩
  · rintro ⟨m, hm, hgroup, node, hnode, hlink⟩
    exact ⟨⟨group, node⟩, ⟨m, hm, hgroup, hnode⟩, rfl, hlink⟩

end Collect
end ProxyPlane
