import ProxyPlane.Proofs.Stability

/-!
# What no snapshot tells

A node has an identifier, by which the store knows it, and an address; a group has a version and
knows what is attached to it.  None of this is in a snapshot, and nothing on the way to one looks at
it: rows are merged by their links, named by their tags and display names, and put into groups by the
names of these.  So it makes no difference to a snapshot whether it was there at all.

## What is here

* `Node.anonymous`, `GroupMembers.anonymous` — rows without what no snapshot tells.
* `collect_anonymous`, `nameCandidates_anonymous`, `resolve_anonymous` — each step of a resolution
  does with such rows what it does with the rows themselves.
* `compile_anonymous` — so does a compilation, and `snapshot_eq_of_anonymous` — groups that are the
  same once they are anonymous compile to the same snapshot, or to the same fault.
-/

set_option autoImplicit false
namespace ProxyPlane

open Config

/-! ## Rows without what no snapshot tells -/

/-- A node without its identifier and its address. -/
def Node.anonymous (n : Node) : Node := { n with id := 0, address := "", protocol := "" }

/-- A group without its version and without what is attached to it. -/
def Group.anonymous (g : Group) : Group := { g with nodes := [], subscriptions := [], version := 0 }

/-- An anonymous group with anonymous nodes. -/
def GroupMembers.anonymous (m : GroupMembers) : GroupMembers :=
  ⟨m.group.anonymous, m.nodes.map Node.anonymous⟩

/-- Groups are found by their names and come in the order of their identifiers, so both stay. -/
theorem GroupMembers.anonymous_id (m : GroupMembers) : m.anonymous.group.id = m.group.id := rfl

theorem GroupMembers.anonymous_name (m : GroupMembers) : m.anonymous.group.name = m.group.name :=
  rfl

/-- A candidate whose row is anonymous. -/
def Candidate.anonymous (c : Candidate) : Candidate := { c with node := c.node.anonymous }

/-- A node of a resolution that does not tell which row stands for its link. -/
def ResolvedNode.anonymous (n : ResolvedNode) : ResolvedNode := { n with node := 0 }

/-- A resolution of anonymous groups that does not tell which rows stand for its links. -/
def Resolution.anonymous (r : Resolution) : Resolution :=
  ⟨r.groups.map fun g => ⟨g.group.anonymous, g.nodes⟩, r.nodes.map ResolvedNode.anonymous⟩

/-! ## The steps of a resolution -/

namespace Candidate

theorem meet_anonymous (group : String) (node : Node) (c : Candidate) :
    c.anonymous.meet group node.anonymous = (c.meet group node).anonymous := by
  have htags : (c.node.anonymous.tag.isNone && node.anonymous.tag.isSome) =
      (c.node.tag.isNone && node.tag.isSome) := rfl
  simp only [meet, anonymous, htags]
  split <;> rfl

theorem add_anonymous (group : String) (node : Node) (cs : List Candidate) :
    add group node.anonymous (cs.map anonymous) = (add group node cs).map anonymous := by
  induction cs with
  | nil => rfl
  | cons c cs ih =>
    by_cases h : c.node.link = node.link
    · rw [List.map_cons, add, if_pos (by exact h), add, if_pos h, List.map_cons, meet_anonymous]
    · rw [List.map_cons, add, if_neg (by exact h), add, if_neg h, List.map_cons, ih]

theorem foldl_add_anonymous (vs : List Visit) (cs : List Candidate) :
    vs.foldl (fun cs v => add v.group v.node.anonymous cs) (cs.map anonymous) =
      (vs.foldl (fun cs v => add v.group v.node cs) cs).map anonymous := by
  induction vs generalizing cs with
  | nil => rfl
  | cons v vs ih => rw [List.foldl_cons, add_anonymous, ih, List.foldl_cons]

/-- A name depends on the tag, the display name and the subscription. -/
theorem name_anonymous (taken : List String) (c : Candidate) :
    c.anonymous.name taken = c.name taken :=
  rfl

end Candidate

theorem collect_anonymous (members : List GroupMembers) :
    collect (members.map GroupMembers.anonymous) = (collect members).map Candidate.anonymous := by
  have hvisits : visits (members.map GroupMembers.anonymous) =
      (visits members).map fun v : Visit => ⟨v.group, v.node.anonymous⟩ := by
    simp only [visits, List.flatMap_map, List.map_flatMap, GroupMembers.anonymous, List.map_map]
    rfl
  rw [collect_eq_foldl, collect_eq_foldl, hvisits, List.foldl_map]
  exact Candidate.foldl_add_anonymous (visits members) []

theorem taggedFirst_anonymous (cs : List Candidate) :
    taggedFirst (cs.map Candidate.anonymous) = (taggedFirst cs).map Candidate.anonymous := by
  rw [taggedFirst, List.filter_map, List.filter_map, taggedFirst, List.map_append]
  rfl

theorem nameCandidates_anonymous (taken : List String) (cs : List Candidate) :
    nameCandidates taken (cs.map Candidate.anonymous) =
      (nameCandidates taken cs).map ResolvedNode.anonymous := by
  induction cs generalizing taken with
  | nil => rfl
  | cons c cs ih =>
    rw [List.map_cons, nameCandidates, Candidate.name_anonymous, ih, nameCandidates, List.map_cons]
    rfl

theorem resolvedNodes_anonymous (found : List GroupMembers) :
    resolvedNodes (found.map GroupMembers.anonymous) =
      (resolvedNodes found).map ResolvedNode.anonymous := by
  rw [resolvedNodes, collect_anonymous, taggedFirst_anonymous, nameCandidates_anonymous,
    resolvedNodes]

theorem namesIn_anonymous (nodes : List ResolvedNode) (group : String) :
    namesIn (nodes.map ResolvedNode.anonymous) group = namesIn nodes group := by
  rw [namesIn, List.filter_map, List.map_map, namesIn]
  rfl

/-- **A resolution** of anonymous groups is the resolution of the groups, made anonymous. -/
theorem resolve_anonymous (members : List GroupMembers) (routingName : String)
    (routing : RoutingOptions) :
    resolve (members.map GroupMembers.anonymous) routingName routing =
      (resolve members routingName routing).map Resolution.anonymous := by
  have hfound : referenced routing (members.map GroupMembers.anonymous) =
      (referenced routing members).map GroupMembers.anonymous :=
    referenced_map GroupMembers.anonymous_id GroupMembers.anonymous_name routing members
  rw [resolve, hfound, resolve]
  generalize referenced routing members = found
  have hmissing : missingNames routing (found.map GroupMembers.anonymous) =
      missingNames routing found :=
    missingNames_map GroupMembers.anonymous_name routing found
  have hempty : (fun m : GroupMembers => m.nodes.isEmpty) ∘ GroupMembers.anonymous =
      fun m => m.nodes.isEmpty := by
    funext m
    simp [GroupMembers.anonymous]
  dsimp only
  rw [hmissing, List.find?_map, hempty]
  split
  -- a fault tells names, and these stay
  · rfl
  · cases found.find? fun m => m.nodes.isEmpty with
    | some m => rfl
    | none =>
      have hgroups := namesIn_anonymous (resolvedNodes found)
      have hnodes := resolvedNodes_anonymous found
      simp only [resolvedNodes, namesIn] at hnodes hgroups
      simp only [Option.map_none, Except.map, Resolution.anonymous, hnodes, List.map_map,
        Function.comp_def, GroupMembers.anonymous, Group.anonymous, hgroups]

/-! ## Compilations -/

theorem assemble_anonymous (sections : Sections) (resolution : Resolution) :
    assemble sections resolution.anonymous = assemble sections resolution := by
  simp only [assemble, Resolution.anonymous, List.map_map]
  rfl

/-- **A compilation** of anonymous groups gives the snapshot of the groups, or their fault. -/
theorem compile_anonymous (sections : Sections) (name : String) (members : List GroupMembers) :
    (compile sections name (members.map GroupMembers.anonymous)).map (·.snapshot) =
      (compile sections name members).map (·.snapshot) := by
  rw [compile, resolve_anonymous, compile]
  cases resolve members name sections.routing with
  | error e => rfl
  | ok resolution =>
    show Except.ok (assemble sections resolution.anonymous) = .ok (assemble sections resolution)
    rw [assemble_anonymous]

/-- Groups that are the same once they are anonymous compile to the same snapshot, or to the same
fault. -/
theorem snapshot_eq_of_anonymous {members members' : List GroupMembers}
    (h : members.map GroupMembers.anonymous = members'.map GroupMembers.anonymous)
    (sections : Sections) (name : String) :
    (compile sections name members).map (·.snapshot) =
      (compile sections name members').map (·.snapshot) := by
  rw [← compile_anonymous, h, compile_anonymous]

end ProxyPlane
