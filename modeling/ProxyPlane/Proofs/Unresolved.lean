import ProxyPlane.Proofs.Resolution

/-!
# What does not resolve

A routing refers to outbounds by name, one for its fallback and one for each of its rules, and a name
may carry a mark that is no part of the name of a group.  A name that is left without a group, and a
group that is left without nodes, are faults; the first kind is reported before the second, all of its
names at once, and of the second kind one group only.

## What is here

* `Unmarked` — what is left of a name without the mark; `unmarked_outboundGroup` is that the mark is
  taken off so.
* `RoutingOptions.references` — the names a routing refers to, as often as it does so.
* `FirstMet` — the entries of a list that have a property, once each, in the order in which they
  are met; `firstMet_missingNames` is what the names that are reported are.
* `find?_referenced_eq_some_iff` — which empty group is found.
* `resolve_faults` — which fault a resolution ends in, and when it ends in none.
-/

set_option autoImplicit false
namespace ProxyPlane

open Config

/-! ## The order in which entries are first met -/

section FirstMet
variable {l : List String} {p : String → Prop} {names : List String}

/-- Some names are the entries of a list that have a property, each of them once, in the order in
which the list has them first. -/
structure FirstMet (l : List String) (p : String → Prop) (names : List String) : Prop where
  mem : ∀ name, name ∈ names ↔ name ∈ l ∧ p name
  nodup : names.Nodup
  ordered : names.Pairwise fun name name' => l.idxOf name < l.idxOf name'

instance [DecidablePred p] : Decidable (FirstMet l p names) :=
  decidable_of_iff (((∀ name ∈ names, name ∈ l ∧ p name) ∧ ∀ name ∈ l, p name → name ∈ names) ∧
      names.Nodup ∧ names.Pairwise fun name name' => l.idxOf name < l.idxOf name')
    ⟨fun ⟨⟨hsub, hall⟩, hnodup, hordered⟩ =>
        ⟨fun name => ⟨hsub name, fun ⟨hname, hp⟩ => hall name hname hp⟩, hnodup, hordered⟩,
      fun h => ⟨⟨fun name => (h.mem name).1, fun name hname hp => (h.mem name).2 ⟨hname, hp⟩⟩,
        h.nodup, h.ordered⟩⟩

/-- Without its later duplicates a list is in the order in which it has its entries first. -/
theorem pairwise_idxOf_eraseDups (l : List String) :
    l.eraseDups.Pairwise fun name name' => l.idxOf name < l.idxOf name' := by
  induction l using List.reverseRecOn with
  | nil => simp
  | append_singleton l last ih =>
    have hbefore : l.eraseDups.Pairwise fun name name' =>
        (l ++ [last]).idxOf name < (l ++ [last]).idxOf name' := by
      refine ih.imp_of_mem fun hname hname' hlt => ?_
      rw [List.mem_eraseDups] at hname hname'
      rwa [List.idxOf_append_of_mem hname, List.idxOf_append_of_mem hname']
    rw [List.eraseDups_append]
    by_cases hmem : last ∈ l
    · simpa [List.removeAll, hmem] using hbefore
    · have hnew : ([last].removeAll l).eraseDups = [last] := by
        simp [List.removeAll, hmem, List.eraseDups_cons]
      rw [hnew, List.pairwise_append]
      refine ⟨hbefore, List.pairwise_singleton _ _, fun name hname name' hlast => ?_⟩
      rw [List.mem_eraseDups] at hname
      rw [List.mem_singleton.1 hlast, List.idxOf_append_of_mem hname,
        List.idxOf_append_of_notMem hmem, List.idxOf_cons_self]
      exact Nat.lt_of_lt_of_le (List.idxOf_lt_length_of_mem hname) (Nat.le_add_right _ _)

/-- Entries are first met in the order of a list without its later duplicates. -/
theorem firstMet_filter {keep : String → Bool} (hkeep : ∀ name ∈ l, keep name = true ↔ p name) :
    FirstMet l p (l.eraseDups.filter keep) := by
  have hordered := (pairwise_idxOf_eraseDups l).sublist (List.filter_sublist (p := keep))
  refine ⟨fun name => ?_, hordered.imp fun hlt heq => ?_, hordered⟩
  · rw [List.mem_filter, List.mem_eraseDups]
    exact and_congr_right (hkeep name)
  · rw [heq] at hlt
    exact Nat.lt_irrefl _ hlt

/-- There are such names exactly when an entry has the property. -/
theorem FirstMet.ne_nil_iff (h : FirstMet l p names) : names ≠ [] ↔ ∃ name ∈ l, p name := by
  refine ⟨fun hne => ?_, fun ⟨name, hname⟩ => List.ne_nil_of_mem ((h.mem name).2 hname)⟩
  obtain ⟨name, hname⟩ := List.exists_mem_of_ne_nil _ hne
  exact ⟨name, (h.mem name).1 hname⟩

/-- One list only is in that order. -/
theorem FirstMet.unique {names' : List String} (h : FirstMet l p names)
    (h' : FirstMet l p names') : names = names' := by
  refine List.Perm.eq_of_pairwise (fun _ _ _ _ hlt hgt => absurd hgt (Nat.lt_asymm hlt)) h.ordered
    h'.ordered ((List.perm_ext_iff_of_nodup h.nodup h'.nodup).2 fun name => ?_)
  rw [h.mem, h'.mem]

end FirstMet

/-! ## The names that are referred to -/

/-- What is left of the name of an outbound when one mark is taken off its front.  The name of the
outbound that overrides all rules is kept whole, and so are names without a mark. -/
inductive Unmarked : String → String → Prop
  | whole : Unmarked mustRules mustRules
  | marked (name : String) : "must_" ++ name ≠ mustRules → Unmarked ("must_" ++ name) name
  | plain (name : String) : (∀ rest, name ≠ "must_" ++ rest) → Unmarked name name

theorem unmarked_outboundGroup (name : String) : Unmarked name (outboundGroup name) := by
  rw [outboundGroup]
  split
  · next hwhole =>
    rw [hwhole]
    exact .whole
  · next hwhole =>
    split
    · next hmark =>
      obtain ⟨rest, hrest⟩ := List.isPrefixOf_iff_prefix.1 hmark
      have hname : name = "must_" ++ String.ofList rest := by
        rw [← String.toList_inj, String.toList_append, ← hrest]
        exact congrArg (mustMark ++ ·) (String.toList_ofList).symm
      rw [← hrest, List.drop_left, hname]
      exact .marked _ (hname ▸ hwhole)
    · next hmark =>
      refine .plain name ?_
      rintro rest rfl
      refine hmark (List.isPrefixOf_iff_prefix.2 ⟨rest.toList, ?_⟩)
      rw [String.toList_append]
      rfl

namespace Config.RoutingOptions
variable (routing : RoutingOptions)

/-- The outbounds of a routing, the fallback first. -/
def calls : List Call := routing.fallback :: routing.rules.map Rule.outbound

/-- The names a routing refers to, in the order in which it does so and as often. -/
def references : List String := routing.calls.map fun call => outboundGroup call.name

theorem outbounds_eq : routing.outbounds = routing.references.eraseDups := rfl

theorem mem_outbounds {name : String} : name ∈ routing.outbounds ↔ name ∈ routing.references := by
  rw [outbounds_eq, List.mem_eraseDups]

/-- The names of the outbounds are referred to without their marks. -/
theorem unmarked_references :
    List.Forall₂ Unmarked (routing.calls.map (·.name)) routing.references := by
  rw [references, List.forall₂_map_left_iff, List.forall₂_map_right_iff, List.forall₂_same]
  exact fun call _ => unmarked_outboundGroup call.name

end Config.RoutingOptions

/-! ## The two faults -/

section Faults
variable {members : List GroupMembers} {routingName : String} {routing : RoutingOptions}

/-- A name that is neither that of a group nor built in. -/
def Unresolved (members : List GroupMembers) (name : String) : Prop :=
  name ∉ members.map (·.group.name) ∧ name ∉ builtinOutbounds

instance (members : List GroupMembers) (name : String) : Decidable (Unresolved members name) :=
  inferInstanceAs (Decidable (_ ∧ _))

/-- The names that are missing among the groups referred to are those that are missing among all. -/
theorem firstMet_missingNames (members : List GroupMembers) (routing : RoutingOptions) :
    FirstMet routing.references (Unresolved members)
      (missingNames routing (referenced routing members)) := by
  refine firstMet_filter fun name hname => ?_
  have hnamed : (∃ m ∈ referenced routing members, m.group.name = name) ↔
      name ∈ members.map (·.group.name) := by
    rw [List.mem_map]
    refine exists_congr fun m => ?_
    rw [mem_referenced]
    refine ⟨fun ⟨⟨hm, _⟩, heq⟩ => ⟨hm, heq⟩, fun ⟨hm, heq⟩ => ⟨⟨hm, ?_⟩, heq⟩⟩
    rw [heq]
    exact routing.mem_outbounds.2 hname
  rw [Unresolved, ← hnamed]
  simp [isBuiltinOutbound]

theorem missingNames_eq_nil_iff : missingNames routing (referenced routing members) = [] ↔
    ∀ name ∈ routing.references, ¬Unresolved members name := by
  rw [← not_iff_not, ← ne_eq, (firstMet_missingNames members routing).ne_nil_iff]
  push Not
  rfl

/-- **The empty group that is found** is the one with the least identifier among those that are
referred to. -/
theorem find?_referenced_eq_some_iff {m : GroupMembers}
    (hids : (members.map (·.group.id)).Nodup) :
    (referenced routing members).find? (fun m => m.nodes.isEmpty) = some m ↔
      (m ∈ members ∧ m.group.name ∈ routing.references ∧ m.nodes = []) ∧
        ∀ m' ∈ members, m'.group.name ∈ routing.references → m'.nodes = [] →
          m.group.id ≤ m'.group.id := by
  have hmem : ∀ {m}, m ∈ referenced routing members ↔
      m ∈ members ∧ m.group.name ∈ routing.references := fun {m} => by
    rw [mem_referenced, routing.mem_outbounds]
  have hsorted : (referenced routing members).Pairwise fun m m' => m.group.id < m'.group.id :=
    pairwise_referenced hids
  constructor
  · intro hfind
    obtain ⟨hempty, before, after, heq, hbefore⟩ := List.find?_eq_some_iff_append.1 hfind
    have hm := hmem.1 (List.mem_of_find?_eq_some hfind)
    refine ⟨⟨hm.1, hm.2, by simpa using hempty⟩, fun m' hm' href hempty' => ?_⟩
    -- no group before the one that is found is empty, and those after it have larger identifiers
    rw [heq, List.pairwise_append, List.pairwise_cons] at hsorted
    rcases List.mem_append.1 (heq ▸ hmem.2 ⟨hm', href⟩) with hfirst | hrest
    · have := hbefore m' hfirst
      simp [hempty'] at this
    · rcases List.mem_cons.1 hrest with rfl | hlast
      · exact Int.le_refl _
      · exact Int.le_of_lt (hsorted.2.1.1 m' hlast)
  · rintro ⟨⟨hm, href, hempty⟩, hleast⟩
    cases hfind : (referenced routing members).find? fun m => m.nodes.isEmpty with
    | none =>
      have := List.find?_eq_none.1 hfind m (hmem.2 ⟨hm, href⟩)
      simp [hempty] at this
    | some first =>
      obtain ⟨hempty', before, after, heq, hbefore⟩ := List.find?_eq_some_iff_append.1 hfind
      have hfirst := hmem.1 (List.mem_of_find?_eq_some hfind)
      have hle := hleast first hfirst.1 hfirst.2 (by simpa using hempty')
      rw [heq, List.pairwise_append, List.pairwise_cons] at hsorted
      rcases List.mem_append.1 (heq ▸ hmem.2 ⟨hm, href⟩) with hmem' | hrest
      · have := hbefore m hmem'
        simp [hempty] at this
      · rcases List.mem_cons.1 hrest with rfl | hlast
        · rfl
        · exact absurd (hsorted.2.1.1 m hlast) (Int.not_lt.2 hle)

/-- How a resolution ends. -/
theorem resolve_cases (members : List GroupMembers) (routingName : String)
    (routing : RoutingOptions) :
    (missingNames routing (referenced routing members) ≠ [] ∧
      resolve members routingName routing =
        .error (.missingGroups (missingNames routing (referenced routing members)))) ∨
    (missingNames routing (referenced routing members) = [] ∧ ∃ m,
      (referenced routing members).find? (fun m => m.nodes.isEmpty) = some m ∧
        resolve members routingName routing = .error (.emptyGroup m.group.name routingName)) ∨
    (missingNames routing (referenced routing members) = [] ∧
      (∀ m ∈ referenced routing members, m.nodes ≠ []) ∧
        ∃ resolution, resolve members routingName routing = .ok resolution) := by
  by_cases hmissing : missingNames routing (referenced routing members) = []
  · cases hfind : (referenced routing members).find? fun m => m.nodes.isEmpty with
    | some m =>
      refine .inr (.inl ⟨hmissing, m, rfl, ?_⟩)
      simp [resolve, hmissing, hfind]
    | none =>
      refine .inr (.inr ⟨hmissing, by simpa using hfind, ?_⟩)
      simp [resolve, hmissing, hfind]
  · refine .inl ⟨hmissing, ?_⟩
    simp [resolve, hmissing]

/-- **Which fault a resolution ends in.**  Of the names that a routing refers to, without their
marks, those that are neither the name of a group nor built in are reported, if there are any: all
of them, each once, in the order in which they are referred to, where the fallback comes first.
Otherwise the group with the least identifier is reported among those that are referred to and have
no nodes, if there is one, together with the routing.  Otherwise the resolution succeeds. -/
theorem resolve_faults (hids : (members.map (·.group.id)).Nodup) :
    List.Forall₂ Unmarked (routing.calls.map (·.name)) routing.references ∧
      ((∃ names, resolve members routingName routing = .error (.missingGroups names)) ↔
        ∃ name ∈ routing.references, Unresolved members name) ∧
      (∀ names, resolve members routingName routing = .error (.missingGroups names) ↔
        names ≠ [] ∧ FirstMet routing.references (Unresolved members) names) ∧
      (∀ group reported,
        resolve members routingName routing = .error (.emptyGroup group reported) ↔
          (∀ name ∈ routing.references, ¬Unresolved members name) ∧ reported = routingName ∧
            ∃ m ∈ members, m.group.name = group ∧ group ∈ routing.references ∧ m.nodes = [] ∧
              ∀ m' ∈ members, m'.group.name ∈ routing.references → m'.nodes = [] →
                m.group.id ≤ m'.group.id) ∧
      ((∃ resolution, resolve members routingName routing = .ok resolution) ↔
        (∀ name ∈ routing.references, ¬Unresolved members name) ∧
          ∀ m ∈ members, m.group.name ∈ routing.references → m.nodes ≠ []) ∧
      ∀ fault, resolve members routingName routing ≠ .error (.grammar fault) := by
  refine ⟨routing.unmarked_references, ?_⟩
  have hfirst := firstMet_missingNames members routing
  have hnone : missingNames routing (referenced routing members) = [] →
      ∀ names, ¬(names ≠ [] ∧ FirstMet routing.references (Unresolved members) names) :=
    fun hmissing names ⟨hne, h⟩ => hne (h.unique hfirst ▸ hmissing)
  rw [← missingNames_eq_nil_iff, ← hfirst.ne_nil_iff]
  rcases resolve_cases members routingName routing with
    ⟨hmissing, heq⟩ | ⟨hmissing, m, hfind, heq⟩ | ⟨hmissing, hnodes, resolution, heq⟩
  · rw [heq]
    refine ⟨by simp [hmissing], fun names => ?_, by simp [hmissing], by simp [hmissing], by simp⟩
    rw [Except.error.injEq, CompileError.missingGroups.injEq]
    refine ⟨?_, fun ⟨_, h⟩ => hfirst.unique h⟩
    rintro rfl
    exact ⟨hmissing, hfirst⟩
  · rw [heq]
    obtain ⟨⟨hm, href, hempty⟩, hleast⟩ := (find?_referenced_eq_some_iff hids).1 hfind
    refine ⟨by simp [hmissing], by simpa using hnone hmissing, fun group reported => ?_, ?_, by simp⟩
    · simp only [Except.error.injEq, CompileError.emptyGroup.injEq, hmissing, true_and]
      constructor
      · rintro ⟨rfl, rfl⟩
        exact ⟨rfl, m, hm, rfl, href, hempty, hleast⟩
      · rintro ⟨rfl, m', hm', rfl, href', hempty', hleast'⟩
        have := (find?_referenced_eq_some_iff hids).2 ⟨⟨hm', href', hempty'⟩, hleast'⟩
        rw [hfind, Option.some.injEq] at this
        exact ⟨congrArg (·.group.name) this, rfl⟩
    · simp only [reduceCtorEq, exists_false, false_iff]
      exact fun ⟨_, hnodes⟩ => hnodes m hm href hempty
  · rw [heq]
    have hnodes : ∀ m ∈ members, m.group.name ∈ routing.references → m.nodes ≠ [] :=
      fun m hm href => hnodes m (mem_referenced.2 ⟨hm, routing.mem_outbounds.2 href⟩)
    refine ⟨by simp [hmissing], by simpa using hnone hmissing, fun group reported => ?_, ?_, by simp⟩
    · simp only [reduceCtorEq, false_iff]
      rintro ⟨-, -, m, hm, rfl, href, hempty, -⟩
      exact hnodes m hm href hempty
    · exact ⟨fun _ => ⟨hmissing, hnodes⟩, fun _ => ⟨resolution, rfl⟩⟩

end Faults

/-- Three groups, of which the first and the last have no nodes; one has the name of an outbound that
is built in. -/
def deserted : List GroupMembers :=
  let group := fun id name => Group.mk id name "random" [] [] [] 1
  [⟨group 3 "block", []⟩, ⟨group 1 "media", [⟨1, "socks5://a:1", "a", "a:1", "socks5", none, none⟩]⟩,
    ⟨group 2 "proxy", []⟩]

/-- A routing whose rules have the given outbounds. -/
def routingTo (fallback : String) (outbounds : List String) : RoutingOptions :=
  ⟨outbounds.map fun name => ⟨[], .named name⟩, .named fallback, []⟩

/-- Names are lost under a mark, without one, and twice; a name that only begins like the outbound
which overrides all rules is one of them.  Of two empty groups the one with the lower identifier is
reported, and the one with a built-in name where it is alone. -/
theorem resolve_faults_deserted :
    (deserted.map (·.group.id)).Nodup ∧
      resolve deserted "main" (routingTo "gone"
          ["must_rules", "nowhere", "must_proxy", "must_must_rules2", "must_nowhere", "must_direct"])
        = .error (.missingGroups ["gone", "nowhere", "must_rules2"]) ∧
      resolve deserted "main" (routingTo "block" ["must_proxy", "media"]) =
        .error (.emptyGroup "proxy" "main") ∧
      resolve deserted "main" (routingTo "must_block" ["media", "direct"]) =
        .error (.emptyGroup "block" "main") ∧
      ∃ resolution, resolve deserted "main" (routingTo "must_media" ["direct"]) = .ok resolution := by
  have hids : (deserted.map (·.group.id)).Nodup := by decide
  refine ⟨hids, ?_, ?_, ?_, ?_⟩
  · exact ((resolve_faults hids).2.2.1 _).2 (by decide +kernel)
  · exact ((resolve_faults hids).2.2.2.1 _ _).2 (by decide +kernel)
  · exact ((resolve_faults hids).2.2.2.1 _ _).2 (by decide +kernel)
  · exact (resolve_faults hids).2.2.2.2.1.2 (by decide +kernel)

end ProxyPlane
