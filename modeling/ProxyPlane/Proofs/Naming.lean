import Mathlib.Data.Finset.Card
import Mathlib.Data.List.Nodup
import Mathlib.Data.Nat.Find
import Mathlib.Order.Bounds.Defs
import ProxyPlane.Snapshot.Resolve

/-!
# Names of nodes

A node is named by its tag, or by its display name, with a number where that is taken.  Tags are
given out first, so that no other name gets in the way of a tag; every other name is looked for
among those that are free, and there is always one.

## What is here

* `exists_least_free` — some number leaves a name free, and the least of them is not greater than
  there are names.
* `freeNumber?_eq_ite` — what a search for a free number finds, however far it may go.
* `uniqueName_cases` — the name of an untagged row: its base if that is free, or the base with the
  least number that is free.
* `uniqueName_least` — the search for that number takes no more tries than there are names.
* `Suits row name` — the names that a row can be given.
* `mem_nameCandidates` — who has been given which name.
* `nodup_nameCandidates` — where tags come first and differ, all names differ.
-/

set_option autoImplicit false
namespace ProxyPlane

/-! ## Numbered names -/

section Numbered
variable {base : String} {taken : List String} {fuel n k : Nat}

theorem numbered_injective (base : String) : Function.Injective (numbered base) := by
  intro n m h
  have hdigits : Nat.toDigits 10 n = Nat.toDigits 10 m := by
    simpa [numbered] using congrArg String.toList h
  simpa using congrArg (Nat.ofDigitChars 10 · 0) hdigits

theorem numbered_ne_base (base : String) (n : Nat) : numbered base n ≠ base := by
  intro h
  simpa [numbered] using congrArg String.toList h

/-- There are as many numbered names as numbers. -/
theorem card_numbered (base : String) (k : Nat) :
    ((Finset.range k).image (numbered base)).card = k := by
  rw [Finset.card_image_of_injective _ (numbered_injective base), Finset.card_range]

theorem numbered_subset (htaken : ∀ j < k, numbered base j ∈ taken) :
    (Finset.range k).image (numbered base) ⊆ taken.toFinset := by
  intro name hname
  obtain ⟨j, hj, rfl⟩ := Finset.mem_image.1 hname
  exact List.mem_toFinset.2 (htaken j (Finset.mem_range.1 hj))

/-- Numbers with which a name is taken are no more than the names. -/
theorem le_card_of_taken (htaken : ∀ j < k, numbered base j ∈ taken) : k ≤ taken.toFinset.card := by
  have hle := Finset.card_le_card (numbered_subset htaken)
  rwa [card_numbered] at hle

/-- If the base is taken as well, there is one name more. -/
theorem lt_card_of_taken (hbase : base ∈ taken) (htaken : ∀ j < k, numbered base j ∈ taken) :
    k < taken.toFinset.card := by
  have hnew : base ∉ (Finset.range k).image (numbered base) := by
    intro hmem
    obtain ⟨j, -, hj⟩ := Finset.mem_image.1 hmem
    exact numbered_ne_base base j hj
  have hlt := Finset.card_lt_card <| (Finset.ssubset_iff_of_subset (numbered_subset htaken)).2
    ⟨base, List.mem_toFinset.2 hbase, hnew⟩
  rwa [card_numbered] at hlt

/-- **There is a least number with which a name is free**, no greater than there are names, since
different numbers give different names. -/
theorem exists_least_free (base : String) (taken : List String) :
    ∃ k ≤ taken.length, numbered base k ∉ taken ∧ ∀ j < k, numbered base j ∈ taken := by
  have hexists : ∃ k, numbered base k ∉ taken := by
    by_contra hnone
    have htaken : ∀ j, numbered base j ∈ taken := by simpa using hnone
    exact Nat.not_succ_le_self _ (le_card_of_taken fun j _ => htaken j)
  have hleast : ∀ j < Nat.find hexists, numbered base j ∈ taken :=
    fun j hj => not_not.1 (Nat.find_min hexists hj)
  refine ⟨Nat.find hexists, ?_, Nat.find_spec hexists, hleast⟩
  exact (le_card_of_taken hleast).trans (List.toFinset_card_le taken)

/-- **The search stops at the first free number**, however much further it may go; it finds nothing
only if it may not go that far. -/
theorem freeNumber?_eq_ite (hn : n ≤ k) (hfree : numbered base k ∉ taken)
    (hleast : ∀ j, n ≤ j → j < k → numbered base j ∈ taken) :
    freeNumber? base taken fuel n = if k < n + fuel then some k else none := by
  induction fuel generalizing n with
  | zero => rw [freeNumber?, if_neg (by omega)]
  | succ fuel ih =>
    rw [freeNumber?]
    rcases Nat.eq_or_lt_of_le hn with rfl | hlt
    · rw [if_neg (by simpa using hfree), if_pos (by omega)]
    · have htaken : taken.contains (numbered base n) = true := by
        simpa using hleast n (Nat.le_refl n) hlt
      rw [if_pos htaken, ih hlt fun j hj => hleast j (Nat.le_of_succ_le hj)]
      rw [Nat.add_right_comm n 1 fuel, Nat.add_assoc]

end Numbered

/-! ## The name of an untagged row -/

section Untagged
variable (node : Node) (taken : List String)

/-- **The name of an untagged row** is free: it is the base, or the base with the least number with
which it is free. -/
theorem uniqueName_cases :
    (baseName node ∉ taken ∧ uniqueName node taken = baseName node) ∨
    (baseName node ∈ taken ∧ ∃ k, uniqueName node taken = numbered (baseName node) k ∧
      numbered (baseName node) k ∉ taken ∧ ∀ j < k, numbered (baseName node) j ∈ taken) := by
  obtain ⟨k, hk, hfree, hleast⟩ := exists_least_free (baseName node) taken
  have hsearch : freeNumber? (baseName node) taken (taken.length + 1) 0 = some k := by
    rw [freeNumber?_eq_ite (Nat.zero_le k) hfree fun j _ => hleast j, if_pos (by omega)]
  rw [uniqueName]
  split
  · next htaken => exact .inr ⟨by simpa using htaken, k, by simp [hsearch], hfree, hleast⟩
  · next hfree => exact .inl ⟨by simpa using hfree, rfl⟩

theorem uniqueName_notMem : uniqueName node taken ∉ taken := by
  rcases uniqueName_cases node taken with ⟨hfree, hname⟩ | ⟨-, k, hname, hfree, -⟩
  · rwa [hname]
  · rwa [hname]

/-- **The search for a number ends with the least that is free.**  A base that is taken together
with its first numbers makes more names than numbers, so the least free number is less than the
number of names that are taken.  The search finds it as soon as it may go that far; in particular,
among the unsigned 64-bit words, if there are fewer names than such words. -/
theorem uniqueName_least :
    uniqueName node taken ∉ taken ∧
      (baseName node ∉ taken → uniqueName node taken = baseName node) ∧
      (baseName node ∈ taken → ∃ k, uniqueName node taken = numbered (baseName node) k ∧
        IsLeast {k | numbered (baseName node) k ∉ taken} k ∧ k < taken.toFinset.card ∧
        (∀ limit, freeNumber? (baseName node) taken limit 0 =
          if k < limit then some k else none) ∧
        (taken.toFinset.card ≤ Text.maxNat64 →
          freeNumber? (baseName node) taken (Text.maxNat64 + 1) 0 = some k)) := by
  refine ⟨uniqueName_notMem node taken, fun hfree => ?_, fun htaken => ?_⟩
  · obtain ⟨-, hname⟩ | ⟨htaken, -⟩ := uniqueName_cases node taken
    · exact hname
    · exact absurd htaken hfree
  · obtain ⟨hfree, -⟩ | ⟨-, k, hname, hfree, hleast⟩ := uniqueName_cases node taken
    · exact absurd htaken hfree
    · have hcard : k < taken.toFinset.card := lt_card_of_taken htaken hleast
      have hsearch (limit : Nat) : freeNumber? (baseName node) taken limit 0 =
          if k < limit then some k else none := by
        rw [freeNumber?_eq_ite (Nat.zero_le k) hfree fun j _ => hleast j, Nat.zero_add]
      have hlower : k ∈ lowerBounds {k | numbered (baseName node) k ∉ taken} :=
        fun j hj => Nat.not_lt.1 fun hlt => hj (hleast j hlt)
      refine ⟨k, hname, ⟨hfree, hlower⟩, hcard, hsearch, fun hwords => ?_⟩
      rw [hsearch, if_pos (Nat.lt_succ_of_lt (Nat.lt_of_lt_of_le hcard hwords))]

/-- Names with other numbers, or with a number that is written otherwise, are passed over. -/
theorem uniqueName_least_scattered :
    let row : Node := ⟨1, "socks5://a:1", "hk", "a:1", "socks5", none, some 7⟩
    let taken := ["7.hk.1", "hk", "7.hk", "7.hk.3", "7.hk.02", "7.hk.0"]
    uniqueName row taken = "7.hk.2" ∧ "7.hk.2" ∉ taken ∧
      IsLeast {k | numbered "7.hk" k ∉ taken} 2 ∧
      freeNumber? "7.hk" taken (Text.maxNat64 + 1) 0 = some 2 := by
  intro row taken
  have hbase : baseName row = "7.hk" := by decide +kernel
  have hname : uniqueName row taken = "7.hk.2" := by decide +kernel
  have hwritten : numbered "7.hk" 2 = "7.hk.2" := by decide +kernel
  obtain ⟨hnew, -, hsearch⟩ := uniqueName_least row taken
  obtain ⟨k, hk, hleast, -, -, hwords⟩ := hsearch (by decide +kernel)
  rw [hname] at hnew hk
  rw [hbase] at hk hleast hwords
  obtain rfl : 2 = k := numbered_injective "7.hk" (hwritten.trans hk)
  have hfew : taken.toFinset.card ≤ Text.maxNat64 :=
    (List.toFinset_card_le taken).trans (by decide)
  exact ⟨hname, hnew, hleast, hwords hfew⟩

theorem normalizeName_ne_empty (name : String) : normalizeName name ≠ "" := by
  rw [normalizeName]
  split
  · decide
  · next hchars =>
    intro hempty
    have := congrArg String.toList hempty
    simp_all

theorem numbered_ne_empty (base : String) (n : Nat) : numbered base n ≠ "" := by
  intro h
  simpa [numbered] using congrArg String.toList h

theorem baseName_ne_empty : baseName node ≠ "" := by
  rw [baseName]
  split
  · intro h
    simpa using congrArg String.toList h
  · exact normalizeName_ne_empty node.name

end Untagged

/-! ## The names that candidates are given -/

/-- A name that a row can be given: its tag, or, without one, its base or its base with a number. -/
inductive Suits (row : Node) : String → Prop
  | tag {name : String} (h : row.tag = some name) : Suits row name
  | base (h : row.tag = none) : Suits row (baseName row)
  | numbered (h : row.tag = none) (k : Nat) : Suits row (numbered (baseName row) k)

/-- A row without an empty tag has no empty name. -/
theorem Suits.ne_empty {row : Node} {name : String} (h : Suits row name)
    (htag : row.tag ≠ some "") : name ≠ "" := by
  cases h with
  | tag h =>
    rintro rfl
    exact htag h
  | base => exact baseName_ne_empty row
  | numbered => exact numbered_ne_empty _ _

section Candidates
variable {c : Candidate} {cs : List Candidate} {taken : List String} {node : ResolvedNode}

theorem Candidate.name_of_tag {tag : String} (h : c.node.tag = some tag) : c.name taken = tag := by
  rw [name, h, Option.getD_some]

theorem Candidate.name_of_untagged (h : c.node.tag = none) :
    c.name taken = uniqueName c.node taken := by
  rw [name, h, Option.getD_none]

theorem Candidate.suits_name (c : Candidate) (taken : List String) :
    Suits c.node (c.name taken) := by
  cases htag : c.node.tag with
  | some tag =>
    rw [name_of_tag htag]
    exact .tag htag
  | none =>
    rw [name_of_untagged htag]
    rcases uniqueName_cases c.node taken with ⟨-, hname⟩ | ⟨-, k, hname, -, -⟩
    · rw [hname]
      exact .base htag
    · rw [hname]
      exact .numbered htag k

@[simp] theorem map_link_nameCandidates (taken : List String) (cs : List Candidate) :
    (nameCandidates taken cs).map (·.link) = cs.map (·.node.link) := by
  induction cs generalizing taken with
  | nil => rfl
  | cons c rest ih => simp [nameCandidates, ih]

/-- **Who has been given which name**: a named node is a candidate with a name that suits it. -/
theorem mem_nameCandidates (h : node ∈ nameCandidates taken cs) :
    ∃ c ∈ cs, node.link = c.node.link ∧ node.node = c.node.id ∧ Suits c.node node.name ∧
      ∀ group, group ∈ node.groups ↔ group ∈ c.groups := by
  induction cs generalizing taken with
  | nil => cases h
  | cons c rest ih =>
    rw [nameCandidates] at h
    rcases List.mem_cons.1 h with rfl | h
    · exact ⟨c, List.mem_cons_self, rfl, rfl, c.suits_name taken, fun group => List.mem_mergeSort⟩
    · obtain ⟨c', hc', hgiven⟩ := ih h
      exact ⟨c', List.mem_cons_of_mem c hc', hgiven⟩

/-- **All names differ**, if tagged candidates come before the others and their tags differ. -/
theorem nodup_nameCandidates (hfirst : cs.Pairwise fun a b => a.node.tag = none → b.node.tag = none)
    (htags : (cs.filterMap (·.node.tag)).Nodup)
    (hfree : ∀ tag ∈ cs.filterMap (·.node.tag), tag ∉ taken) :
    ((nameCandidates taken cs).map (·.name)).Nodup ∧
      ∀ name ∈ (nameCandidates taken cs).map (·.name), name ∉ taken := by
  induction cs generalizing taken with
  | nil => exact ⟨List.nodup_nil, fun name h => absurd h List.not_mem_nil⟩
  | cons c rest ih =>
    obtain ⟨hafter, hfirst⟩ := List.pairwise_cons.1 hfirst
    -- the first name is free, and no tag that is still to be given out
    have hname : c.name taken ∉ taken ∧ (rest.filterMap (·.node.tag)).Nodup ∧
        ∀ tag ∈ rest.filterMap (·.node.tag), tag ∉ c.name taken :: taken := by
      cases htag : c.node.tag with
      | some tag =>
        rw [c.name_of_tag htag]
        rw [List.filterMap_cons, htag] at htags hfree
        obtain ⟨hother, htags⟩ := List.nodup_cons.1 htags
        refine ⟨hfree tag List.mem_cons_self, htags, fun tag' htag' => ?_⟩
        rintro (_ | ⟨_, hmem⟩)
        · exact hother htag'
        · exact hfree tag' (List.mem_cons_of_mem tag htag') hmem
      | none =>
        rw [c.name_of_untagged htag]
        have hnone : rest.filterMap (·.node.tag) = [] := by
          rw [List.filterMap_eq_nil_iff]
          exact fun c' hc' => hafter c' hc' htag
        rw [hnone]
        exact ⟨uniqueName_notMem _ _, List.nodup_nil, fun tag h => absurd h List.not_mem_nil⟩
    obtain ⟨hfresh, htags, hfree⟩ := hname
    obtain ⟨hnodup, havoid⟩ := ih hfirst htags hfree
    simp only [nameCandidates, List.map_cons, List.nodup_cons, List.forall_mem_cons]
    refine ⟨⟨fun hmem => havoid _ hmem List.mem_cons_self, hnodup⟩, hfresh, fun name hmem => ?_⟩
    exact fun htaken => havoid name hmem (List.mem_cons_of_mem _ htaken)

end Candidates
end ProxyPlane
