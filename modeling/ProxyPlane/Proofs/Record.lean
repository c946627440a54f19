import ProxyPlane.Proofs.Recall

/-!
# What is read back of the record

The record of what runs is kept with the groups and their versions as texts.  Numbers within the
range of 64-bit words are read back from such a text as they were; others are not read back as
anything else.

## What is here

* `Text.splitOn_append` — a text with separators falls into its parts.
* `readBack`, `readNumbers_joinNumbers` — what is read back of a number, and of numbers with commas.
* `frozenVersions?_eq_some`, `readIds_joinNumbers` — what is read back of the versions and of the
  identifiers in a record.
* `Store.InStep`, `Store.inStep_of_drift_eq_none` — no drift is found only where the store still has
  the stamps of all that was run.
-/

set_option autoImplicit false
namespace ProxyPlane

/-! ## Parts of a text -/

namespace Text

variable {isSeparator : Char → Bool}

theorem splitOn_of_none {part : List Char} (h : ∀ c ∈ part, isSeparator c = false) :
    splitOn isSeparator part = [part] := by
  induction part with
  | nil => rfl
  | cons c rest ih =>
    have ⟨hc, hrest⟩ := List.forall_mem_cons.1 h
    simp [splitOn, hc, ih hrest]

theorem splitOn_append {part rest : List Char} {c : Char} (h : ∀ c ∈ part, isSeparator c = false)
    (hc : isSeparator c = true) :
    splitOn isSeparator (part ++ c :: rest) = part :: splitOn isSeparator rest := by
  induction part with
  | nil => simp [splitOn, hc]
  | cons d part ih =>
    have ⟨hd, hpart⟩ := List.forall_mem_cons.1 h
    simp [splitOn, hd, ih hpart]

theorem trim_of_none {s : List Char} (h : ∀ c ∈ s, isBlank c = false) : trim s = s := by
  have hdrop : ∀ l : List Char, (∀ c ∈ l, isBlank c = false) → l.dropWhile isBlank = l := by
    intro l hl
    cases l with
    | nil => rfl
    | cons c rest => simp [hl c (List.mem_cons_self ..)]
  rw [trim]
  rw [hdrop s h, hdrop _ fun c hc => h c (List.mem_reverse.1 hc), List.reverse_reverse]

/-! ## Numbers -/

theorem digitValue?_of_isDigit {c : Char} (h : c.isDigit = true) :
    digitValue? c = some (c.toNat - '0'.toNat) := by
  rw [digitValue?]
  rw [if_pos]
  simpa [Char.isDigit, Char.le_def] using h

theorem natOfDigitsFrom?_eq {digits : List Char} (h : ∀ c ∈ digits, c.isDigit = true) (acc : Nat) :
    natOfDigitsFrom? acc digits = some (Nat.ofDigitChars 10 digits acc) := by
  induction digits generalizing acc with
  | nil => simp [natOfDigitsFrom?]
  | cons c rest ih =>
    have ⟨hc, hrest⟩ := List.forall_mem_cons.1 h
    rw [natOfDigitsFrom?, digitValue?_of_isDigit hc, Option.bind_some, ih hrest,
      Nat.ofDigitChars_cons,
      Nat.mul_comm]

theorem isDigit_of_mem_toDigits {n : Nat} {c : Char} (h : c ∈ Nat.toDigits 10 n) :
    c.isDigit = true :=
  Nat.isDigit_of_mem_toDigits (by decide) (by decide) h

/-- The digits of a number stand for it. -/
theorem natOfDigits?_toDigits (n : Nat) : natOfDigits? (Nat.toDigits 10 n) = some n := by
  have hfrom := natOfDigitsFrom?_eq (fun c hc => isDigit_of_mem_toDigits (n := n) hc) 0
  rw [Nat.ofDigitChars_ten_toDigits] at hfrom
  have hne : Nat.toDigits 10 n ≠ [] := Nat.toDigits_ne_nil
  revert hfrom hne
  generalize Nat.toDigits 10 n = digits
  cases digits with
  | nil => exact fun _ hne => absurd rfl hne
  | cons c rest => exact fun hfrom _ => hfrom

end Text

open Text

/-- A digit or a sign is neither a comma nor a blank. -/
theorem plain_of_isDigit {c : Char} (h : c.isDigit = true ∨ c = '-') :
    (c == ',') = false ∧ isBlank c = false := by
  have hrange : c.toNat = 45 ∨ (48 ≤ c.toNat ∧ c.toNat ≤ 57) := by
    rcases h with h | rfl
    · exact .inr (by simpa [Char.isDigit, UInt32.le_iff_toNat_le] using h)
    · exact .inl rfl
  constructor
  · rw [beq_eq_false_iff_ne]
    rintro rfl
    revert hrange
    decide
  · rw [isBlank]
    simp only [Bool.or_eq_false_iff, Bool.and_eq_false_iff, decide_eq_false_iff_not,
      beq_eq_false_iff_ne]
    omega

/-- The characters of a number. -/
theorem toList_toString (n : Int) :
    (toString n).toList = if 0 ≤ n then Nat.toDigits 10 n.toNat else '-' :: Nat.toDigits 10
    (-n).toNat := by
  rw [Int.toString_eq_repr, Int.repr_eq_if]
  split
  · exact Nat.toList_repr
  · simp

theorem toList_toString_ne_nil (n : Int) : (toString n).toList ≠ [] := by
  rw [toList_toString]
  split
  · exact Nat.toDigits_ne_nil
  · exact List.cons_ne_nil _ _

theorem isDigit_of_mem_toString {n : Int} {c : Char} (h : c ∈ (toString n).toList) :
    c.isDigit = true ∨ c = '-' := by
  rw [toList_toString] at h
  split at h
  · exact .inl (isDigit_of_mem_toDigits h)
  · rcases List.mem_cons.1 h with rfl | h
    · exact .inr rfl
    · exact .inl (isDigit_of_mem_toDigits h)

theorem plain_toString {n : Int} {c : Char} (h : c ∈ (toString n).toList) :
    (c == ',') = false ∧ isBlank c = false :=
  plain_of_isDigit (isDigit_of_mem_toString h)

/-- What is read back of a number: the number itself, if it is a 64-bit word. -/
def readBack (n : Int) : Option Int :=
  if -(maxInt64 + 1 : Int) ≤ n ∧ n ≤ maxInt64 then some n else none

/-- A text that begins with a digit has no sign. -/
theorem readInt?_of_isDigit {c : Char} {rest : List Char} (h : c.isDigit = true) :
    readInt? (c :: rest) = ((natOfDigits? (c :: rest)).filter (· ≤ maxInt64)).map Int.ofNat := by
  unfold readInt? readNat?
  split
  · next heq =>
    cases heq
    cases h
  · dsimp only
    split
    · next heq =>
      cases heq
      cases h
    · rfl

theorem readInt?_toString (n : Int) : readInt? (toString n).toList = readBack n := by
  rw [toList_toString]
  rw [readBack]
  split
  · next hn =>
    obtain ⟨m, rfl⟩ := Int.eq_ofNat_of_zero_le hn
    have hdigits := natOfDigits?_toDigits m
    have hchars := fun c => isDigit_of_mem_toDigits (n := m) (c := c)
    rw [Int.toNat_natCast]
    cases hlist : Nat.toDigits 10 m with
    | nil => exact absurd hlist Nat.toDigits_ne_nil
    | cons c rest =>
      rw [hlist] at hdigits hchars
      rw [readInt?_of_isDigit (hchars c (List.mem_cons_self ..)), hdigits]
      by_cases hm : m ≤ maxInt64
      · rw [if_pos (by omega)]
        simp [Option.filter, hm]
      · rw [if_neg (by omega)]
        simp [Option.filter, hm]
  · next hn =>
    obtain ⟨m, rfl⟩ : ∃ m : Nat, n = -(m : Int) := ⟨(-n).toNat, by omega⟩
    rw [Int.neg_neg, Int.toNat_natCast, readInt?, natOfDigits?_toDigits]
    by_cases hm : m ≤ maxInt64 + 1
    · rw [if_pos (by omega)]
      simp [Option.filter, hm]
    · rw [if_neg (by omega)]
      simp [Option.filter, hm]

/-- What is read back of a number is the number. -/
theorem readBack_eq_some {n m : Int} (h : readBack n = some m) : m = n := by
  rw [readBack] at h
  split at h <;> cases h
  rfl

/-! ## Numbers with commas -/

theorem toList_joinNumbers_single (n : Int) : (joinNumbers [n]).toList = (toString n).toList := by
  simp [joinNumbers]

theorem toList_joinNumbers_cons (n m : Int) (rest : List Int) :
    (joinNumbers (n :: m :: rest)).toList =
      (toString n).toList ++ ',' :: (joinNumbers (m :: rest)).toList := by
  simp [joinNumbers]

theorem readNumbers_joinNumbers {numbers : List Int} (h : numbers ≠ []) :
    readNumbers (joinNumbers numbers) = numbers.map readBack := by
  have hread : ∀ n : Int, readInt? (trim (toString n).toList) = readBack n := fun n => by
    rw [trim_of_none fun c hc => (plain_toString hc).2, readInt?_toString]
  induction numbers with
  | nil => exact absurd rfl h
  | cons n rest ih =>
    rw [readNumbers]
    cases rest with
    | nil =>
      rw [toList_joinNumbers_single, splitOn_of_none fun c hc => (plain_toString hc).1]
      simp only [List.map_cons, List.map_nil, hread]
    | cons m rest =>
      rw [toList_joinNumbers_cons, splitOn_append (fun c hc => (plain_toString hc).1) rfl,
        List.map_cons, hread]
      exact congrArg _ (ih (List.cons_ne_nil _ _))

theorem isEmpty_joinNumbers_cons (n : Int) (rest : List Int) :
    (joinNumbers (n :: rest)).isEmpty = false := by
  rw [Bool.eq_false_iff, ne_eq, String.isEmpty_iff]
  intro hempty
  cases rest with
  | nil =>
    have hchars := toList_joinNumbers_single n
    rw [hempty] at hchars
    exact toList_toString_ne_nil n hchars.symm
  | cons m rest =>
    have hchars := toList_joinNumbers_cons n m rest
    rw [hempty] at hchars
    exact List.cons_ne_nil _ _ (List.append_eq_nil_iff.1 hchars.symm).2

theorem mapM_readBack {numbers numbers' : List Int}
    (h : (numbers.map readBack).mapM id = some numbers') : numbers' = numbers := by
  induction numbers generalizing numbers' with
  | nil => cases h; rfl
  | cons n rest ih =>
    rw [List.map_cons, List.mapM_cons] at h
    obtain ⟨m, hm, h⟩ := Option.bind_eq_some_iff.1 h
    obtain ⟨ms, hms, h⟩ := Option.bind_eq_some_iff.1 h
    cases h
    rw [ih hms, readBack_eq_some hm]

/-- Versions that can be read back are the versions that were frozen. -/
theorem frozenVersions?_eq_some {state : RunningState} {versions versions' : List Version}
    (htext : state.groupVersions = joinNumbers versions)
    (h : state.frozenVersions? = some versions') : versions' = versions := by
  rw [RunningState.frozenVersions?] at h
  rw [htext] at h
  cases versions with
  | nil => cases h; rfl
  | cons n rest =>
    rw [isEmpty_joinNumbers_cons, if_neg Bool.false_ne_true, readNumbers_joinNumbers
      (List.cons_ne_nil _ _)] at h
    exact mapM_readBack h

/-- Identifiers that are read back are those that are 64-bit words. -/
theorem readIds_joinNumbers (ids : List Id) :
    readIds (joinNumbers ids) = ids.filter fun id => (readBack id).isSome := by
  cases ids with
  | nil => rfl
  | cons id rest =>
    rw [readIds, readNumbers_joinNumbers (List.cons_ne_nil _ _), List.filterMap_map,
      ← List.filterMap_eq_filter]
    refine List.filterMap_congr fun n _ => ?_
    show readBack n = _
    rw [Option.guard]
    cases hn : readBack n with
    | none => simp
    | some m => simp [readBack_eq_some hn]

/-! ## Drift -/

/-- A store still has the stamps of all that was run. -/
structure Store.InStep (q : Prepared) (s : Store) : Prop where
  sections : ∀ kind, ∃ row, s.selected? kind = some row ∧ row.id = (q.row kind).id ∧
    row.version = (q.row kind).version
  groups : ∀ g ∈ q.compiled.groups, ∃ g', s.groups.find? g.id = some g' ∧ g'.version = g.version
  frozen : s.running.state.groups = q.compiled.groups.map (·.id)

variable {s : Store} {q : Prepared}

/-- A section has not drifted: the one that is selected has the stamp that was frozen. -/
theorem Drift.ofSection_eq_none {frozen : RunningState} {live : LiveStamps} {kind : SectionKind}
    (h : ofSection frozen live kind = none) :
    ∃ stamp, live.stamp kind = some stamp ∧ frozen.stamp kind = some stamp := by
  rw [ofSection] at h
  split at h
  · cases h
  · next stamp hlive =>
    split at h
    · next hfrozen => exact ⟨stamp, hlive, hfrozen⟩
    · cases h

/-- No group has drifted: all versions are read back, and the groups that are there have them. -/
theorem Drift.ofGroups_eq_none {frozen : RunningState} {live : LiveStamps}
    (h : ofGroups frozen live = none) :
    ∃ versions, frozen.frozenVersions? = some versions ∧ versions.length = frozen.groups.length ∧
      ∀ p ∈ frozen.groups.zip versions, live.groups.lookup p.1 = some p.2 := by
  rw [ofGroups] at h
  split at h
  · cases h
  · next versions hversions =>
    split at h
    · next hlength =>
      refine ⟨versions, hversions, hlength, fun p hp => ?_⟩
      have hgroup := List.findSome?_eq_none_iff.1 h p hp
      rw [ofGroup] at hgroup
      split at hgroup
      · cases hgroup
      · next version hlookup =>
        split at hgroup
        · next heq => rw [hlookup, heq]
        · cases hgroup
    · cases h

/-- The live stamp of a kind is that of the selected section. -/
theorem stamp_liveStamps (s : Store) (kind : SectionKind) :
    s.liveStamps.stamp kind = (s.selected? kind).map fun row => Stamp.mk row.id row.version := by
  cases kind <;> rfl

theorem stamp_record (h : s.running = q.record.row) (kind : SectionKind) :
    s.running.state.stamp kind = some ⟨(q.row kind).id, (q.row kind).version⟩ := by
  rw [h]
  cases kind <;> rfl

/-- The live version of a group is that of the group. -/
theorem lookup_liveStamps {id : Id} {version : Version}
    (h : s.liveStamps.groups.lookup id = some version) :
    ∃ g, s.groups.find? id = some g ∧ g.version = version := by
  obtain ⟨before, after, hsplit, -⟩ := List.lookup_eq_some_iff.1 h
  have hmem : (id, version) ∈ s.liveStamps.groups := by
    rw [hsplit]
    exact List.mem_append_right _ (List.mem_cons_self ..)
  obtain ⟨id', -, hid'⟩ := List.mem_filterMap.1 hmem
  obtain ⟨g, hg, heq⟩ := Option.map_eq_some_iff.1 hid'
  cases heq
  exact ⟨g, hg, rfl⟩

/-- **Without drift, the store is in step** with the record of what was run. -/
theorem inStep_of_drift_eq_none (h : s.running = q.record.row) (hdrift : s.drift = none) :
    s.InStep q := by
  rw [Store.drift, Drift.detect] at hdrift
  rw [if_pos (by rw [h]; rfl)] at hdrift
  obtain ⟨hsections, hgroups⟩ := Option.or_eq_none_iff.1 hdrift
  obtain ⟨versions, hversions, hlength, hlookup⟩ := Drift.ofGroups_eq_none hgroups
  have hfrozen : versions = q.compiled.groups.map (·.version) :=
    frozenVersions?_eq_some (by rw [h]; rfl) hversions
  -- as many identifiers are read back as there are versions, so all of them are
  have hids : s.running.state.groups = q.compiled.groups.map (·.id) := by
    have hread : s.running.state.groups = (q.compiled.groups.map (·.id)).filter fun id =>
      (readBack id).isSome := by
      rw [h]
      exact readIds_joinNumbers _
    rw [hread, List.filter_eq_self, ← List.length_filter_eq_length_iff, ← hread, ← hlength, hfrozen]
    simp
  refine ⟨fun kind => ?_, fun g hg => ?_, hids⟩
  · obtain ⟨stamp, hlive, hstamp⟩ := Drift.ofSection_eq_none
      (List.findSome?_eq_none_iff.1 hsections kind (by cases kind <;> decide))
    rw [stamp_liveStamps] at hlive
    obtain ⟨row, hrow, rfl⟩ := Option.map_eq_some_iff.1 hlive
    obtain ⟨hid, hversion⟩ := Stamp.mk.inj
      (Option.some.inj (hstamp.symm.trans (stamp_record h kind)))
    exact ⟨row, hrow, hid, hversion⟩
  · refine lookup_liveStamps (hlookup (g.id, g.version) ?_)
    rw [hids, hfrozen, List.zip_map', List.mem_map]
    exact ⟨g, hg, rfl⟩

end ProxyPlane
