import ProxyPlane.Json.Shape
import ProxyPlane.Proofs.Resolution

/-!
# What is read of a shape

A value of a shape has numbers in it that keep within the ranges of the shape, wherever they stand:
a record may be written as an object or as an array, its fields in any order, and some may be left
out.  And a record begins with a bracket or a brace, so that a text without either is none.

## What is here

* `Shape.Admits` — the numbers in a value are within their ranges.
* `Shape.read_admits`, `Shape.parse_admits` — those that are read are, by induction on the shape.
* `Shape.parse_record_ne_ok` — what does not begin like a record is not read as one.
-/

set_option autoImplicit false
namespace ProxyPlane
namespace Json

/-! ## Values within their ranges -/

mutual
/-- The numbers in a value are within the ranges of its shape. -/
def Shape.Admits : (shape : Shape) → shape.Value → Prop
  | .bool, _ => True
  | .text, _ => True
  | .int, n => -(Text.maxInt64 : Int) - 1 ≤ n ∧ n ≤ Text.maxInt64
  | .nat16, n => n ≤ 65535
  | .value, _ => True
  | .optional shape, v => ∀ x ∈ v, shape.Admits x
  | .list shape, vs => ∀ v ∈ vs, shape.Admits v
  | .record fields, vs => fields.Admits vs

/-- The same for all the fields of a record that are there. -/
def Fields.Admits : (fields : Fields) → fields.Values → Prop
  | .nil, _ => True
  | .required _ shape rest, vs => shape.Admits vs.1 ∧ rest.Admits vs.2
  | .defaulted _ shape rest, vs => (∀ x ∈ vs.1, shape.Admits x) ∧ rest.Admits vs.2
end

/-- The same for the fields that have been read so far. -/
def Fields.AdmitsPartial : (fields : Fields) → fields.Partial → Prop
  | .nil, _ => True
  | .required _ shape rest, vs => (∀ x ∈ vs.1, shape.Admits x) ∧ rest.AdmitsPartial vs.2
  | .defaulted _ shape rest, vs => (∀ x ∈ vs.1, shape.Admits x) ∧ rest.AdmitsPartial vs.2

theorem Fields.admits_none : ∀ fields : Fields, fields.AdmitsPartial fields.none
  | .nil => trivial
  | .required _ _ rest => ⟨nofun, rest.admits_none⟩
  | .defaulted _ _ rest => ⟨nofun, rest.admits_none⟩

theorem Fields.complete_admits : ∀ {fields : Fields} {vs : fields.Partial} {values : fields.Values},
    fields.complete vs = .ok values → fields.AdmitsPartial vs → fields.Admits values
  | .nil, _, _, _, _ => trivial
  | .required _ _ rest, (some v, vs), values, h, hvs => by
    obtain ⟨more, hmore, heq⟩ := bind_eq_ok_iff.1 h
    cases heq
    exact ⟨hvs.1 v rfl, rest.complete_admits hmore hvs.2⟩
  | .required _ _ _, (.none, _), _, h, _ => by cases h
  | .defaulted _ _ rest, (v, vs), values, h, hvs => by
    obtain ⟨more, hmore, heq⟩ := bind_eq_ok_iff.1 h
    cases heq
    exact ⟨hvs.1, rest.complete_admits hmore hvs.2⟩

/-! ## Values of another kind -/

/-- What is of another kind than asked for is never read. -/
theorem otherKind_ne_ok {α : Type} (s : Bytes) (a : α) : otherKind s ≠ .ok a := by
  unfold otherKind
  intro h
  split at h
  · cases h
  · repeat' split at h
    all_goals first
      | cases h
      | (obtain ⟨_, _, he⟩ := bind_eq_ok_iff.1 h; cases he)

/-! ## Numbers, lists and objects -/

theorem readInteger_bounds {low high n : Int} {s rest : Bytes}
    (h : readInteger low high s = .ok (n, rest)) : low ≤ n ∧ n ≤ high := by
  unfold readInteger at h
  split at h
  · split at h
    · obtain ⟨⟨number, more⟩, -, h⟩ := bind_eq_ok_iff.1 h
      cases number with
      | integer m =>
        dsimp only at h
        split at h
        · cases h
          assumption
        · cases h
      | float => cases h
    · exact absurd h (otherKind_ne_ok _ _)
  · exact absurd h (otherKind_ne_ok _ _)

/-- What holds of every item that is read holds of all items of a list. -/
theorem readList_forall {α : Type} {read : Bytes → Except Fault (α × Bytes)} {P : α → Prop}
    (hread : ∀ {s v rest}, read s = .ok (v, rest) → P v) {fuel : Nat} {first : Bool}
    {s rest : Bytes} {vs : List α} (h : readList read fuel first s = .ok (vs, rest)) :
    ∀ v ∈ vs, P v := by
  induction fuel generalizing first s vs with
  | zero => cases h
  | succ fuel ih =>
    obtain ⟨step, -, h⟩ := bind_eq_ok_iff.1 h
    cases step with
    | close => cases h; exact nofun
    | item =>
      obtain ⟨⟨v, more⟩, hv, h⟩ := bind_eq_ok_iff.1 h
      obtain ⟨⟨others, left⟩, hothers, h⟩ := bind_eq_ok_iff.1 h
      cases h
      exact List.forall_mem_cons.2 ⟨hread hv, ih hothers⟩

/-- What every member keeps is kept by a whole object. -/
theorem readObject_invariant {α : Type}
    {step : α → String → Bytes → Except Fault (α × Bytes)} {P : α → Prop}
    (hstep : ∀ {state name s state' rest}, P state → step state name s = .ok (state', rest) →
      P state') {fuel : Nat} {first : Bool} {state state' : α} {s rest : Bytes} (hstate : P state)
    (h : readObject step fuel first state s = .ok (state', rest)) : P state' := by
  induction fuel generalizing first state s with
  | zero => cases h
  | succ fuel ih =>
    unfold readObject at h
    split at h
    · cases h
    split at h
    · cases h
      exact hstate
    dsimp only at h
    split at h
    · cases h
    split at h
    · obtain ⟨⟨name, more⟩, -, h⟩ := bind_eq_ok_iff.1 h
      obtain ⟨⟨next, left⟩, hnext, h⟩ := bind_eq_ok_iff.1 h
      exact ih (hstep hstate hnext) h
    · cases h

/-- A member goes into the field that has its name, if that is still empty, or on to the fields
behind it; what holds of the value of the field and of those behind goes on to hold. -/
theorem readField_invariant {α β : Type} {P : α → Prop} {Q : β → Prop} {name n : String}
    {v : Option α} {vs : β} {s rest : Bytes} {read : Bytes → Except Fault (α × Bytes)}
    {behind : Except Fault (β × Bytes)} {vs' : Option α × β}
    (hread : ∀ {s v rest}, read s = .ok (v, rest) → P v)
    (hbehind : ∀ {vs' rest}, behind = .ok (vs', rest) → Q vs')
    (h : (if name = n then
        if v.isSome then .error .mismatch
        else do
          let (v, s) ← read (← readColon s)
          return ((some v, vs), s)
      else do
        let (vs, s) ← behind
        return ((v, vs), s)) = .ok (vs', rest))
    (hvs : (∀ x ∈ v, P x) ∧ Q vs) : (∀ x ∈ vs'.1, P x) ∧ Q vs'.2 := by
  split at h
  · split at h
    · cases h
    · obtain ⟨more, -, h⟩ := bind_eq_ok_iff.1 h
      obtain ⟨⟨x, left⟩, hx, h⟩ := bind_eq_ok_iff.1 h
      cases h
      refine ⟨fun y hy => ?_, hvs.2⟩
      cases hy
      exact hread hx
  · obtain ⟨⟨others, left⟩, hothers, h⟩ := bind_eq_ok_iff.1 h
    cases h
    exact ⟨hvs.1, hbehind hothers⟩

/-! ## Whole shapes -/

mutual
/-- **What is read of a shape is within its ranges.** -/
theorem Shape.read_admits : ∀ {shape : Shape} {depth : Nat} {s rest : Bytes} {v : shape.Value},
    shape.read depth s = .ok (v, rest) → shape.Admits v
  | .bool, _, _, _, _, _ => trivial
  | .text, _, _, _, _, _ => trivial
  | .int, _, _, _, _, h => readInteger_bounds h
  | .nat16, _, _, _, _, h => by
    obtain ⟨⟨n, more⟩, hn, h⟩ := bind_eq_ok_iff.1 h
    cases h
    have hbounds := readInteger_bounds hn
    change n.toNat ≤ 65535
    omega
  | .value, _, _, _, _, _ => trivial
  | .optional shape, depth, s, rest, v, h => by
    unfold Shape.read at h
    split at h
    · split at h
      · obtain ⟨more, -, h⟩ := bind_eq_ok_iff.1 h
        cases h
        exact nofun
      · obtain ⟨⟨x, more⟩, hx, h⟩ := bind_eq_ok_iff.1 h
        cases h
        intro y hy
        cases hy
        exact Shape.read_admits hx
    · cases h
  | .list shape, depth, s, rest, v, h => by
    unfold Shape.read at h
    split at h
    · split at h
      · exact readList_forall (fun hread => Shape.read_admits hread) h
      · exact absurd h (otherKind_ne_ok _ _)
    · exact absurd h (otherKind_ne_ok _ _)
  | .record fields, depth, s, rest, v, h => by
    unfold Shape.read at h
    split at h
    · split at h
      · exact Fields.readItems_admits h
      split at h
      · obtain ⟨⟨found, more⟩, hfound, h⟩ := bind_eq_ok_iff.1 h
        obtain ⟨values, hvalues, h⟩ := bind_eq_ok_iff.1 h
        cases h
        refine Fields.complete_admits hvalues ?_
        exact readObject_invariant (fun hstate hstep => Fields.readMember_admits hstep hstate)
          fields.admits_none hfound
      · exact absurd h (otherKind_ne_ok _ _)
    · exact absurd h (otherKind_ne_ok _ _)

theorem Fields.readItems_admits : ∀ {fields : Fields} {depth : Nat} {first : Bool}
    {s rest : Bytes} {vs : fields.Values},
    fields.readItems depth first s = .ok (vs, rest) → fields.Admits vs
  | .nil, _, _, _, _, _, _ => trivial
  | .required _ shape fields, depth, first, s, rest, vs, h => by
    obtain ⟨step, -, h⟩ := bind_eq_ok_iff.1 h
    cases step with
    | close => cases h
    | item =>
      obtain ⟨⟨v, more⟩, hv, h⟩ := bind_eq_ok_iff.1 h
      obtain ⟨⟨others, left⟩, hothers, h⟩ := bind_eq_ok_iff.1 h
      cases h
      exact ⟨Shape.read_admits hv, Fields.readItems_admits hothers⟩
  | .defaulted _ shape fields, depth, first, s, rest, vs, h => by
    obtain ⟨step, -, h⟩ := bind_eq_ok_iff.1 h
    cases step with
    | close =>
      obtain ⟨⟨others, left⟩, hothers, h⟩ := bind_eq_ok_iff.1 h
      cases h
      exact ⟨nofun, Fields.readItems_admits hothers⟩
    | item =>
      obtain ⟨⟨v, more⟩, hv, h⟩ := bind_eq_ok_iff.1 h
      obtain ⟨⟨others, left⟩, hothers, h⟩ := bind_eq_ok_iff.1 h
      cases h
      refine ⟨fun x hx => ?_, Fields.readItems_admits hothers⟩
      cases hx
      exact Shape.read_admits hv

theorem Fields.readMember_admits : ∀ {fields : Fields} {depth : Nat} {vs vs' : fields.Partial}
    {name : String} {s rest : Bytes}, fields.readMember depth vs name s = .ok (vs', rest) →
      fields.AdmitsPartial vs → fields.AdmitsPartial vs'
  | .nil, _, _, _, _, _, _, _, _ => trivial
  | .required _ _ _, _, (_, _), _, _, _, _, h, hvs =>
    readField_invariant (fun hread => Shape.read_admits hread)
      (fun hbehind => Fields.readMember_admits hbehind hvs.2) h hvs
  | .defaulted _ _ _, _, (_, _), _, _, _, _, h, hvs =>
    readField_invariant (fun hread => Shape.read_admits hread)
      (fun hbehind => Fields.readMember_admits hbehind hvs.2) h hvs
end

theorem Shape.parse_admits {shape : Shape} {s : Bytes} {v : shape.Value}
    (h : shape.parse s = .ok v) : shape.Admits v := by
  obtain ⟨⟨found, rest⟩, hfound, h⟩ := bind_eq_ok_iff.1 h
  obtain ⟨_, -, h⟩ := bind_eq_ok_iff.1 h
  cases h
  exact read_admits hfound

/-- **A record begins with a bracket or a brace.** -/
theorem Shape.parse_record_ne_ok {fields : Fields} {s : Bytes}
    (h : ∀ b ∈ s, b ≠ byte '[' ∧ b ≠ byte '\x7b') (vs : fields.Values) :
    (Shape.record fields).parse s ≠ .ok vs := by
  intro hparse
  obtain ⟨⟨found, rest⟩, hfound, -⟩ := bind_eq_ok_iff.1 hparse
  unfold Shape.read at hfound
  split at hfound
  · next b more hs =>
    have hb : b ∈ s := (List.dropWhile_suffix isSpace).subset (by rw [← skipSpace, hs]; simp)
    rw [if_neg (h b hb).1, if_neg (h b hb).2] at hfound
    exact absurd hfound (otherKind_ne_ok _ _)
  · exact absurd hfound (otherKind_ne_ok _ _)

end Json
end ProxyPlane
