import ProxyPlane.Proofs.Contents

/-!
# Nodes imported together

An import of many nodes is one import after the other: what becomes of a node depends on the nodes
before it only through the store that they leave.  A node is refused for the first of four reasons,
and a refusal leaves nothing behind.  The order of the reasons matters to an import that ends with
the first failure other than a link that is there already: a node that is imported again together
with its tag is refused for the tag, which is looked at first, and so it ends the import.

Both kinds of import make the same list of reports as long as none of them ends the import, and this
is all that sets them apart.

## What is here

* `Store.Refuses` — the reasons for which a node is refused, each with what was passed before it.
* `Store.Hosts`, `Store.Hosts.import_cases` — where nodes can be imported for an owner, each of them
  is refused and changes nothing, or it is taken.
* `Store.leftBy`, `reports` — what nodes leave when they are imported one by one, and what is told.
* `Transaction.importNodes_on_of_goes`, `Transaction.importNodes_fails` — an import of many nodes
  goes on to its end, or a failure ends it.
* `OneByOne`, `Transaction.importNodes_one_by_one` — the import of many nodes in both its modes.
-/

set_option autoImplicit false
namespace ProxyPlane

open Transaction (importNode importNodes endsImport)

/-! ## One node -/

namespace Store

variable {s s' : Store} {owner : Option Id} {new : NewNode}

/-- The tag of a new node, if it has one, is an identifier that no other node has. -/
def FreesTag (s : Store) (new : NewNode) : Prop :=
  ∀ tag, new.tag = some tag →
    checkIdentifier .tag tag = .ok () ∧ ∀ n ∈ s.nodes.rows, n.tag ≠ some tag

/-- The reasons for which a store refuses a new node, in the order in which they are found. -/
inductive Refuses (s : Store) (owner : Option Id) (new : NewNode) : StoreError → Prop
  | badTag {tag : String} {e : StoreError} (htag : new.tag = some tag)
      (hbad : checkIdentifier .tag tag = .error e) : Refuses s owner new e
  | tagTaken {tag : String} (htag : new.tag = some tag) (hgood : checkIdentifier .tag tag = .ok ())
      (htaken : ∃ n ∈ s.nodes.rows, n.tag = some tag) :
      Refuses s owner new (.alreadyExists .tag tag)
  | badLink {e : StoreError} (hfree : s.FreesTag new) (hbad : readLink new.link = .error e) :
      Refuses s owner new e
  | linkKnown {endpoint : Endpoint} (hfree : s.FreesTag new)
      (hread : readLink new.link = .ok endpoint)
      (hknown : ∃ n ∈ s.nodes.rows, n.link = new.link ∧ n.subscription = owner) :
      Refuses s owner new (.alreadyExists .node new.link)

/-- A store in which nodes can be imported for an owner: the nodes are in the order of their
identifiers, and the owner is there. -/
structure Hosts (owner : Option Id) (s : Store) : Prop where
  ordered : s.nodes.Ordered
  there : ∀ id, owner = some id → ∃ row ∈ s.subscriptions.rows, row.id = id

/-- A store that transactions leave behind takes nodes without an owner, and for one that is there.
-/
theorem Valid.hosts (h : s.Valid)
    (hthere : ∀ id, owner = some id → ∃ row ∈ s.subscriptions.rows, row.id = id) : s.Hosts owner :=
  ⟨h.nodes, hthere⟩

theorem checkIdentifier_error {field : Field} {value : String} {e : StoreError}
    (h : checkIdentifier field value = .error e) : e = .invalid field .notIdentifier value := by
  unfold checkIdentifier at h
  split at h <;> cases h
  rfl

/-- **A refusal ends an import** that asks for it, unless the link is there already. -/
theorem Refuses.endsImport_iff {e : StoreError} (h : s.Refuses owner new e) {abort : Bool} :
    endsImport abort e = true ↔ abort = true ∧ e ≠ .alreadyExists .node new.link := by
  cases h with
  | badTag htag hbad => simp [checkIdentifier_error hbad, endsImport]
  | tagTaken => simp [endsImport]
  | badLink hfree hbad =>
    obtain ⟨problem, rfl⟩ := readLink_error hbad
    simp [endsImport]
  | linkKnown => simp [endsImport]

/-- Where nodes can be imported, a node is refused or taken. -/
theorem Hosts.refuses_or_takes (h : s.Hosts owner) (new : NewNode) :
    (∃ e, s.Refuses owner new e) ∨ ∃ endpoint s', Takes new owner endpoint s s' := by
  -- the tag is looked at first
  have htag : (∃ e, s.Refuses owner new e) ∨ s.FreesTag new := by
    cases ht : new.tag with
    | none => exact .inr fun tag h => absurd (ht.symm.trans h) nofun
    | some tag =>
      cases hc : checkIdentifier .tag tag with
      | error e => exact .inl ⟨e, .badTag ht hc⟩
      | ok _ =>
        by_cases htaken : ∃ n ∈ s.nodes.rows, n.tag = some tag
        · exact .inl ⟨_, .tagTaken ht hc htaken⟩
        · refine .inr fun tag' ht' => ?_
          obtain rfl := Option.some.inj (ht.symm.trans ht')
          exact ⟨hc, fun n hn hn' => htaken ⟨n, hn, hn'⟩⟩
  obtain hrefuses | hfree := htag
  · exact .inl hrefuses
  cases hread : readLink new.link with
  | error e => exact .inl ⟨e, .badLink hfree hread⟩
  | ok endpoint =>
    by_cases hknown : ∃ n ∈ s.nodes.rows, n.link = new.link ∧ n.subscription = owner
    · exact .inl ⟨_, .linkKnown hfree hread hknown⟩
    · exact .inr ⟨endpoint, _, hfree, hread, fun n hn hl ho => hknown ⟨n, hn, hl, ho⟩, h.there, rfl⟩

/-- The row of a new node. -/
def rowOf (s : Store) (new : NewNode) (owner : Option Id) (endpoint : Endpoint) : Node :=
  ⟨s.nodes.issued + 1, new.link, endpoint.name, endpoint.address, endpoint.protocol, new.tag, owner⟩

theorem Takes.rows {endpoint : Endpoint} (h : Takes new owner endpoint s s') :
    s'.nodes.rows = s.nodes.rows ++ [s.rowOf new owner endpoint] := by
  rw [h.store]
  rfl

theorem Takes.issued {endpoint : Endpoint} (h : Takes new owner endpoint s s') :
    s'.nodes.issued = s.nodes.issued + 1 := by
  rw [h.store]
  rfl

/-- Nothing but the nodes changes. -/
theorem Takes.rest {endpoint : Endpoint} (h : Takes new owner endpoint s s') :
    s' = { s with nodes := s'.nodes } := by
  rw [h.store]

theorem Takes.hosts {endpoint : Endpoint} (h : Takes new owner endpoint s s')
    (hs : s.Hosts owner) : s'.Hosts owner where
  ordered := by
    have hpush : (s.nodes.push fun id => { s.rowOf new owner endpoint with id }).Ordered :=
      hs.ordered.push rfl
    rw [h.store]
    exact hpush
  there := by
    rw [h.rest]
    exact hs.there

end Store

namespace Transaction
open Store

variable {s s' : Store} {owner : Option Id} {new : NewNode}

/-- The import of a node whose tag was looked at. -/
def importLink (new : NewNode) (owner : Option Id) : Transaction Node := do
  let endpoint ← check (readLink new.link)
  let s ← get
  if s.nodes.rows.any fun n => n.link == new.link && n.subscription == owner then
    throw (.alreadyExists .node new.link)
  if let some id := owner then
    if (s.subscriptions.find? id).isNone then throw (.database "node.import")
  set { s with nodes := s.nodes.push fun id =>
    ⟨id, new.link, endpoint.name, endpoint.address, endpoint.protocol, new.tag, owner⟩ }
  node (s.nodes.issued + 1)

theorem check_on_ok {α : Type} {c : Except StoreError α} {a : α} (h : c = .ok a) :
    (check c).on s = (.ok a, s) := by
  rw [h]
  rfl

theorem check_on_error {α : Type} {c : Except StoreError α} {e : StoreError} (h : c = .error e) :
    (check c).on s = (.error e, s) := by
  rw [h]
  rfl

theorem freeNodeTag_on_free {tag : String} (h : ∀ n ∈ s.nodes.rows, n.tag ≠ some tag) :
    (freeNodeTag tag none).on s = (.ok (), s) := by
  have hnone : (s.nodes.rows.find? fun n => n.tag == some tag) = none := by simpa using h
  simp only [freeNodeTag, on_bind, on_get, hnone, on_pure]

theorem freeNodeTag_on_taken {tag : String} (h : ∃ n ∈ s.nodes.rows, n.tag = some tag) :
    (freeNodeTag tag none).on s = (.error (.alreadyExists .tag tag), s) := by
  obtain ⟨n, hn⟩ : ∃ n, (s.nodes.rows.find? fun n => n.tag == some tag) = some n := by
    rw [← Option.isSome_iff_exists, List.find?_isSome]
    simpa using h
  have hother : (some n.id != none) = true := rfl
  simp only [freeNodeTag, on_bind, on_get, hn, hother, if_true, on_throw]

theorem importNode_on_of_freesTag (h : s.FreesTag new) :
    (importNode new owner).on s = (importLink new owner).on s := by
  obtain ⟨link, _ | tag⟩ := new
  · rfl
  · obtain ⟨hgood, hfree⟩ := h tag rfl
    have hsteps : importNode ⟨link, some tag⟩ owner = (do
      check (checkIdentifier .tag tag)
      freeNodeTag tag none
      importLink ⟨link, some tag⟩ owner) := rfl
    simp only [hsteps, on_bind, check_on_ok hgood, freeNodeTag_on_free hfree]

/-- **A node that is refused** changes nothing. -/
theorem importNode_on_refused {e : StoreError} (h : s.Refuses owner new e) :
    (importNode new owner).on s = (.error e, s) := by
  cases h with
  | badTag htag hbad => simp only [importNode, htag, on_bind, check_on_error hbad]
  | tagTaken htag hgood htaken =>
    simp only [importNode, htag, on_bind, check_on_ok hgood, freeNodeTag_on_taken htaken]
  | badLink hfree hbad =>
    rw [importNode_on_of_freesTag hfree]
    simp only [importLink, on_bind, check_on_error hbad]
  | linkKnown hfree hread hknown =>
    have hany : (s.nodes.rows.any fun n =>
        n.link == new.link && n.subscription == owner) = true := by simpa using hknown
    rw [importNode_on_of_freesTag hfree]
    simp only [importLink, on_bind, check_on_ok hread, on_get, hany, if_true, on_throw]

/-- **A node that is taken** becomes the last row. -/
theorem importNode_on_taken {endpoint : Endpoint} (hs : s.Hosts owner)
    (h : Takes new owner endpoint s s') :
    (importNode new owner).on s = (.ok (s.rowOf new owner endpoint), s') := by
  have hany : (s.nodes.rows.any fun n =>
      n.link == new.link && n.subscription == owner) = false := by simpa using h.link
  have hfound : s'.nodes.find? (s.nodes.issued + 1) = some (s.rowOf new owner endpoint) := by
    refine (h.hosts hs).ordered.find?_eq_some.2 ⟨?_, rfl⟩
    rw [h.rows]
    exact List.mem_append_right _ (.head _)
  have hpush : (do set s'; node (s.nodes.issued + 1) : Transaction Node).on s =
      (.ok (s.rowOf new owner endpoint), s') := by
    simp only [on_bind, on_set, node, on_get, hfound, require_on]
  rw [importNode_on_of_freesTag h.tag]
  simp only [importLink, on_bind, check_on_ok h.read, on_get, hany, Bool.false_eq_true, if_false]
  rw [h.store] at hpush ⊢
  cases owner with
  | none => exact hpush
  | some id =>
    obtain ⟨row, hrow, rfl⟩ := h.there id rfl
    obtain ⟨_, hfind⟩ := Table.exists_find? hrow
    have hthere : (s.subscriptions.find? row.id).isNone = false := congrArg Option.isNone hfind
    simp only [hthere, Bool.false_eq_true, if_false]
    exact hpush

end Transaction

namespace Store

variable {s t s' : Store} {owner : Option Id}

/-- **Where nodes can be imported**, a node is refused and changes nothing, or it is taken. -/
theorem Hosts.import_cases (h : s.Hosts owner) (new : NewNode) :
    (∃ e, s.Refuses owner new e ∧ (importNode new owner).on s = (.error e, s)) ∨
      ∃ endpoint s', Takes new owner endpoint s s' ∧
        (importNode new owner).on s = (.ok (s.rowOf new owner endpoint), s') := by
  obtain ⟨e, hrefuses⟩ | ⟨endpoint, s', htakes⟩ := h.refuses_or_takes new
  · exact .inl ⟨e, hrefuses, Transaction.importNode_on_refused hrefuses⟩
  · exact .inr ⟨endpoint, s', htakes, Transaction.importNode_on_taken h htakes⟩

/-! ## One node after another -/

/-- The store that is left when nodes were imported one by one. -/
def leftBy (owner : Option Id) (s : Store) (news : List NewNode) : Store :=
  news.foldl (fun s new => ((importNode new owner).on s).2) s

theorem leftBy_append (news more : List NewNode) :
    s.leftBy owner (news ++ more) = (s.leftBy owner news).leftBy owner more :=
  List.foldl_append

theorem leftBy_take_succ {news : List NewNode} {i : Nat} {new : NewNode} (h : news[i]? = some new) :
    s.leftBy owner (news.take (i + 1)) =
      ((importNode new owner).on (s.leftBy owner (news.take i))).2 := by
  rw [List.take_add_one, h, leftBy_append]
  rfl

/-- Some nodes were put behind those of a store, with new identifiers in increasing order, and
nothing else was done. -/
structure Gains (s : Store) (nodes : List Node) (s' : Store) : Prop where
  rows : s'.nodes.rows = s.nodes.rows ++ nodes
  fresh : ∀ n ∈ nodes, s.nodes.issued < n.id
  increasing : nodes.Pairwise fun a b => a.id < b.id
  rest : s' = { s with nodes := s'.nodes }

theorem Gains.refl (s : Store) : s.Gains [] s :=
  ⟨(List.append_nil _).symm, nofun, .nil, rfl⟩

/-- A node that is taken stands in front of what is gained after it. -/
theorem Gains.take {new : NewNode} {endpoint : Endpoint} {nodes : List Node}
    (ht : Takes new owner endpoint s t) (h : t.Gains nodes s') :
    s.Gains (s.rowOf new owner endpoint :: nodes) s' where
  rows := by
    rw [h.rows, ht.rows, List.append_assoc]
    rfl
  fresh := by
    refine List.forall_mem_cons.2 ⟨Int.lt_succ _, fun n hn => ?_⟩
    have hlt := h.fresh n hn
    rw [ht.issued] at hlt
    exact Int.lt_trans (Int.lt_succ _) hlt
  increasing := by
    refine List.pairwise_cons.2 ⟨fun n hn => ?_, h.increasing⟩
    have hlt := h.fresh n hn
    rwa [ht.issued] at hlt
  rest := by
    rw [h.rest, ht.rest]

/-- Each import leaves a store for the next one. -/
theorem Hosts.leftBy (h : s.Hosts owner) (news : List NewNode) :
    (s.leftBy owner news).Hosts owner := by
  induction news generalizing s with
  | nil => exact h
  | cons new rest ih =>
    rw [Store.leftBy, List.foldl_cons]
    obtain ⟨e, -, hon⟩ | ⟨endpoint, t, htakes, hon⟩ := h.import_cases new
    · rw [hon]
      exact ih h
    · rw [hon]
      exact ih (htakes.hosts h)

end Store

/-- What is told of nodes that are imported one by one. -/
def reports (owner : Option Id) : Store → List NewNode → List Imported
  | _, [] => []
  | s, new :: rest =>
    let (outcome, s') := (importNode new owner).on s
    ⟨new.link, outcome⟩ :: reports owner s' rest

section Reports

variable {s s' : Store} {owner : Option Id} {abort : Bool}

theorem links_reports (news : List NewNode) :
    (reports owner s news).map (·.link) = news.map (·.link) := by
  induction news generalizing s with
  | nil => rfl
  | cons new rest ih => rw [reports, List.map_cons, List.map_cons, ih]

/-- What is told of a node is what becomes of it on the store that those before it leave. -/
theorem getElem?_reports (news : List NewNode) (i : Nat) :
    (reports owner s news)[i]? = news[i]?.map fun new =>
      ⟨new.link, ((importNode new owner).on (s.leftBy owner (news.take i))).1⟩ := by
  induction news generalizing s i with
  | nil => rfl
  | cons new rest ih =>
    cases i with
    | zero => rfl
    | succ i => exact ih i

/-- **What is told of nodes that are there in the end.** -/
theorem Store.Hosts.gains (h : s.Hosts owner) (news : List NewNode) :
    s.Gains ((reports owner s news).filterMap Imported.node?) (s.leftBy owner news) := by
  induction news generalizing s with
  | nil => exact .refl s
  | cons new rest ih =>
    rw [Store.leftBy, List.foldl_cons, reports]
    obtain ⟨e, -, hon⟩ | ⟨endpoint, t, htakes, hon⟩ := h.import_cases new
    · rw [hon]
      exact ih h
    · rw [hon]
      exact Gains.take htakes (ih (htakes.hosts h))

/-- A failure that is told is a refusal. -/
theorem Store.Hosts.refuses (h : s.Hosts owner) {new : NewNode} {e : StoreError}
    (he : ((importNode new owner).on s).1 = .error e) :
    s.Refuses owner new e ∧ ((importNode new owner).on s).2 = s := by
  obtain ⟨e', hrefuses, hon⟩ | ⟨endpoint, t, -, hon⟩ := h.import_cases new
  · rw [hon] at he ⊢
    cases he
    exact ⟨hrefuses, rfl⟩
  · rw [hon] at he
    cases he

namespace Transaction

/-- **An import that no failure ends** tells all the reports. -/
theorem importNodes_on_of_goes {news : List NewNode}
    (h : ∀ r ∈ reports owner s news, ∀ e, r.outcome = .error e → endsImport abort e = false) :
    (importNodes owner abort news).on s = (.ok (reports owner s news), s.leftBy owner news) := by
  induction news generalizing s with
  | nil => rfl
  | cons new rest ih =>
    obtain ⟨hone, hrest⟩ := List.forall_mem_cons.1 h
    exact importNodes_on_cons rfl hone (ih hrest)

theorem importNodes_on_ends {new : NewNode} {rest : List NewNode} {e : StoreError} {t : Store}
    (hone : (importNode new owner).on s = (.error e, t)) (hends : endsImport abort e = true) :
    (importNodes owner abort (new :: rest)).on s = (.error e, t) := by
  simp only [importNodes, on_bind, on_caught, hone, hends, if_true, on_throw]

theorem importNodes_on_fails {new : NewNode} {rest : List NewNode}
    {outcome : Except StoreError Node} {e : StoreError} {t : Store}
    (hone : (importNode new owner).on s = (outcome, t))
    (hgoes : ∀ e, outcome = .error e → endsImport abort e = false)
    (hrest : (importNodes owner abort rest).on t = (.error e, s')) :
    (importNodes owner abort (new :: rest)).on s = (.error e, s') := by
  simp only [importNodes, on_bind, on_caught, hone]
  cases outcome with
  | ok n => simp only [on_bind, hrest]
  | error e₀ => simp only [hgoes e₀ rfl, Bool.false_eq_true, if_false, on_bind, hrest]

/-- **An import that a failure ends** fails. -/
theorem importNodes_fails {news : List NewNode}
    (h : ∃ r ∈ reports owner s news, ∃ e, r.outcome = .error e ∧ endsImport abort e = true) :
    ∃ e t, (importNodes owner abort news).on s = (.error e, t) := by
  induction news generalizing s with
  | nil =>
    obtain ⟨r, hr, -⟩ := h
    cases hr
  | cons new rest ih =>
    rcases hone : (importNode new owner).on s with ⟨outcome, t⟩
    by_cases hfirst : ∃ e, outcome = .error e ∧ endsImport abort e = true
    · obtain ⟨e, rfl, hends⟩ := hfirst
      exact ⟨e, t, importNodes_on_ends hone hends⟩
    · have hgoes : ∀ e, outcome = .error e → endsImport abort e = false :=
        fun e he => Bool.eq_false_iff.2 fun hends => hfirst ⟨e, he, hends⟩
      obtain ⟨r, hr, e, he, hends⟩ := h
      rw [reports, hone] at hr
      obtain rfl | hr := List.mem_cons.1 hr
      · exact absurd ⟨e, he, hends⟩ hfirst
      · obtain ⟨e', s', hrest⟩ := ih ⟨r, hr, e, he, hends⟩
        exact ⟨e', s', importNodes_on_fails hone hgoes hrest⟩

end Transaction

/-! ## Both modes -/

/-- **What an import of many nodes tells and leaves**, if it goes on after failures: what one import
after the other tells and leaves. -/
structure OneByOne (owner : Option Id) (news : List NewNode) (results : List Imported)
    (s s' : Store) : Prop where
  /-- There is a report for each node, in the order of the nodes. -/
  told : results.map (·.link) = news.map (·.link)
  /-- The report is of the import of the node on the store that the nodes before it leave. -/
  imported : ∀ i new, news[i]? = some new → ∃ r, results[i]? = some r ∧
    (importNode new owner).on (s.leftBy owner (news.take i)) =
      (r.outcome, s.leftBy owner (news.take (i + 1)))
  left : s' = s.leftBy owner news
  /-- A failure is a refusal of the node and leaves the store as it is. -/
  refused : ∀ i new e, news[i]? = some new →
    ((importNode new owner).on (s.leftBy owner (news.take i))).1 = .error e →
    (s.leftBy owner (news.take i)).Refuses owner new e ∧
      s.leftBy owner (news.take (i + 1)) = s.leftBy owner (news.take i)
  /-- The nodes that are told are the new rows. -/
  gains : s.Gains (results.filterMap Imported.node?) s'

/-- All failures that are told are links that are there already. -/
def OnlyDuplicates (results : List Imported) : Prop :=
  ∀ r ∈ results, ∀ e, r.outcome = .error e → e = .alreadyExists .node r.link

theorem Store.Hosts.oneByOne (h : s.Hosts owner) (news : List NewNode) :
    OneByOne owner news (reports owner s news) s (s.leftBy owner news) where
  told := links_reports news
  imported i new hnew := by
    refine ⟨_, by rw [getElem?_reports, hnew]; rfl, ?_⟩
    rw [leftBy_take_succ hnew]
  left := rfl
  refused i new e hnew he := by
    rw [leftBy_take_succ hnew]
    exact (h.leftBy _).refuses he
  gains := h.gains news

/-- The failures that are told are refusals, and so they end an import or do not. -/
theorem Store.Hosts.endsImport_iff (h : s.Hosts owner) {news : List NewNode} {r : Imported}
    (hr : r ∈ reports owner s news) {e : StoreError} (he : r.outcome = .error e) :
    endsImport abort e = true ↔ abort = true ∧ e ≠ .alreadyExists .node r.link := by
  obtain ⟨i, hi⟩ := List.mem_iff_getElem?.1 hr
  rw [getElem?_reports, Option.map_eq_some_iff] at hi
  obtain ⟨new, -, rfl⟩ := hi
  exact ((h.leftBy _).refuses he).1.endsImport_iff

namespace Transaction

/-- An import goes on to its end if it is to, or if there is nothing but links that are there. -/
theorem importNodes_on_of_hosts (h : s.Hosts owner) {news : List NewNode}
    (hgoes : abort = false ∨ OnlyDuplicates (reports owner s news)) :
    (importNodes owner abort news).on s = (.ok (reports owner s news), s.leftBy owner news) := by
  refine importNodes_on_of_goes fun r hr e he => ?_
  rw [Bool.eq_false_iff, ne_eq, h.endsImport_iff hr he]
  rintro ⟨rfl, hother⟩
  exact hother (hgoes.resolve_left nofun r hr e he)

/-- Any other failure ends an import that is to end with it. -/
theorem importNodes_fails_of_hosts (h : s.Hosts owner) {news : List NewNode}
    (hother : ¬ OnlyDuplicates (reports owner s news)) :
    ∃ e t, (importNodes owner true news).on s = (.error e, t) := by
  simp only [OnlyDuplicates, not_forall] at hother
  obtain ⟨r, hr, e, he, hne⟩ := hother
  exact importNodes_fails ⟨r, hr, e, he, (h.endsImport_iff hr he).2 ⟨rfl, hne⟩⟩

/-- **The import of many nodes is one import after the other.**  On a store where the owner is
there, an import that goes on after a failure gives one report for each node, of what becomes of the
node on the store that those before it leave; failures leave the store as it is, and the new rows
are just the nodes that are told, with new and increasing identifiers.  An import that ends with the
first failure other than a link that is there already succeeds exactly when all failures are of that
kind, and then it tells and leaves the same. -/
theorem importNodes_one_by_one (h : s.Hosts owner) (news : List NewNode) :
    ∃ results s', (importNodes owner false news).on s = (.ok results, s') ∧
      OneByOne owner news results s s' ∧
      ((∃ answer t, (importNodes owner true news).on s = (.ok answer, t)) ↔
        OnlyDuplicates results) ∧
      ∀ answer t, (importNodes owner true news).on s = (.ok answer, t) →
        answer = results ∧ t = s' := by
  refine ⟨_, _, importNodes_on_of_hosts h (.inl rfl), h.oneByOne news, ?_⟩
  by_cases hknown : OnlyDuplicates (reports owner s news)
  · rw [importNodes_on_of_hosts h (.inr hknown)]
    refine ⟨iff_of_true ⟨_, _, rfl⟩ hknown, ?_⟩
    rintro answer t hon
    cases hon
    exact ⟨rfl, rfl⟩
  · obtain ⟨e, t, hfails⟩ := importNodes_fails_of_hosts h hknown
    rw [hfails]
    refine ⟨iff_of_false ?_ hknown, ?_⟩
    · rintro ⟨answer, t', hon⟩
      cases hon
    · intro answer t' hon
      cases hon

/-- A store with a subscription and with a node that has its link and its tag elsewhere. -/
def subscribedStore : Store :=
  { Store.empty with
    nodes := ⟨[⟨4, "socks5://a.example:1#A", "A", "a.example:1", "socks5", some "a", none⟩], 7⟩
    subscriptions := ⟨[⟨1, "https://list.example", none, "", true, "", ""⟩], 1⟩ }

theorem subscribedStore_hosts : subscribedStore.Hosts (some 1) where
  ordered := ⟨List.pairwise_singleton _ _, by decide⟩
  there id hid := by
    cases hid
    exact ⟨_, .head _, rfl⟩

/-- A link that is known elsewhere and is taken, the same link again, a link that cannot be read,
and a link with a tag, twice. -/
def mixedNews : List NewNode :=
  [⟨"socks5://a.example:1#A", none⟩, ⟨"socks5://a.example:1#A", none⟩, ⟨"garbage", none⟩,
    ⟨"socks5://b.example:1#B", some "b"⟩, ⟨"socks5://b.example:1#B", some "b"⟩]

/-- What is told of a node, as far as it can be compared. -/
def outcomeOf (r : Imported) : Option Id × Option StoreError :=
  match r.outcome with
  | .ok n => (some n.id, none)
  | .error e => (none, some e)

/-- The second one of two equal links is a duplicate, and an import that ends with other failures
takes the two; a tag that is taken is found before the link. -/
theorem importNodes_one_by_one_mixed :
    (∃ results s', (importNodes (some 1) false mixedNews).on subscribedStore = (.ok results, s') ∧
      OneByOne (some 1) mixedNews results subscribedStore s' ∧
      results.map outcomeOf = [(some 8, none),
        (none, some (.alreadyExists .node "socks5://a.example:1#A")),
        (none, some (.invalid .link (.link .noScheme) "garbage")), (some 9, none),
        (none, some (.alreadyExists .tag "b"))] ∧
      ¬ ∃ answer t, (importNodes (some 1) true mixedNews).on subscribedStore = (.ok answer, t)) ∧
    ∃ results s', (importNodes (some 1) true (mixedNews.take 2)).on subscribedStore =
        (.ok results, s') ∧ OneByOne (some 1) (mixedNews.take 2) results subscribedStore s' := by
  constructor
  · obtain ⟨results, s', hon, hone, -⟩ := importNodes_one_by_one subscribedStore_hosts mixedNews
    refine ⟨results, s', hon, hone, ?_, ?_⟩
    · have hmap := congrArg (fun r => r.1.toOption.map (·.map outcomeOf)) hon
      exact Option.some.inj (hmap.symm.trans (by decide +kernel))
    · rintro ⟨answer, t, hrun⟩
      have hok : ((importNodes (some 1) true mixedNews).on subscribedStore).1.isOk = false := by
        decide +kernel
      rw [hrun] at hok
      cases hok
  · obtain ⟨results, s', hon, hone, -, hsame⟩ :=
      importNodes_one_by_one subscribedStore_hosts (mixedNews.take 2)
    have hok : ((importNodes (some 1) true (mixedNews.take 2)).on subscribedStore).1.isOk =
        true := by decide +kernel
    rcases hrun : (importNodes (some 1) true (mixedNews.take 2)).on subscribedStore
      with ⟨_ | answer, t⟩
    · rw [hrun] at hok
      cases hok
    · obtain ⟨rfl, rfl⟩ := hsame answer t hrun
      exact ⟨answer, t, rfl, hone⟩

end Transaction
end Reports
end ProxyPlane
