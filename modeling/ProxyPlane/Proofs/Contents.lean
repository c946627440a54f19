import ProxyPlane.Proofs.Failures
import ProxyPlane.Proofs.Reporting

/-!
# What a subscription holds

A list of links is imported one link after the other: a link that cannot be read is refused, and so
is one that its subscription has already, be it from before or from further up the list.  What is
left is the same whichever way it is counted: the rows that are there in the end, the results that
are nodes, and the number that is told are those of the links that can be read, each once.

## What is here

* `readableLinks` — the links that can be read, each once, and `novelLinks` — those of them that
  are new.
* `Store.Fills`, `Transaction.importNodes_fills` — what an import of links for a subscription comes
  to: it always ends, with a result for each link.
* `Store.Stocked`, `Store.Fills.stocks` — a subscription that holds what a list of links has in it,
  as every subscription does that had nothing before the import.
* `Transaction.replaceNodes_on`, `Transaction.createSubscription_bare` — a subscription is emptied
  before a refresh, and a new one is empty.
* `Download`, `Download.run_cases`, `Download.rest_run` — a subscription that is fetched: what is
  stored, and what is told.
* `Traffic.Reachable.download_contents` — what a subscription holds once it was fetched.
-/

set_option autoImplicit false
namespace ProxyPlane

open Store Routine

/-! ## Links -/

/-- The links that can be read and are not among the given ones, each once and in their order. -/
def novelLinks (known links : List String) : List String :=
  (links.filter fun link => (readLink link).isOk && !known.contains link).eraseDups

/-- The links that can be read, each once and in their order. -/
def readableLinks (links : List String) : List String :=
  (links.filter fun link => (readLink link).isOk).eraseDups

theorem novelLinks_nil (links : List String) : novelLinks [] links = readableLinks links := by
  simp [novelLinks, readableLinks]

/-- A link that is refused is not new. -/
theorem novelLinks_cons_old {known : List String} {link : String}
    (h : (readLink link).isOk = true → link ∈ known) (rest : List String) :
    novelLinks known (link :: rest) = novelLinks known rest := by
  rw [novelLinks, List.filter_cons_of_neg, novelLinks]
  simpa using h

/-- A link that is taken is known from then on. -/
theorem novelLinks_cons_new {known : List String} {link : String}
    (hread : (readLink link).isOk = true) (hnew : link ∉ known) (rest : List String) :
    novelLinks known (link :: rest) = link :: novelLinks (known ++ [link]) rest := by
  rw [novelLinks, List.filter_cons_of_pos (by simp [hread, hnew]), List.eraseDups_cons,
    List.filter_filter, novelLinks]
  congr 3
  funext other
  by_cases hother : other = link
  · simp [hother]
  · simp [hother]

theorem exists_readLink {link : String} (h : (readLink link).isOk = true) :
    ∃ endpoint, readLink link = .ok endpoint := by
  cases hread : readLink link with
  | ok endpoint => exact ⟨endpoint, rfl⟩
  | error e => rw [hread] at h; cases h

theorem readLink_error {link : String} {e : StoreError} (h : readLink link = .error e) :
    ∃ problem, e = .invalid .link (.link problem) link := by
  rw [readLink] at h
  split at h
  · cases h
  · next problem _ => cases h; exact ⟨problem, rfl⟩

/-- The node that a link became. -/
def Imported.node? (r : Imported) : Option Node := r.outcome.toOption

theorem countImported_eq (results : List Imported) :
    countImported results = (results.filterMap Imported.node?).length := by
  induction results with
  | nil => rfl
  | cons r rest ih =>
    obtain ⟨link, outcome⟩ := r
    cases outcome with
    | ok n =>
      rw [countImported, List.countP_cons_of_pos rfl]
      exact congrArg (· + 1) ih
    | error e =>
      rw [countImported, List.countP_cons_of_neg (by simp)]
      exact ih

/-! ## An import -/

namespace Store

variable {s s' t : Store} {owner : Id}

/-- **What an import of links for a subscription comes to**: a result for each link, and a row
without a tag for each link that can be read and was new. -/
structure Fills (owner : Id) (links : List String) (results : List Imported) (s s' : Store) :
    Prop where
  imports : Imports (some owner) s s'
  reported : results.map (·.link) = links
  rows : s'.nodes.rows = s.nodes.rows ++ results.filterMap Imported.node?
  novel : (results.filterMap Imported.node?).map (·.link) =
    novelLinks ((s.nodesOf owner).map (·.link)) links
  plain : ∀ n ∈ results.filterMap Imported.node?, n.tag = none ∧ n.subscription = some owner

/-- The rows that a link is refused for, or taken. -/
theorem mem_links_nodesOf {link : String} : link ∈ (s.nodesOf owner).map (·.link) ↔
    ∃ n ∈ s.nodes.rows, n.link = link ∧ n.subscription = some owner := by
  simp [nodesOf, List.mem_map, List.mem_filter]
  grind

theorem Fills.nil (h : s.Valid) : Fills owner [] [] s s where
  imports := .refl h _
  reported := rfl
  rows := (List.append_nil _).symm
  novel := rfl
  plain := by simp

/-- A link that is refused leaves the rest to be imported. -/
theorem Fills.refuse {link : String} {rest : List String} {results : List Imported} {e : StoreError}
    (h : Fills owner rest results s s')
    (hold : (readLink link).isOk = true → link ∈ (s.nodesOf owner).map (·.link)) :
    Fills owner (link :: rest) (⟨link, .error e⟩ :: results) s s' where
  imports := h.imports
  reported := congrArg (link :: ·) h.reported
  rows := h.rows
  novel := h.novel.trans (novelLinks_cons_old hold rest).symm
  plain := h.plain

/-- A link that is taken is there for the rest. -/
theorem Fills.take {rest : List String} {results : List Imported} {n : Node}
    (himports : Imports (some owner) s t) (hrows : t.nodes.rows = s.nodes.rows ++ [n])
    (htag : n.tag = none) (howner : n.subscription = some owner)
    (hread : (readLink n.link).isOk = true) (hnew : n.link ∉ (s.nodesOf owner).map (·.link))
    (h : Fills owner rest results t s') :
    Fills owner (n.link :: rest) (⟨n.link, .ok n⟩ :: results) s s' where
  imports := himports.trans h.imports
  reported := congrArg (n.link :: ·) h.reported
  rows := by
    rw [h.rows, hrows, List.append_assoc]
    rfl
  novel := by
    have hknown : (t.nodesOf owner).map (·.link) = (s.nodesOf owner).map (·.link) ++ [n.link] := by
      rw [nodesOf, hrows, List.filter_append, List.map_append, nodesOf]
      simp [howner]
    rw [novelLinks_cons_new hread hnew, ← hknown, ← h.novel]
    rfl
  plain := by
    intro n' hn'
    obtain rfl | hn' := List.mem_cons.1 hn'
    · exact ⟨htag, howner⟩
    · exact h.plain n' hn'

end Store

namespace Transaction

variable {s s' t : Store} {id : Id}

/-- What is known to come of a transaction. -/
theorem ensures_of_on {α : Type} {u : Transaction α} {a : α} {P : α → Store → Prop}
    (hon : u.on s = (.ok a, s')) (h : P a s') : u.Ensures s P := by
  intro a' t hon'
  cases hon.symm.trans hon'
  exact h

/-- A row that is there is found. -/
theorem require_on {α : Type} (entity : Entity) (id : Id) (row : α) :
    (require entity id (some row)).on s = (.ok row, s) :=
  rfl

/-- **A link that is new** becomes a row. -/
theorem importNode_on_new (h : s.Valid) {link : String} {endpoint : Endpoint}
    (hread : readLink link = .ok endpoint) (hnew : link ∉ (s.nodesOf id).map (·.link))
    {row : Subscription} (hrow : s.subscriptions.find? id = some row) :
    let make (id' : Id) : Node :=
      ⟨id', link, endpoint.name, endpoint.address, endpoint.protocol, none, some id⟩
    (importNode ⟨link, none⟩ (some id)).on s =
      (.ok (make (s.nodes.issued + 1)), { s with nodes := s.nodes.push make }) := by
  intro make
  have hany : (s.nodes.rows.any fun n => n.link == link && n.subscription == some id) = false := by
    simpa [mem_links_nodesOf] using hnew
  have hfound : (s.nodes.push make).find? (s.nodes.issued + 1) =
      some (make (s.nodes.issued + 1)) :=
    (h.nodes.push rfl).find?_eq_some.2 ⟨Table.mem_push.2 (.inr rfl), rfl⟩
  have hthere : (s.subscriptions.find? id).isNone = false := by rw [hrow, Option.isNone_some]
  simp only [importNode, on_bind, check, check.liftExcept, hread, on_pure, on_get, hany, hthere,
    Bool.false_eq_true, if_false, on_set, node]
  rw [hfound]
  rfl

/-- **A link that is refused** changes nothing: it cannot be read, or it is there already. -/
theorem importNode_on_old {link : String}
    (hold : (readLink link).isOk = true → link ∈ (s.nodesOf id).map (·.link)) :
    ∃ e, endsImport false e = false ∧
      (importNode ⟨link, none⟩ (some id)).on s = (.error e, s) := by
  cases hread : readLink link with
  | error e =>
    obtain ⟨problem, rfl⟩ := readLink_error hread
    refine ⟨.invalid .link (.link problem) link, rfl, ?_⟩
    simp only [importNode, on_bind, check, check.liftExcept, hread, on_throw]
  | ok endpoint =>
    have hany : (s.nodes.rows.any fun n => n.link == link && n.subscription == some id) = true := by
      simpa [mem_links_nodesOf] using hold (by rw [hread]; rfl)
    refine ⟨.alreadyExists .node link, rfl, ?_⟩
    simp only [importNode, on_bind, check, check.liftExcept, hread, on_pure, on_get, hany, if_true,
      on_throw]

/-- One import that does not end the others. -/
theorem importNodes_on_cons {owner : Option Id} {abort : Bool} {new : NewNode} {rest : List NewNode}
    {outcome : Except StoreError Node} {results : List Imported}
    (hone : (importNode new owner).on s = (outcome, t))
    (hgoes : ∀ e, outcome = .error e → endsImport abort e = false)
    (hrest : (importNodes owner abort rest).on t = (.ok results, s')) :
    (importNodes owner abort (new :: rest)).on s = (.ok (⟨new.link, outcome⟩ :: results), s') := by
  simp only [importNodes, on_bind, on_caught, hone]
  cases outcome with
  | ok n => simp only [on_bind, hrest, on_pure]
  | error e => simp only [hgoes e rfl, Bool.false_eq_true, if_false, on_bind, hrest, on_pure]

/-- **An import of links for a subscription always ends**, with a result for each link. -/
theorem importNodes_fills (h : s.Valid) {row : Subscription}
    (hrow : s.subscriptions.find? id = some row) (links : List String) :
    ∃ results s', (importNodes (some id) false (links.map fun link => ⟨link, none⟩)).on s =
        (.ok results, s') ∧ Fills id links results s s' := by
  -- what is known to the rest are the rows that are there by then, so the store is left open
  induction links generalizing s with
  | nil => exact ⟨[], s, rfl, .nil h⟩
  | cons link rest ih =>
    by_cases hold : (readLink link).isOk = true → link ∈ (s.nodesOf id).map (·.link)
    · obtain ⟨e, hgoes, hone⟩ := importNode_on_old hold
      obtain ⟨results, s', hrest, hfills⟩ := ih h hrow
      refine ⟨_, s', importNodes_on_cons hone ?_ hrest, hfills.refuse hold⟩
      rintro _ ⟨⟩
      exact hgoes
    · obtain ⟨hread, hnew⟩ := Classical.not_imp.1 hold
      obtain ⟨endpoint, hendpoint⟩ := exists_readLink hread
      have hone := importNode_on_new h hendpoint hnew hrow
      have himports := importNode_leaves h ⟨link, none⟩ (some id)
      rw [Leaves, hone] at himports
      obtain ⟨results, s', hrest, hfills⟩ := ih himports.valid (by exact hrow)
      refine ⟨_, s', importNodes_on_cons hone ?_ hrest, ?_⟩
      · rintro _ ⟨⟩
      · exact Fills.take himports rfl rfl rfl hread hnew hfills

end Transaction

/-! ## What a subscription holds -/

namespace Store

variable {s s' t : Store} {id : Id} {links : List String} {results : List Imported}

/-- **A subscription holds what a list of links has in it**: there is a result for each link; the
results that are nodes are the nodes of the subscription, in the order of their identifiers, and
their links are those that can be read.  All other nodes are as they were. -/
structure Stocked (id : Id) (links : List String) (results : List Imported) (s s' : Store) :
    Prop where
  reported : results.map (·.link) = links
  owned : s'.nodesOf id = results.filterMap Imported.node?
  increasing : (s'.nodesOf id).Pairwise fun n n' => n.id < n'.id
  links : (s'.nodesOf id).map (·.link) = readableLinks links
  others : (s'.nodes.rows.filter fun n => n.subscription != some id) =
    s.nodes.rows.filter fun n => n.subscription != some id

/-- As many links became nodes as can be read. -/
theorem Stocked.count (h : Stocked id links results s s') :
    countImported results = (readableLinks links).length := by
  rw [countImported_eq, ← h.owned, ← h.links, List.length_map]

/-- As many results as can be read are nodes, so there are none only if no link can be read. -/
theorem Stocked.count_eq_zero (h : Stocked id links results s s') :
    countImported results = 0 ↔ readableLinks links = [] := by
  rw [h.count, List.length_eq_zero_iff]

/-- What comes before makes no difference to a subscription that holds nothing. -/
theorem Fills.stocks (h : Fills id links results t s') (hempty : t.nodesOf id = [])
    (hothers : (t.nodes.rows.filter fun n => n.subscription != some id) =
      s.nodes.rows.filter fun n => n.subscription != some id) : Stocked id links results s s' := by
  have hnew : ∀ n ∈ results.filterMap Imported.node?, n.subscription = some id :=
    fun n hn => (h.plain n hn).2
  have howned : s'.nodesOf id = results.filterMap Imported.node? := by
    rw [nodesOf] at hempty ⊢
    rw [h.rows, List.filter_append, hempty, List.nil_append]
    exact List.filter_eq_self.2 fun n hn => by simp [hnew n hn]
  refine ⟨h.reported, howned, h.imports.valid.nodes.increasing.filter _, ?_, ?_⟩
  · rw [howned, h.novel, hempty, List.map_nil, novelLinks_nil]
  · rw [h.rows, List.filter_append, hothers]
    have hnone : (results.filterMap Imported.node?).filter (fun n => n.subscription != some id) =
        [] :=
      List.filter_eq_nil_iff.2 fun n hn => by simp [hnew n hn]
    rw [hnone, List.append_nil]

/-- What a subscription holds depends on the nodes alone. -/
theorem Stocked.congr (h : Stocked id links results s t) (hnodes : s'.nodes = t.nodes) :
    Stocked id links results s s' := by
  have howned : s'.nodesOf id = t.nodesOf id := by rw [nodesOf, hnodes, nodesOf]
  exact ⟨h.reported, howned ▸ h.owned, howned ▸ h.increasing, howned ▸ h.links, hnodes ▸ h.others⟩

theorem nodesOf_dropNodes (s : Store) (id : Id) :
    (s.dropNodes fun n => n.subscription == some id).nodesOf id = [] := by
  refine List.filter_eq_nil_iff.2 fun n hn howner => ?_
  obtain ⟨-, hkept⟩ := Table.mem_retain.1 hn
  simp [beq_iff_eq.1 howner] at hkept

theorem others_dropNodes (s : Store) (id : Id) :
    ((s.dropNodes fun n => n.subscription == some id).nodes.rows.filter fun n =>
      n.subscription != some id) = s.nodes.rows.filter fun n => n.subscription != some id := by
  rw [dropNodes, Table.retain, List.filter_filter]
  exact List.filter_congr fun n _ => by simp [bne]

end Store

namespace Transaction

variable {s : Store} {id : Id}

/-- **A refresh of a subscription that is there always succeeds**: its nodes are taken out, the links
are imported, and the groups that are touched move. -/
theorem replaceNodes_on (h : s.Valid) {row : Subscription}
    (hrow : s.subscriptions.find? id = some row) (links : List String) :
    ∃ results t, (replaceNodes id links).on s = (.ok results, t.bumped (s.touchedBy id)) ∧
      Fills id links results (s.dropNodes fun n => n.subscription == some id) t := by
  have hvalid := valid_dropNodes h fun n => n.subscription == some id
  obtain ⟨results, t, hon, hfills⟩ := importNodes_fills hvalid (by exact hrow) links
  refine ⟨results, t, ?_, hfills⟩
  simp only [replaceNodes, subscription, on_bind, on_get, hrow, require_on, on_set, hon]
  rfl

/-- A new subscription is there, and no node belongs to it yet. -/
theorem createSubscription_bare (h : s.Valid) (link : String) (tag : Option String) :
    (createSubscription link tag).Ensures s fun row t =>
      t.Valid ∧ t.nodes = s.nodes ∧ t.subscriptions.find? row.id = some row ∧
        t.nodesOf row.id = [] ∧ ∀ row' ∈ s.subscriptions.rows, row'.id < row.id := by
  refine ((createSubscription_ensures h link tag).and
    (createSubscription_opens h link tag)).mono ?_
  rintro _ _ ⟨⟨hedit, -⟩, -, rfl, rfl⟩
  -- an owner was issued, and the new identifier was not
  have hless : ∀ row ∈ s.subscriptions.rows, row.id < s.subscriptions.issued + 1 :=
    fun row hrow => Int.lt_add_one_of_le (h.subscriptions.issued row hrow)
  have hfound := hedit.valid.subscriptions.find?_eq_some.2 ⟨Table.mem_push.2 (.inr rfl), rfl⟩
  refine ⟨hedit.valid, rfl, hfound, List.filter_eq_nil_iff.2 fun n hn howner => ?_, hless⟩
  obtain ⟨row, hrow, hid⟩ := h.owned n hn _ (beq_iff_eq.1 howner)
  exact Int.ne_of_lt (hless row hrow) hid

end Transaction

/-! ## The parts of a download -/

namespace Operation
variable {α β : Type} {p : Plane}

/-- What is checked, or what comes after it. -/
theorem check_run_cases (c : Except ControlError α) (f : α → Operation β)
    (p : Plane) : (∃ e, (check c >>= f).steps.run p = (.error e, p)) ∨
      ∃ a, (check c >>= f).steps.run p = (f a).steps.run p := by
  cases c with
  | ok a => exact .inr ⟨a, rfl⟩
  | error e => exact .inl ⟨e, rfl⟩

/-- What is fetched, or what comes after it. -/
theorem fetch_run_cases (link : String) (f : List String → Operation α)
    (p : Plane) : (∃ e, (fetch link >>= f).steps.run p = (.error e, p)) ∨
      ∃ links, p.remote.links link = .ok links ∧
        (fetch link >>= f).steps.run p = (f links).steps.run p := by
  have hfetch : (fetch link).steps.run p = ((p.remote.links link).mapError .fetch, p) := fetch_run
  cases hlinks : p.remote.links link with
  | ok links =>
    rw [hlinks] at hfetch
    exact .inr ⟨links, rfl, run_andThen_ok hfetch⟩
  | error failure =>
    rw [hlinks] at hfetch
    exact .inl ⟨_, run_andThen_error hfetch⟩

/-- What an import comes to: a refusal, after which nothing has changed, or a commit. -/
theorem importing_run_cases {s : Store} (hs : p.store = some s) (refusal : Refusal)
    (t : Transaction (Option Report)) :
    (∃ e, (importing refusal t).steps.run p = (.error e, p)) ∨
      ∃ report s', t.on s = (.ok (some report), s') ∧
        (importing refusal t).steps.run p = (.ok report, p.commit s' none) := by
  rcases hon : t.on s with ⟨e | _ | report, s'⟩
  · refine .inl ⟨.ofStore e, run_andThen_error (transact_run_error hs
      (?_ : Transaction.on _ s = (.error e, s')))⟩
    rw [Transaction.on_bind, hon]
  · refine .inl ⟨.refused refusal, run_andThen_ok (transact_run_ok hs
      (?_ : Transaction.on _ s = (.ok (none, .rollback), s')))⟩
    rw [Transaction.on_bind, hon]
    rfl
  · refine .inr ⟨report, s', rfl, run_andThen_ok (transact_run_ok hs
      (?_ : Transaction.on _ s = (.ok (some report, .commit none), s')))⟩
    rw [Transaction.on_bind, hon]
    rfl

end Operation

namespace Plane

/-- A silent change leaves the bus alone. -/
theorem Silent.bus {f : Plane → Plane} (h : Silent f) (p : Plane) :
    (f p).worker.feed.bus = p.worker.feed.bus := by
  have hsame : f p = (f p).onBus p.worker.feed.bus := h.onBus p p.worker.feed.bus
  rw [hsame]
  rfl

/-- A commit that is not about what runs tells a drift, if it tells anything. -/
theorem commit_bus (p : Plane) (s : Store) : ∃ news : List Event,
    (∀ event ∈ news, event = .driftDetected) ∧
      (p.commit s none).worker.feed.bus = p.worker.feed.bus.publishes news := by
  cases hdrift : s.drift.filter (· ≠ .notRunning) with
  | none => exact ⟨[], nofun, by simp only [commit, hdrift]; rfl⟩
  | some drift =>
    cases hdrifted : p.drifted with
    | true => exact ⟨[], nofun, by simp only [commit, hdrift, hdrifted]; rfl⟩
    | false =>
      exact ⟨[.driftDetected], fun _ => List.mem_singleton.1,
        by simp only [commit, hdrift, hdrifted]; rfl⟩

end Plane

/-! ## Downloads -/

/-- A subscription that is fetched, as a new one or again. -/
inductive Download
  | new (link : String) (tag : Option String)
  | again (id : Id)

namespace Download

/-- The operation that fetches it. -/
def operation : Download → Operation Report
  | new link tag => Operation.importSubscription link tag
  | again id => Operation.updateSubscription id

/-- The link that is fetched, unless there is no such subscription. -/
def link? (s : Store) : Download → Option String
  | new link _ => some link
  | again id => (s.subscriptions.find? id).map (·.link)

/-- The subscription that gets the nodes: one that was not there, or the one that was meant. -/
def Supplies (s : Store) (id : Id) : Download → Prop
  | new _ _ => ∀ row ∈ s.subscriptions.rows, row.id < id
  | again id' => id = id'

/-- What is stored once the links were fetched. -/
def storing (links : List String) : Download → Transaction (Option Report)
  | new link tag => do
    let row ← Transaction.createSubscription link tag
    let results ← Transaction.importNodes (some row.id) false (links.map fun link => ⟨link, none⟩)
    return if countImported results = 0 then none else some ⟨row, results⟩
  | again id => do
    let results ← Transaction.replaceNodes id links
    if countImported results = 0 then return none
    Transaction.setStatus id ""
    return some ⟨← Transaction.subscription id, results⟩

/-- How it is refused that nothing is stored. -/
def refusal : Download → Refusal
  | new _ _ => .nothingImported
  | again _ => .nothingRefreshed

/-- What is done before the update is told: a new subscription gets its job. -/
def settle (report : Report) : Download → Operation Unit
  | new _ _ => Operation.modify fun p => p.scheduleIfReadable report.subscription []
  | again _ => pure ()

/-- What is left to do once the links were fetched. -/
def rest (d : Download) (links : List String) : Operation Report := do
  let report ← Operation.importing d.refusal (d.storing links)
  d.settle report
  Operation.tellUpdated report
  return report

end Download

section Download
variable {s s' : Store} {p : Plane} {links : List String}

/-- **What a download stores**, if it stores anything, are the nodes of a subscription. -/
theorem Download.storing_stocks (h : s.Valid) (d : Download) (links : List String) :
    (d.storing links).Ensures s fun report? s' => ∀ report, report? = some report →
      readableLinks links ≠ [] ∧ d.Supplies s report.subscription.id ∧
        Stocked report.subscription.id links report.results s s' := by
  open Transaction in
  cases d with
  | new link tag =>
    refine ensures_bind.2 ((createSubscription_bare h link tag).mono ?_)
    rintro row t ⟨hvalid, hnodes, hrow, hempty, hless⟩
    obtain ⟨results, t', hon, hfills⟩ := importNodes_fills hvalid hrow links
    refine ensures_bind.2 (ensures_of_on hon (ensures_pure.2 fun report hreport => ?_))
    have hstocked := hfills.stocks hempty (congrArg (fun t : Table Node => t.rows.filter _) hnodes)
    split at hreport
    · cases hreport
    · next hcount =>
      cases hreport
      exact ⟨mt hstocked.count_eq_zero.2 hcount, hless, hstocked⟩
  | again id =>
    cases hrow : s.subscriptions.find? id with
    | none =>
      refine ensures_bind.2 ?_
      simp only [replaceNodes, ensures_bind, ensures_subscription, hrow]
      rintro _ ⟨⟩
    | some row =>
      obtain ⟨results, t, hon, hfills⟩ := replaceNodes_on h hrow links
      have hstocked := hfills.stocks (nodesOf_dropNodes s id) (others_dropNodes s id)
      refine ensures_bind.2 (ensures_of_on hon (ensures_ite.2 ⟨fun _ => ?_, fun hcount => ?_⟩))
      · rw [ensures_pure]
        rintro _ ⟨⟩
      · simp only [setStatus, editSubscription, ensures_bind, ensures_modify, ensures_subscription,
          ensures_pure]
        rintro _ _ row' hrow' report ⟨⟩
        obtain rfl : row'.id = id := (Table.mem_of_find? hrow').2
        exact ⟨mt hstocked.count_eq_zero.2 hcount, rfl, hstocked.congr rfl⟩

/-- A download whose links were not fetched fails, and the others go on to store them. -/
theorem Download.run_cases (hs : p.store = some s) (d : Download) :
    (∃ e p', d.operation.steps.run p = (.error e, p')) ∨
      ∃ link links, d.link? s = some link ∧ p.remote.links link = .ok links ∧
        d.operation.steps.run p = (d.rest links).steps.run p := by
  cases d with
  | new link tag =>
    have hfetched : (∃ e p', (Operation.fetch link >>= (new link tag).rest).steps.run p =
        (.error e, p')) ∨ ∃ link' links, (new link tag).link? s = some link' ∧
          p.remote.links link' = .ok links ∧
          (Operation.fetch link >>= (new link tag).rest).steps.run p =
            ((new link tag).rest links).steps.run p := by
      obtain ⟨e, h⟩ | ⟨links, hlinks, h⟩ :=
        Operation.fetch_run_cases link (new link tag).rest p
      · exact .inl ⟨e, p, h⟩
      · exact .inr ⟨link, links, rfl, hlinks, h⟩
    -- the tag is checked before anything is fetched
    cases tag with
    | none => exact hfetched
    | some tag =>
      obtain ⟨e, h⟩ | ⟨_, h⟩ := Operation.check_run_cases
        ((checkIdentifier .tag tag).mapError .ofStore)
        (fun _ => Operation.fetch link >>= (new link (some tag)).rest) p
      · exact .inl ⟨e, p, h⟩
      · exact h ▸ hfetched
  | again id =>
    cases hrow : s.subscriptions.find? id with
    | none => exact .inl ⟨_, _, Operation.updateSubscription_run_none hs hrow⟩
    | some row =>
      cases hlinks : p.remote.links row.link with
      | error failure => exact .inl ⟨_, _, Operation.updateSubscription_run_failed hs hrow hlinks⟩
      | ok links =>
        refine .inr ⟨row.link, links, by rw [link?, hrow]; rfl, hlinks, ?_⟩
        exact Operation.updateSubscription_run_fetched hs hrow hlinks

theorem Download.settle_run (d : Download) (report : Report) (p : Plane) :
    ∃ q, (d.settle report).steps.run p = (.ok (), q) ∧ q.store = p.store ∧
      q.worker.feed.bus = p.worker.feed.bus := by
  cases d with
  | new link tag =>
    exact ⟨p.scheduleIfReadable report.subscription [], rfl,
      Operation.scheduleIfReadable_store p report.subscription [],
      (Plane.silent_scheduleIfReadable report.subscription []).bus p⟩
  | again id => exact ⟨p, rfl, rfl, rfl⟩

/-- **What a download comes to** once the links were fetched: it is refused, or what is stored is
told. -/
theorem Download.rest_run (hs : p.store = some s) (h : s.Valid) (d : Download)
    (links : List String) :
    (∃ e, (d.rest links).steps.run p = (.error e, p)) ∨
      ∃ report p' s', (d.rest links).steps.run p = (.ok report, p') ∧ p'.store = some s' ∧
        readableLinks links ≠ [] ∧ d.Supplies s report.subscription.id ∧
        Stocked report.subscription.id links report.results s s' ∧
        ∃ news : List Event, (∀ event ∈ news, event = .driftDetected) ∧
          p'.worker.feed.bus = p.worker.feed.bus.publishes (news ++
            [.subscriptionUpdated (Id.unsigned report.subscription.id)
              (readableLinks links).length]) := by
  obtain ⟨e, hrun⟩ | ⟨report, s', hon, hrun⟩ :=
    Operation.importing_run_cases hs d.refusal (d.storing links)
  · exact .inl ⟨e, run_andThen_error hrun⟩
  · obtain ⟨hreadable, hsupplies, hstocked⟩ := d.storing_stocks h links _ _ hon report rfl
    obtain ⟨news, hnews, hbus⟩ := p.commit_bus s'
    obtain ⟨q, hsettle, hstore, hbus'⟩ := d.settle_run report (p.commit s' none)
    refine .inr ⟨report, q.emit (.subscriptionUpdated (Id.unsigned report.subscription.id)
      (countImported report.results)), s', ?_, ?_, hreadable, hsupplies, hstocked, news, hnews, ?_⟩
    · exact (run_andThen_ok hrun).trans ((run_andThen_ok hsettle).trans rfl)
    · exact hstore.trans (p.commit_store s' none)
    · rw [Bus.publishes_append, ← hbus, ← hbus', ← hstocked.count]
      rfl

/-- **What a subscription holds once it was fetched**: whichever state was reached and whichever
links were fetched, a subscription that was imported or updated holds the links that can be read,
each once and in their order; there is at least one.  The nodes of others are as they were, there is
a result for each link that was fetched, and the number of nodes that is told is that of the links.
If none of them can be read, the command fails. -/
theorem Traffic.Reachable.download_contents {t : Traffic} (h : t.Reachable) (d : Download)
    {result : Except ControlError Report} (hrun : d.operation.steps.run t.plane = (result, p)) :
    ∃ s, t.plane.store = some s ∧
      (∀ report, result = .ok report → ∃ link links s', d.link? s = some link ∧
        t.plane.remote.links link = .ok links ∧ p.store = some s' ∧ readableLinks links ≠ [] ∧
        d.Supplies s report.subscription.id ∧
        Stocked report.subscription.id links report.results s s' ∧
        ∃ news : List Event, (∀ event ∈ news, event = .driftDetected) ∧
          p.worker.feed.bus = t.plane.worker.feed.bus.publishes (news ++
            [.subscriptionUpdated (Id.unsigned report.subscription.id)
              (readableLinks links).length])) ∧
      ∀ link links, d.link? s = some link → t.plane.remote.links link = .ok links →
        readableLinks links = [] → ∃ e, result = .error e := by
  obtain ⟨s, hs, hvalid, -⟩ := h.sound
  refine ⟨s, hs, ?_⟩
  obtain ⟨e, p', hfails⟩ | ⟨link, links, hlink, hlinks, hfetched⟩ := d.run_cases hs
  · cases hrun.symm.trans hfails
    exact ⟨nofun, fun _ _ _ _ _ => ⟨e, rfl⟩⟩
  · obtain ⟨e, hfails⟩ | ⟨report, p', s', hok, hs', hreadable, hstored⟩ :=
      d.rest_run hs hvalid links
    · cases hrun.symm.trans (hfetched.trans hfails)
      exact ⟨nofun, fun _ _ _ _ _ => ⟨e, rfl⟩⟩
    · cases hrun.symm.trans (hfetched.trans hok)
      refine ⟨?_, fun link' links' hlink' hlinks' hnone => ?_⟩
      · rintro _ ⟨⟩
        exact ⟨link, links, s', hlink, hlinks, hs', hreadable, hstored⟩
      · cases hlink.symm.trans hlink'
        cases hlinks.symm.trans hlinks'
        exact absurd hnone hreadable

end Download

namespace Traffic

/-- The list of a subscription has changed: it has one link twice, one that cannot be read, and one
that was there before and is also the link of a node without a subscription. -/
def relisted : Traffic :=
  (subscribed.ask (.edit (.importNodes [⟨"socks5://n1.example:1080#N1", none⟩] false)) 1).move
    (.change ⟨.none, none, false, [("https://list.example/a", ⟨200,
      "socks5://n2.example:1080#N2\nvmess://?\nsocks5://n1.example:1080#N1\nsocks5://n2.example:1080#N2"
        |>.toUTF8.data.toList⟩)], 0⟩)

theorem relisted_reachable : relisted.Reachable :=
  (subscribed_reachable.ask _ _).move _

/-- A refresh takes each link once, leaves out the one that cannot be read, and leaves the node
without a subscription alone. -/
theorem download_contents_relisted : ∃ report p s',
    (Download.again 1).operation.steps.run relisted.plane = (.ok report, p) ∧ p.store = some s' ∧
      report.results.map (·.link) = ["socks5://n2.example:1080#N2", "vmess://?",
        "socks5://n1.example:1080#N1", "socks5://n2.example:1080#N2"] ∧
      (s'.nodesOf 1).map (·.link) =
        ["socks5://n2.example:1080#N2", "socks5://n1.example:1080#N1"] ∧
      (s'.nodes.rows.filter fun n => n.subscription != some 1).map (·.id) = [2] ∧
      ∃ news, p.worker.feed.bus =
        relisted.plane.worker.feed.bus.publishes (news ++ [.subscriptionUpdated 1 2]) := by
  let list := "https://list.example/a"
  let answer := ["socks5://n2.example:1080#N2", "vmess://?", "socks5://n1.example:1080#N1",
    "socks5://n2.example:1080#N2"]
  have hanswer : relisted.plane.remote.links list = .ok answer := by decide +kernel
  have hreadable : readableLinks answer =
      ["socks5://n2.example:1080#N2", "socks5://n1.example:1080#N1"] := by decide +kernel
  have hok : ((Download.again 1).operation.steps.run relisted.plane).1.isOk = true := by
    decide +kernel
  rcases hrun : (Download.again 1).operation.steps.run relisted.plane with ⟨e | report, p⟩
  · rw [hrun] at hok
    cases hok
  obtain ⟨s, hs, hcontents, -⟩ := relisted_reachable.download_contents (.again 1) hrun
  obtain ⟨s₁, hs₁, hlink, hothers⟩ := exists_of_any (o := relisted.plane.store)
    (P := fun s => (Download.again 1).link? s = some list ∧
      (s.nodes.rows.filter fun n => n.subscription != some 1).map (·.id) = [2]) (by decide +kernel)
  cases hs₁.symm.trans hs
  obtain ⟨link, links, s', hlink', hlinks, hs', -, hid, hstocked, news, -, hbus⟩ :=
    hcontents report rfl
  cases hlink.symm.trans hlink'
  cases hanswer.symm.trans hlinks
  rw [show report.subscription.id = 1 from hid] at hstocked hbus
  refine ⟨report, p, s', rfl, hs', hstocked.reported, hstocked.links.trans hreadable, ?_, news, ?_⟩
  · rw [hstocked.others, hothers]
  · rw [hbus, hreadable]
    rfl

end Traffic
end ProxyPlane
