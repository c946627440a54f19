import ProxyPlane.Http.Service
import ProxyPlane.Proofs.Traffic

/-!
# Changes of a section that are asked for together

A request may ask for a new body and a new name of a section at once.  The two are changed one after
the other, the body first, and each change is a transaction of its own.  Either of them leaves the
section alone when it fails.  Together they do so unless the first one succeeds: a name that is
refused is looked at only when the new body is there already, and then the answer is an error and
half of the request is done.  A row that is missing never tears a request, for the first change
finds that out.

## What is here

* `Operation.edit_run`, `Operation.checked_edit_run` — what becomes of one change of a section.
* `Plane.Torn` — a request of which only the first half can be done.
* `Http.Patched`, `Http.patchSection_run` — the three ways in which a request for changes can end.
* `Http.Request.Asks`, `Http.respond_asked` — what a request says; apart from how it is told, the
  answer is that of what it says.
* `Http.patch_atomic_iff` — a request for changes that fails leaves the section alone just when it
  is not torn.
-/

set_option autoImplicit false
namespace ProxyPlane

open Routine

/-! ## One change -/

namespace Store

variable {s : Store} {kind : SectionKind} {id : Id} {f : Section → Section}

/-- The section of a kind with an identifier. -/
def sectionAt? (s : Store) (kind : SectionKind) (id : Id) : Option Section :=
  (s.sections.get kind).find? id

/-- A store with one section changed. -/
def withSection (s : Store) (kind : SectionKind) (id : Id) (f : Section → Section) : Store :=
  s.withSections kind ((s.sections.get kind).modify id f)

theorem sectionAt?_withSection (hf : ∀ row, (f row).id = row.id) :
    (s.withSection kind id f).sectionAt? kind id = (s.sectionAt? kind id).map f := by
  rw [sectionAt?, withSection, sections_withSections, if_pos rfl]
  exact Table.find?_modify hf

end Store

namespace Transaction

variable {s : Store} {kind : SectionKind} {id : Id} {f : Section → Section}

theorem editSection_on (hf : ∀ row, (f row).id = row.id) : (editSection kind id f).on s =
    (require (.sectionOf kind) id ((s.sectionAt? kind id).map f)).on (s.withSection kind id f) := by
  rw [← Store.sectionAt?_withSection hf]
  rfl

theorem editSection_on_some (hf : ∀ row, (f row).id = row.id) {row : Section}
    (h : s.sectionAt? kind id = some row) :
    (editSection kind id f).on s = (.ok (f row), s.withSection kind id f) := by
  rw [editSection_on hf, h]
  rfl

theorem editSection_on_none (hf : ∀ row, (f row).id = row.id) (h : s.sectionAt? kind id = none) :
    (editSection kind id f).on s =
      (.error (.notFound (.sectionOf kind) id), s.withSection kind id f) := by
  rw [editSection_on hf, h]
  rfl

end Transaction

namespace Plane

/-- The section of a kind with an identifier, as long as the store is open. -/
def sectionAt? (p : Plane) (kind : SectionKind) (id : Id) : Option Section :=
  p.store.bind (·.sectionAt? kind id)

end Plane

namespace Operation

variable {f : Section → Section}

/-- **One change of a section**: it fails and nothing is changed, or the section is there and is
changed. -/
theorem edit_run (kind : SectionKind) (id : Id) (hf : ∀ row, (f row).id = row.id) (p : Plane) :
    (p.sectionAt? kind id = none ∧
      ∃ e, (change (Transaction.editSection kind id f)).steps.run p = (.error e, p)) ∨
    ∃ row p', p.sectionAt? kind id = some row ∧ p'.sectionAt? kind id = some (f row) ∧
      (change (Transaction.editSection kind id f)).steps.run p = (.ok (f row), p') := by
  rcases hs : p.store with _ | s
  · refine .inl ⟨by rw [Plane.sectionAt?, hs]; rfl, _, transact_run_none hs⟩
  rcases hrow : s.sectionAt? kind id with _ | row
  · refine .inl ⟨by rw [Plane.sectionAt?, hs]; exact hrow, _, transact_run_error hs (?_ :
      Transaction.on _ s = (.error (.notFound (.sectionOf kind) id), s.withSection kind id f))⟩
    rw [Transaction.on_map, Transaction.editSection_on_none hf hrow]
  · refine .inr ⟨row, p.commit (s.withSection kind id f) none, ?_, ?_, ?_⟩
    · rw [Plane.sectionAt?, hs]
      exact hrow
    · rw [Plane.sectionAt?, p.commit_store, Option.bind_some, Store.sectionAt?_withSection hf, hrow]
      rfl
    · have hon : ((·, Closing.commit none) <$> Transaction.editSection kind id f).on s =
          (.ok (f row, .commit none), s.withSection kind id f) := by
        rw [Transaction.on_map, Transaction.editSection_on_some hf hrow]
      exact transact_run_ok hs hon

/-- A change that is checked beforehand. -/
theorem checked_edit_run (c : Except ControlError Unit) (kind : SectionKind) (id : Id)
    (hf : ∀ row, (f row).id = row.id) (p : Plane) :
    ((c.isOk = false ∨ p.sectionAt? kind id = none) ∧
      ∃ e, (check c >>= fun _ => change (Transaction.editSection kind id f)).steps.run p =
        (.error e, p)) ∨
    ∃ row p', c = .ok () ∧ p.sectionAt? kind id = some row ∧
      p'.sectionAt? kind id = some (f row) ∧
      (check c >>= fun _ => change (Transaction.editSection kind id f)).steps.run p =
        (.ok (f row), p') := by
  cases c with
  | error e => exact .inl ⟨.inl rfl, e, rfl⟩
  | ok _ =>
    obtain ⟨hnone, e, hrun⟩ | ⟨row, p', hrow, hrow', hrun⟩ := edit_run kind id hf p
    · exact .inl ⟨.inr hnone, e, hrun⟩
    · exact .inr ⟨row, p', rfl, hrow, hrow', hrun⟩

end Operation

/-! ## Both changes -/

/-- A section with what is asked for. -/
def Section.patched (name body : Option String) (row : Section) : Section :=
  { row with
    name := name.getD row.name
    body := body.getD row.body
    version := if body.isSome then row.version + 1 else row.version }

/-- A request for a new body and a new name of a section that is there, of which the body can be
taken and the name cannot. -/
def Plane.Torn (p : Plane) (kind : SectionKind) (id : Id) (name body : Option String) : Prop :=
  ∃ n b, name = some n ∧ body = some b ∧ checkBody kind b = .ok () ∧
    (p.sectionAt? kind id).isSome = true ∧ (checkRemarks .name n).isOk = false

namespace Http

open Operation

variable {kind : SectionKind} {id : Id} {name body : Option String} {p : Plane}

theorem checkRemarks_error {field : Field} {value : String} {e : StoreError}
    (h : checkRemarks field value = .error e) : e = .invalid field .structural value := by
  unfold checkRemarks at h
  split at h <;> cases h
  rfl

theorem Problem.status_ge (problem : Problem) : 400 ≤ problem.status := by
  cases problem <;> decide

/-- A failure is told as an error. -/
theorem status_ofError (e : ControlError) : 400 ≤ (Response.ofError e).status :=
  (Problem.ofError e).status_ge

namespace Call

theorem respond_run (c : Call) (p : Plane) : c.respond.run p =
    match c.answer.steps.run p with
    | (.ok response, p') => (response, p')
    | (.error e, p') => (.ofError e, p') := by
  refine (run_bind c.answer.steps _ p).trans ?_
  rcases c.answer.steps.run p with ⟨e | response, p'⟩
  all_goals rfl

end Call

theorem shows_run {α : Type} (wire : α → Json) (op : Operation α) (p : Plane) :
    (shows wire op).steps.run p = match op.steps.run p with
      | (.ok a, p') => (.ok (.json (wire a)), p')
      | (.error e, p') => (.error e, p') := by
  refine (run_bind op.steps _ p).trans ?_
  rcases op.steps.run p with ⟨e | a, p'⟩
  all_goals rfl

/-- **How a request for changes of a section ends.** -/
inductive Patched (kind : SectionKind) (id : Id) (name body : Option String) (p : Plane) :
    Response × Plane → Prop
  /-- Nothing is changed. -/
  | refused {r : Response} (whole : ¬ p.Torn kind id name body) (fails : 400 ≤ r.status) :
    Patched kind id name body p (r, p)
  /-- The body is changed, and the answer is an error. -/
  | torn {r : Response} {p' : Plane} {row : Section} (torn : p.Torn kind id name body)
      (fails : r.status = 400) (before : p.sectionAt? kind id = some row)
      (after : p'.sectionAt? kind id = some (row.patched none body)) :
    Patched kind id name body p (r, p')
  /-- Everything that was asked for is changed. -/
  | done {r : Response} {p' : Plane} {row : Section} (whole : ¬ p.Torn kind id name body)
      (succeeds : r.status = 200) (before : p.sectionAt? kind id = some row)
      (after : p'.sectionAt? kind id = some (row.patched name body)) :
    Patched kind id name body p (r, p')

/-- One change alone is never torn. -/
theorem not_torn_of_none (h : name = none ∨ body = none) : ¬ p.Torn kind id name body := by
  rintro ⟨n, b, rfl, rfl, -⟩
  exact h.elim nofun nofun

/-- A call that shows what comes of an operation. -/
theorem Call.respond_run_shows {α : Type} {c : Call} {wire : α → Json} {op : Operation α}
    (h : c.answer = shows wire op) (p : Plane) : c.respond.run p =
      match op.steps.run p with
      | (.ok a, p') => (.json (wire a), p')
      | (.error e, p') => (.ofError e, p') := by
  rw [Call.respond_run, h, shows_run]
  rcases op.steps.run p with ⟨e | a, p'⟩
  all_goals rfl

/-- A request for one change. -/
theorem patched_alone {call : Call} {c : Except ControlError Unit} {f : Section → Section}
    (hcall : call.answer = shows Section.wire (check c >>= fun _ =>
      change (Transaction.editSection kind id f)))
    (hf : ∀ row, (f row).id = row.id) (hasked : ∀ row : Section, row.patched name body = f row)
    (halone : name = none ∨ body = none) (p : Plane) :
    Patched kind id name body p (call.respond.run p) := by
  have hwhole : ¬ p.Torn kind id name body := not_torn_of_none halone
  rw [Call.respond_run_shows hcall]
  obtain ⟨-, e, hrun⟩ | ⟨row, p', -, hrow, hrow', hrun⟩ := checked_edit_run c kind id hf p
  · rw [hrun]
    exact .refused hwhole (status_ofError e)
  · rw [hrun]
    exact .done hwhole rfl hrow (by rw [hasked, hrow'])

/-- A name that is refused. -/
theorem renameSection_refused {n : String} (hname : (checkRemarks .name n).isOk = false)
    (p : Plane) : ∃ e, (renameSection kind id n).steps.run p = (.error e, p) ∧
      (Response.ofError e).status = 400 := by
  cases hcheck : checkRemarks .name n with
  | ok _ =>
    rw [hcheck] at hname
    cases hname
  | error e =>
    refine ⟨.ofStore e, by rw [renameSection, hcheck]; rfl, ?_⟩
    rw [checkRemarks_error hcheck]
    rfl

/-- A name that is taken, for a section that is there. -/
theorem renameSection_taken {n : String} {row : Section}
    (hname : (checkRemarks .name n).isOk = true) (hrow : p.sectionAt? kind id = some row) :
    ∃ p', (renameSection kind id n).steps.run p = (.ok { row with name := n }, p') ∧
      p'.sectionAt? kind id = some { row with name := n } := by
  obtain ⟨hfails, -⟩ | ⟨row', p', -, hthere, hafter, hrun⟩ :=
    checked_edit_run (f := fun row => { row with name := n })
      ((checkRemarks .name n).mapError .ofStore) kind id (fun _ => rfl) p
  · rcases hfails with hrefused | hnone
    · cases hcheck : checkRemarks .name n with
      | error e => rw [hcheck] at hname; cases hname
      | ok _ => rw [hcheck] at hrefused; cases hrefused
    · cases hrow.symm.trans hnone
  · obtain rfl := Option.some.inj (hrow.symm.trans hthere)
    exact ⟨p', hrun, hafter⟩

/-- A request for both changes. -/
theorem patched_both (n b : String) (p : Plane) :
    Patched kind id (some n) (some b) p
      ((Call.patchSection kind id (some n) (some b)).respond.run p) := by
  rw [Call.respond_run]
  obtain ⟨hfails, e, hrun⟩ | ⟨row, p', hbody, hrow, hrow', hrun⟩ :=
    checked_edit_run (f := fun row => { row with body := b, version := row.version + 1 })
      (checkBody kind b) kind id (fun _ => rfl) p
  · have hanswer : (Call.patchSection kind id (some n) (some b)).answer.steps.run p =
        (.error e, p) := run_andThen_error hrun
    rw [hanswer]
    refine .refused ?_ (status_ofError e)
    rintro ⟨_, _, ⟨⟩, ⟨⟩, hb, hthere, -⟩
    rcases hfails with h | h
    · rw [hb] at h
      cases h
    · rw [h] at hthere
      cases hthere
  · have hanswer : (Call.patchSection kind id (some n) (some b)).answer.steps.run p =
        (shows Section.wire (renameSection kind id n)).steps.run p' := run_andThen_ok hrun
    rw [hanswer, shows_run]
    cases hname : (checkRemarks .name n).isOk with
    | false =>
      obtain ⟨e, hrename, hstatus⟩ := renameSection_refused hname p'
      rw [hrename]
      exact .torn ⟨n, b, rfl, rfl, hbody, by rw [hrow]; rfl, hname⟩ hstatus hrow hrow'
    | true =>
      obtain ⟨q, hrename, hafter⟩ := renameSection_taken hname hrow'
      have hwhole : ¬ p.Torn kind id (some n) (some b) := by
        rintro ⟨_, _, ⟨⟩, -, -, -, hrefused⟩
        cases hname.symm.trans hrefused
      rw [hrename]
      exact .done hwhole rfl hrow hafter

/-- **A request for changes of a section** ends in one of the three ways. -/
theorem patchSection_run (kind : SectionKind) (id : Id) (name body : Option String) (p : Plane) :
    Patched kind id name body p ((Call.patchSection kind id name body).respond.run p) := by
  match name, body with
  | none, none => exact .refused (not_torn_of_none (.inl rfl)) (Problem.badRequest.status_ge)
  | none, some b =>
    exact patched_alone (c := checkBody kind b)
      (f := fun row => { row with body := b, version := row.version + 1 }) rfl (fun _ => rfl)
      (fun _ => rfl) (.inl rfl) p
  | some n, none =>
    exact patched_alone (c := (checkRemarks .name n).mapError .ofStore)
      (f := fun row => { row with name := n }) rfl (fun _ => rfl) (fun _ => rfl) (.inr rfl) p
  | some n, some b => exact patched_both n b p

/-! ## The request -/

/-- What a request says: its path has a route, the route knows the method, and the content is
understood. -/
def Request.Asks (r : Request) (call : Call) : Prop :=
  ∃ route words endpoint, findRoute r.path = some (route, words) ∧
    route.endpoint? r.method = some endpoint ∧ endpoint.call words r = .ok call

/-- Nobody who watches the bus has anything to do with the store. -/
theorem store_discard (r : Response) (p : Plane) : (r.discard p).store = p.store := by
  rw [Response.discard]
  split <;> rfl

/-- The answer of a route is that of what the request says, with headers and perhaps without
content. -/
theorem Route.answer_run {route : Route} {words : List (List Char)} {r : Request}
    {endpoint : Endpoint} {call : Call} (hendpoint : route.endpoint? r.method = some endpoint)
    (hcall : endpoint.call words r = .ok call) (p : Plane) :
    ((route.answer words r).run p).1.status = (call.respond.run p).1.status ∧
      ((route.answer words r).run p).2.store = (call.respond.run p).2.store := by
  simp only [Route.answer, hendpoint, hcall, run_andThen]
  split
  · exact ⟨rfl, store_discard _ _⟩
  · exact ⟨rfl, rfl⟩

/-- **A request is answered by what it says**, apart from how it is told. -/
theorem respond_asked {r : Request} {call : Call} (h : r.Asks call) (p : Plane) :
    ((respond r).run p).1.status = (call.respond.run p).1.status ∧
      ((respond r).run p).2.store = (call.respond.run p).2.store := by
  obtain ⟨route, words, endpoint, hroute, hendpoint, hcall⟩ := h
  obtain ⟨hstatus, hstore⟩ := route.answer_run hendpoint hcall p
  rw [respond, hroute]
  simp only [Route.respond, run_andThen]
  refine ⟨?_, hstore⟩
  rw [← hstatus]
  cases r.header? "x-request-id" <;> rfl

/-- What a request can change of a section. -/
def content (row : Section) : String × String × Version := (row.body, row.name, row.version)

/-- A new body shows in the version. -/
theorem content_patched_body (row : Section) (b : String) :
    content (row.patched none (some b)) ≠ content row := by
  intro h
  have hversion : row.version + 1 = row.version := congrArg (·.2.2) h
  exact Int.ne_of_gt (Int.lt_succ _) hversion

/-- **A request for changes that fails leaves the section alone just when it is not torn.**  If the
answer is an error and the request is not torn, the whole store is as it was.  A torn request is
always answered with an error, and leaves the section with the new body, a new version and the old
name. -/
theorem patch_atomic_iff {r : Request} (h : r.Asks (.patchSection kind id name body))
    {p p' : Plane} {response : Response} (hrun : (respond r).run p = (response, p')) :
    (400 ≤ response.status →
      ((p'.sectionAt? kind id).map content = (p.sectionAt? kind id).map content ↔
        ¬ p.Torn kind id name body)) ∧
    (400 ≤ response.status → ¬ p.Torn kind id name body → p'.store = p.store) ∧
    (p.Torn kind id name body → response.status = 400 ∧ ∃ row,
      p.sectionAt? kind id = some row ∧ p'.sectionAt? kind id = some (row.patched none body)) := by
  obtain ⟨hstatus, hstore⟩ := respond_asked h p
  have hends := patchSection_run kind id name body p
  rw [hrun] at hstatus hstore
  generalize (Call.patchSection kind id name body).respond.run p = answer at hstatus hstore hends
  have hafter : p'.sectionAt? kind id = answer.2.sectionAt? kind id := by
    rw [Plane.sectionAt?, hstore]
    rfl
  rw [hafter]
  cases hends with
  | refused hwhole hfails =>
    exact ⟨fun _ => iff_of_true rfl hwhole, fun _ _ => hstore, fun htorn => absurd htorn hwhole⟩
  | torn htorn hfails hbefore hrow =>
    refine ⟨fun _ => iff_of_false ?_ (not_not.2 htorn), fun _ hwhole => absurd htorn hwhole,
      fun _ => ⟨hstatus.trans hfails, _, hbefore, hrow⟩⟩
    obtain ⟨n, b, rfl, rfl, -⟩ := htorn
    rw [hrow, hbefore]
    exact fun heq => content_patched_body _ b (Option.some.inj heq)
  | done hwhole hsucceeds hbefore hrow =>
    have hnever : ¬ 400 ≤ response.status := by
      rw [hstatus, hsucceeds]
      decide
    exact ⟨fun hfails => absurd hfails hnever, fun hfails => absurd hfails hnever,
      fun htorn => absurd htorn hwhole⟩

/-- A request for changes of the first section of global options. -/
def patching (document : String) : Request :=
  ⟨"PATCH", "/v1/config/1", [("content-type", "application/json")], document.toUTF8.data.toList⟩

/-- A new body that can be read and a name with a colon. -/
def tearing : Request :=
  patching "\x7b\"body\": \"log_level: info\", \"name\": \"a:b\"\x7d"

/-- A name with a colon alone. -/
def refusing : Request := patching "\x7b\"name\": \"a:b\"\x7d"

theorem asks_of_call {r : Request} {call : Call} (hpath : r.path = "/v1/config/1".toList)
    (hmethod : r.method = "PATCH")
    (hcall : Endpoint.patchSection.call ["config".toList, "1".toList] r = .ok call) :
    r.Asks call := by
  refine ⟨⟨[.word "v1", .hole "kind", .hole "id"],
    [(.get, .loadSection), (.patch, .patchSection), (.delete, .removeSection)]⟩,
    ["config".toList, "1".toList], .patchSection, ?_, ?_, hcall⟩
  · rw [hpath]
    decide +kernel
  · rw [hmethod]
    decide +kernel

theorem tearing_asks :
    tearing.Asks (.patchSection .config 1 (some "a:b") (some "log_level: info")) :=
  asks_of_call (by decide +kernel) rfl (by decide +kernel)

theorem refusing_asks : refusing.Asks (.patchSection .config 1 (some "a:b") none) :=
  asks_of_call (by decide +kernel) rfl (by decide +kernel)

/-- The first request is torn; the second one fails and changes nothing. -/
theorem patch_atomic_iff_furnished :
    (∃ response p', (respond tearing).run Traffic.furnished.plane = (response, p') ∧
      response.status = 400 ∧ ∃ row, Traffic.furnished.plane.sectionAt? .config 1 = some row ∧
        p'.sectionAt? .config 1 = some (row.patched none (some "log_level: info"))) ∧
    ∃ response p', (respond refusing).run Traffic.furnished.plane = (response, p') ∧
      400 ≤ response.status ∧ p'.store = Traffic.furnished.plane.store := by
  constructor
  · have htorn : Traffic.furnished.plane.Torn .config 1 (some "a:b") (some "log_level: info") :=
      ⟨_, _, rfl, rfl, by decide +kernel, by decide +kernel, by decide +kernel⟩
    obtain ⟨-, -, htears⟩ := patch_atomic_iff tearing_asks (Prod.eta _).symm
    exact ⟨_, _, (Prod.eta _).symm, htears htorn⟩
  · have hfails : 400 ≤ ((respond refusing).run Traffic.furnished.plane).1.status := by
      decide +kernel
    obtain ⟨-, hkeeps, -⟩ := patch_atomic_iff refusing_asks (Prod.eta _).symm
    exact ⟨_, _, (Prod.eta _).symm, hfails, hkeeps hfails (not_torn_of_none (.inr rfl))⟩

/-- The answer is an error, and the section has the new body. -/
theorem tearing_tears :
    tearing.Asks (.patchSection .config 1 (some "a:b") (some "log_level: info")) ∧
      ((respond tearing).run Traffic.furnished.plane).1.status = 400 ∧
      (Traffic.furnished.plane.sectionAt? .config 1).map content = some ("", "c", 1) ∧
      (((respond tearing).run Traffic.furnished.plane).2.sectionAt? .config 1).map content =
        some ("log_level: info", "c", 2) := by
  refine ⟨tearing_asks, ?_, ?_, ?_⟩
  all_goals decide +kernel

end Http
end ProxyPlane
