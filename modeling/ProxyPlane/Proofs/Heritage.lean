import Mathlib.Data.List.Induction
import ProxyPlane.Proofs.Lifetime

/-!
# What an engine inherits

An engine begins with what the engine before it leaves: the handles, and the cache of names if both
ask for the same kind of address.  Where a snapshot is refused, the engine that is built instead
asks for what its predecessor asked for, and gets all of its cache.  So a name is known as long as
all that has been *applied* since it was found out asks for what was asked for at the time; what was
refused plays no part.

Names are found out by the engine that serves, between two reloads: the cache is taken when a reload
begins.  An engine may also find out its own name by being built.

## What is here

* `Worker.Deed`, `Worker.serving`, `Worker.reloads` — a history, what serves after it, and how many
  reloads it has.
* `Worker.Holds` — the last word on a name, if all that was applied since then lets it pass;
  `Worker.holds_concat` says what one more deed does to it.
* `Worker.Recalls` — a cache says what a history holds.
* `Worker.Runs`, `Worker.Runs.reload` — an engine serves, and what a reload makes of it.
* `Worker.Served` — the worker that a history leads to; by `Worker.Served.next` the history goes on
  after every reload that does not end the worker.
* `Worker.Standing`, `Worker.Served.standing` — what every step of a history preserves.
* `Worker.Served.heritage` — **what an engine inherits**: which names it knows, and how often its
  handles were handed on.
-/

set_option autoImplicit false
namespace ProxyPlane

/-! ## Caches -/

namespace DnsCache

theorem get?_empty (name : String) : empty.get? name = none := rfl

theorem get?_insert (c : DnsCache) (name other : String) (addresses : List IpAddress) :
    (c.insert name addresses).get? other =
      if other = name then some addresses else c.get? other := by
  have hothers : other ≠ name →
      (c.entries.filter fun e => e.1 != name).lookup other = c.entries.lookup other := by
    intro hne
    induction c.entries with
    | nil => rfl
    | cons e rest ih =>
      obtain ⟨key, value⟩ := e
      by_cases hkey : key = name
      · have hother : (other == key) = false := by simp [hkey, hne]
        rw [List.filter_cons_of_neg (by simp [hkey]), ih, List.lookup_cons, hother]
      · rw [List.filter_cons_of_pos (by simp [hkey]), List.lookup_cons, List.lookup_cons, ih]
  rw [insert, get?, List.lookup_cons]
  by_cases hname : other = name
  · simp [hname]
  · have hother : (other == name) = false := by simp [hname]
    rw [hother, if_neg hname, get?]
    exact hothers hname

end DnsCache

/-- The kind of address that is asked for. -/
def Snapshot.preference (s : Snapshot) : Config.IpPreference := s.sections.dns.preference

namespace Worker

/-! ## Histories -/

/-- What happens to what is known about names. -/
inductive Deed
  /-- The engine that serves finds out about a name. -/
  | learned (name : String) (addresses : List IpAddress)
  /-- A snapshot is applied. -/
  | applied (snapshot : Snapshot)
  /-- A snapshot is refused, and the one before it serves again. -/
  | refused (snapshot : Snapshot)

/-- The snapshot that is applied. -/
def Deed.applied? : Deed → Option Snapshot
  | .applied snapshot => some snapshot
  | _ => none

/-- Whether an engine takes over from another one. -/
def Deed.isReload : Deed → Bool
  | .learned _ _ => false
  | .applied _ | .refused _ => true

/-- What serves after a history: what was applied last, or the empty snapshot. -/
def serving (past : List Deed) : Snapshot := (past.filterMap Deed.applied?).getLastD .empty

/-- How many reloads were brought to their end. -/
def reloads (past : List Deed) : Nat := past.countP Deed.isReload

/-- Nothing is found out about a name. -/
def Quiet (name : String) (deeds : List Deed) : Prop :=
  ∀ addresses, .learned name addresses ∉ deeds

/-- All that is applied asks for one kind of address. -/
def Prefers (preference : Config.IpPreference) (deeds : List Deed) : Prop :=
  ∀ snapshot, .applied snapshot ∈ deeds → snapshot.preference = preference

/-- The last word on a name, if all that was applied since then asks for the same kind of address as
what served at the time. -/
def Holds (past : List Deed) (name : String) (addresses : List IpAddress) : Prop :=
  ∃ before after, past = before ++ .learned name addresses :: after ∧ Quiet name after ∧
    Prefers (serving before).preference after

variable {past before after : List Deed} {d : Deed} {name : String} {addresses : List IpAddress}

@[simp] theorem serving_nil : serving [] = .empty := rfl

theorem serving_concat (past : List Deed) (d : Deed) :
    serving (past ++ [d]) = d.applied?.getD (serving past) := by
  cases d <;> simp [serving, Deed.applied?]

theorem reloads_append (past next : List Deed) :
    reloads (past ++ next) = reloads past + reloads next :=
  List.countP_append

theorem quiet_append {next : List Deed} :
    Quiet name (past ++ next) ↔ Quiet name past ∧ Quiet name next := by
  simp [Quiet, forall_and]

theorem prefers_append {preference : Config.IpPreference} {next : List Deed} :
    Prefers preference (past ++ next) ↔ Prefers preference past ∧ Prefers preference next := by
  simp only [Prefers, List.mem_append, or_imp, forall_and]

/-- As long as all that is applied asks for one kind of address, so does what serves. -/
theorem preference_serving (h : Prefers (serving before).preference after) :
    (serving (before ++ .learned name addresses :: after)).preference =
      (serving before).preference := by
  induction after using List.reverseRecOn with
  | nil => rw [serving_concat]; rfl
  | append_singleton after last ih =>
    obtain ⟨hafter, hlast⟩ := prefers_append.1 h
    rw [← List.cons_append, ← List.append_assoc, serving_concat]
    cases last with
    | applied snapshot => exact hlast snapshot (List.mem_singleton.2 rfl)
    | learned _ _ | refused _ => exact ih hafter

theorem not_holds_nil : ¬ Holds [] name addresses := by
  rintro ⟨before, after, h, -⟩
  simp at h

/-- **One more deed.** A name is known if it was just found out, or if it was known before, this is
not about it, and nothing is applied that asks for another kind of address. -/
theorem holds_concat : Holds (past ++ [d]) name addresses ↔
    d = .learned name addresses ∨
      (Holds past name addresses ∧ Quiet name [d] ∧ Prefers (serving past).preference [d]) := by
  constructor
  · rintro ⟨before, after, h, hquiet, hprefers⟩
    rcases List.eq_nil_or_concat' after with rfl | ⟨after, last, rfl⟩
    · obtain ⟨-, hlast⟩ := List.append_inj' h rfl
      cases hlast
      exact .inl rfl
    · rw [← List.cons_append, ← List.append_assoc] at h
      obtain ⟨rfl, hlast⟩ := List.append_inj' h rfl
      cases hlast
      obtain ⟨hquiet, hquiet'⟩ := quiet_append.1 hquiet
      obtain ⟨hprefers, hprefers'⟩ := prefers_append.1 hprefers
      rw [preference_serving hprefers]
      exact .inr ⟨⟨before, after, rfl, hquiet, hprefers⟩, hquiet', hprefers'⟩
  · rintro (rfl | ⟨⟨before, after, rfl, hquiet, hprefers⟩, hquiet', hprefers'⟩)
    · exact ⟨past, [], rfl, by simp [Quiet], by simp [Prefers]⟩
    · rw [preference_serving hprefers] at hprefers'
      exact ⟨before, after ++ [d], by simp, quiet_append.2 ⟨hquiet, hquiet'⟩,
        prefers_append.2 ⟨hprefers, hprefers'⟩⟩

/-! ## Caches that recall a history -/

/-- A cache says what there is to say after a history. -/
def Recalls (cache : DnsCache) (past : List Deed) : Prop :=
  ∀ name addresses, cache.get? name = some addresses ↔ Holds past name addresses

variable {cache : DnsCache}

theorem recalls_empty : Recalls .empty [] := by
  intro name addresses
  simp [DnsCache.get?_empty, not_holds_nil]

theorem Recalls.learned (h : Recalls cache past) (name : String) (addresses : List IpAddress) :
    Recalls (cache.insert name addresses) (past ++ [.learned name addresses]) := by
  intro other found
  rw [DnsCache.get?_insert, holds_concat]
  by_cases hname : other = name
  · subst hname
    simp [Quiet]
  · simp [hname, Ne.symm hname, Quiet, Prefers, h other found]

theorem Recalls.refused (h : Recalls cache past) (snapshot : Snapshot) :
    Recalls cache (past ++ [.refused snapshot]) := by
  intro name addresses
  rw [holds_concat, h]
  simp [Quiet, Prefers]

/-- Nothing is inherited from an engine that asks for another kind of address. -/
theorem Recalls.applied {previous : Engine} (h : Recalls previous.cache past)
    (hserves : previous.snapshot = serving past) (snapshot : Snapshot) :
    Recalls ((inherited previous snapshot).getD .empty) (past ++ [.applied snapshot]) := by
  intro name addresses
  rw [holds_concat, inherited, hserves, ← Snapshot.preference, ← Snapshot.preference]
  by_cases hsame : (serving past).preference = snapshot.preference
  · simp [hsame, Quiet, Prefers, h name addresses]
  · simp [hsame, Quiet, Prefers, DnsCache.get?_empty, Ne.symm hsame]

/-! ## Engines that were just built -/

/-- What an engine finds out by being built. -/
def introduction (shop : Workshop) (n : Nat) : List Deed :=
  if shop.greets then [.learned (Engine.ownName n) []] else []

theorem serving_introduction (shop : Workshop) (n : Nat) :
    serving (past ++ introduction shop n) = serving past := by
  rw [introduction]
  split
  · rw [serving_concat]
    rfl
  · rw [List.append_nil]

theorem reloads_introduction (shop : Workshop) (n : Nat) : reloads (introduction shop n) = 0 := by
  rw [introduction]
  split <;> rfl

theorem Recalls.known {inherited : Option DnsCache} (h : Recalls (inherited.getD .empty) past)
    (shop : Workshop) (n : Nat) :
    Recalls (shop.known n inherited) (past ++ introduction shop n) := by
  rw [Workshop.known, introduction]
  split
  · exact h.learned _ _
  · rwa [List.append_nil]

/-! ## Workers that run -/

/-- An engine serves, and no reload is under way. -/
structure Runs (w : Worker) (engine : Engine) : Prop where
  dry : w.dry = false
  rebuild : w.rebuild = none
  ended : w.ended = none
  live : w.live = some engine

variable {w w' : Worker} {previous engine : Engine} {snapshot : Snapshot} {armed : Armed}
  {answer : Except ReloadError ReloadOutcome} {generation : Nat}

/-- An engine that takes over begins with the handles of the one before it and with what was handed
to it, unless the worker is gone. -/
theorem takeOver_runs (hdry : w.dry = false) (hended : w.ended = none) {r : Rebuild}
    (hresources : r.resources = some generation) {n : Nat} {inherited : Option DnsCache}
    {refused : Option Fault}
    (h : w.takeOver r ⟨n, snapshot, some 0, w.shop.known n inherited⟩ refused = (answer, w')) :
    (∃ fault, answer = .error (.fatal fault)) ∨
      (answer = takenOver snapshot.fingerprint refused ∧
        w'.Runs ⟨n, snapshot, some (generation + 1), w'.shop.known n inherited⟩) := by
  obtain ⟨shop, -, hgreets, ⟨fault, htakeOver⟩ | ⟨feed, htakeOver⟩⟩ :=
    w.takeOver_cases r ⟨n, snapshot, some 0, w.shop.known n inherited⟩ refused
  all_goals
    rw [htakeOver] at h
    cases h
  · exact .inl ⟨fault, rfl⟩
  · refine .inr ⟨rfl, hdry, rfl, hended, ?_⟩
    rw [hresources, ← Workshop.known_congr hgreets]
    rfl

/-- A request and what it comes to with these faults in its second half. -/
def reload (w : Worker) (snapshot : Snapshot) (armed : Armed) :
    Except ReloadError ReloadOutcome × Worker :=
  ((w.request snapshot).2.move (.arm armed)).complete

/-- **A reload of a worker that runs.** If it is applied, the new engine begins with what it
inherits; if it is refused, an engine for the snapshot before begins with all that its predecessor
knew. -/
theorem Runs.reload (h : w.Runs previous) (hresources : previous.resources = some generation)
    (hreload : w.reload snapshot armed = (answer, w')) :
    (∃ fault, answer = .error (.fatal fault)) ∨
    (∃ n fingerprint, answer = .ok (.applied fingerprint) ∧
      w'.Runs ⟨n, snapshot, some (generation + 1),
        w'.shop.known n (inherited previous snapshot)⟩) ∨
    (∃ n fault, answer = .error (.rejected fault) ∧
      w'.Runs ⟨n, previous.snapshot, some (generation + 1),
        w'.shop.known n (some previous.cache)⟩) := by
  rw [Worker.reload, request_open h.dry h.rebuild h.ended] at hreload
  obtain ⟨hdry, hended, -, -, -, -, hrebuild⟩ := begin_spec h.live snapshot
  rw [h.dry] at hdry
  rw [h.ended] at hended
  -- the faults that come in between touch nothing else
  set building := (w.begin snapshot).move (.arm armed)
  have hbuilding : building.rebuild = some _ := hrebuild
  rcases complete_cases hbuilding with ⟨shop, hcases, -, hgreets⟩ |
    ⟨n, -, ⟨fault, shop, hcases, -, hgreets⟩ | ⟨fault, shop, hcases, -⟩⟩
  all_goals rw [hcases] at hreload
  · rw [← Workshop.known_congr hgreets] at hreload
    rcases takeOver_runs (by exact hdry) (by exact hended) (by exact hresources) hreload with
      hfatal | ⟨hanswer, hruns⟩
    · exact .inl hfatal
    · exact .inr (.inl ⟨_, _, hanswer, hruns⟩)
  · rw [← Workshop.known_congr hgreets] at hreload
    rcases takeOver_runs (by exact hdry) (by exact hended) (by exact hresources) hreload with
      hfatal | ⟨hanswer, hruns⟩
    · exact .inl hfatal
    · exact .inr (.inr ⟨_, _, hanswer, hruns⟩)
  · cases hreload
    exact .inl ⟨fault, rfl⟩

/-! ## Standing -/

/-- A worker runs an engine that serves, holds and knows what a history says. -/
structure Standing (past : List Deed) (w : Worker) (engine : Engine) : Prop
    extends w.Runs engine where
  serves : engine.snapshot = serving past
  handed : engine.resources = some (reloads past)
  recalls : Recalls engine.cache past

/-- What the engine that serves found out by being built. -/
def introductions (w : Worker) : List Deed :=
  match w.live with
  | some engine => introduction w.shop engine.number
  | none => []

/-- An engine that was just built knows what it was given and what it found out by that. -/
theorem Runs.standing {n : Nat} {inherited : Option DnsCache}
    (h : w.Runs ⟨n, snapshot, some generation, w.shop.known n inherited⟩)
    (hserves : snapshot = serving past) (hhanded : generation = reloads past)
    (hrecalls : Recalls (inherited.getD .empty) past) :
    ∃ engine, Standing (past ++ w.introductions) w engine := by
  refine ⟨_, h, ?_, ?_, ?_⟩
  all_goals rw [introductions, h.live]
  · rw [serving_introduction, hserves]
  · rw [reloads_append, reloads_introduction, hhanded]
    rfl
  · exact hrecalls.known _ _

/-- The engine that serves finds out about a name. -/
def learn (w : Worker) (name : String) (addresses : List IpAddress) : Worker :=
  { w with live := w.live.map fun engine =>
      { engine with cache := engine.cache.insert name addresses } }

/-- A worker after a history.  Which acts fail may change at any time. -/
inductive Served : List Deed → Worker → Prop
  | boot {shop : Workshop} {feed : Feed} {w : Worker}
    (h : (idle false shop feed).boot = (.ok (), w)) : Served w.introductions w
  | arm {past : List Deed} {w : Worker} (h : Served past w) (armed : Armed) :
    Served past (w.move (.arm armed))
  | learn {past : List Deed} {w : Worker} (h : Served past w) (name : String)
    (addresses : List IpAddress) :
    Served (past ++ [.learned name addresses]) (w.learn name addresses)
  | applied {past : List Deed} {w w' : Worker} {snapshot : Snapshot} {armed : Armed}
    {fingerprint : String}
    (h : Served past w) (hreload : w.reload snapshot armed = (.ok (.applied fingerprint), w')) :
    Served (past ++ .applied snapshot :: w'.introductions) w'
  | refused {past : List Deed} {w w' : Worker} {snapshot : Snapshot} {armed : Armed}
    {fault : Fault}
    (h : Served past w) (hreload : w.reload snapshot armed = (.error (.rejected fault), w')) :
    Served (past ++ .refused snapshot :: w'.introductions) w'

theorem Standing.learn (h : Standing past w engine) (name : String) (addresses : List IpAddress) :
    Standing (past ++ [.learned name addresses]) (w.learn name addresses)
      { engine with cache := engine.cache.insert name addresses } where
  dry := h.dry
  rebuild := h.rebuild
  ended := h.ended
  live := by rw [Worker.learn, h.live]; rfl
  serves := by rw [serving_concat]; exact h.serves
  handed := by rw [reloads_append]; exact h.handed
  recalls := h.recalls.learned name addresses

/-- **What every step preserves**: the engine serves what was applied last, its handles were handed
on by every reload, and it knows what the history holds. -/
theorem Served.standing (h : Served past w) : ∃ engine, Standing past w engine := by
  induction h with
  | boot h =>
    obtain ⟨hdry, hrebuild, ⟨-, hended, -⟩, n, -, hlive, -⟩ := boot_spec h
    have hruns : Runs _ _ := ⟨hdry, hrebuild, hended, hlive⟩
    exact hruns.standing serving_nil.symm rfl recalls_empty
  | arm _ armed ih =>
    obtain ⟨engine, h⟩ := ih
    exact ⟨engine, ⟨h.dry, h.rebuild, h.ended, h.live⟩, h.serves, h.handed, h.recalls⟩
  | learn _ name addresses ih =>
    obtain ⟨engine, h⟩ := ih
    exact ⟨_, h.learn name addresses⟩
  | @applied past w w' snapshot armed fingerprint _ hreload ih =>
    obtain ⟨previous, h⟩ := ih
    rw [List.append_cons]
    rcases h.reload h.handed hreload with
      ⟨fault, hanswer⟩ | ⟨n, fingerprint', hanswer, hruns⟩ | ⟨n, fault, hanswer, -⟩
    all_goals cases hanswer
    refine hruns.standing ?_ ?_ (h.recalls.applied h.serves snapshot)
    · rw [serving_concat]
      rfl
    · rw [reloads_append]
      rfl
  | @refused past w w' snapshot armed fault _ hreload ih =>
    obtain ⟨previous, h⟩ := ih
    rw [List.append_cons]
    rcases h.reload h.handed hreload with
      ⟨fault, hanswer⟩ | ⟨n, fingerprint, hanswer, -⟩ | ⟨n, fault, hanswer, hruns⟩
    all_goals cases hanswer
    refine hruns.standing ?_ ?_ (h.recalls.refused snapshot)
    · rw [serving_concat]
      exact h.serves
    · rw [reloads_append]
      rfl

/-- A worker that serves takes every request up, and goes on with its history unless it is gone. -/
theorem Served.next (h : Served past w) (snapshot : Snapshot) (armed : Armed) :
    (w.request snapshot).1 = none ∧
      ((∃ fault, (w.reload snapshot armed).1 = .error (.fatal fault)) ∨
        ∃ d ∈ [Deed.applied snapshot, .refused snapshot],
          Served (past ++ d :: (w.reload snapshot armed).2.introductions)
            (w.reload snapshot armed).2) := by
  obtain ⟨engine, hstanding⟩ := h.standing
  refine ⟨?_, ?_⟩
  · rw [request_open hstanding.dry hstanding.rebuild hstanding.ended]
  · have hreload : w.reload snapshot armed = (_, (w.reload snapshot armed).2) := rfl
    rcases hstanding.reload hstanding.handed hreload with
      hfatal | ⟨_, _, hanswer, -⟩ | ⟨_, _, hanswer, -⟩
    · exact .inl hfatal
    · exact .inr ⟨.applied snapshot, by simp, h.applied (Prod.ext hanswer rfl)⟩
    · exact .inr ⟨.refused snapshot, by simp, h.refused (Prod.ext hanswer rfl)⟩

end Worker
end ProxyPlane
