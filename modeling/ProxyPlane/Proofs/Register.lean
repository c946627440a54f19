import Mathlib.Data.List.DropRight
import ProxyPlane.Proofs.Reports

/-!
# The books of a bus

A bus numbers the events, keeps the last of them, and keeps a register of the observers it delivers
to.  Observers leave the register in two ways: they are taken off, or an event strikes them off
because they do not keep up or are gone.  Whatever the order of all this, every observer that ever
came is in one place and one only, so that the counters balance: nobody is struck off twice, taking
off somebody who was struck off changes nothing, and one event may strike off many.

## What is here

* `Bus.issued` — the events with the numbers that publishing them gave.
* `Bus.register` — the observers on the register.
* `Bus.signedOff`, `Bus.struck` — who was taken off, and who was struck off by an event.
* `Bus.Filed` — what every bus that is in use keeps: channels are numbered as observers come, and
  the ring holds the end of what was published.
* `Bus.Filed.loses_eq` — whoever is lost by a move was taken off or struck off by it.
* `Bus.Filed.register_on`, `Bus.Filed.register_after` — what one move and any number of moves do to
  the register.
* `Bus.books_balance` — the books balance after any number of moves.
-/

set_option autoImplicit false
namespace ProxyPlane
namespace Bus

/-! ## What is on the books -/

/-- The event that a move publishes, with the number that is given. -/
def Move.issues (b : Bus) : Move → List Envelope
  | .publish event => [⟨(b.publish event).1, event⟩]
  | _ => []

/-- The events that are published over any number of moves, with the numbers that are given. -/
def issued (b : Bus) : List Move → List Envelope
  | [] => []
  | move :: rest => move.issues b ++ (move.on b).issued rest

/-- The observers on the register. -/
def register (b : Bus) : List Nat := (b.channels.filter (·.registered)).map (·.id)

/-- The observers that a move takes off the register. -/
def Move.signsOff (b : Bus) : Move → List Nat
  | .unsubscribe id => if b.holds id then [id] else []
  | _ => []

/-- The observers that a move strikes off the register, because it publishes an event. -/
def Move.strikes (b : Bus) : Move → List Nat
  | .publish event => b.register.filter fun id => !(b.publish event).2.holds id
  | _ => []

/-- The observers that are taken off over any number of moves. -/
def signedOff (b : Bus) : List Move → List Nat
  | [] => []
  | move :: rest => move.signsOff b ++ (move.on b).signedOff rest

/-- The observers that are struck off over any number of moves. -/
def struck (b : Bus) : List Move → List Nat
  | [] => []
  | move :: rest => move.strikes b ++ (move.on b).struck rest

/-- How many observers come by a move. -/
def Move.comers : Move → Nat
  | .subscribe _ => 1
  | _ => 0

/-- How many observers come over any number of moves. -/
def comers : List Move → Nat
  | [] => 0
  | move :: rest => move.comers + comers rest

variable {b : Bus} {move : Move}

/-! ## What is always so -/

/-- What holds of every bus that is in use, with all that was published on it: observers are
numbered as they come, the events by their order, and the ring holds the last of them. -/
structure Filed (ring : Nat) (past : List Envelope) (b : Bus) : Prop where
  observers : b.channels.map (·.id) = List.range' 1 b.subscribed
  capacity : b.ringCapacity = max 1 ring
  published : b.published = past.length
  numbers : past.map (·.id) = List.range' 1 past.length
  kept : b.ring = past.rtake (max 1 ring)

variable {ring : Nat} {past : List Envelope}

theorem filed_withCapacity (ring queue : Nat) : (withCapacity ring queue).Filed ring [] :=
  ⟨rfl, rfl, rfl, rfl, by rw [List.rtake_nil]; rfl⟩

theorem Filed.reworks {b' : Bus} (h : b.Filed ring past) (hb : b.Reworks b') :
    b'.Filed ring past := by
  obtain ⟨f, hf, rfl⟩ := hb
  refine ⟨?_, h.capacity, h.published, h.numbers, h.kept⟩
  rw [← h.observers]
  simp [Function.comp_def, hf]

/-- The end of a list that has become longer by one. -/
theorem rtake_concat {α : Type} (l : List α) (a : α) {n : Nat} (hn : 0 < n) :
    (l ++ [a]).rtake n =
      (if (l.rtake n).length = n then (l.rtake n).drop 1 else l.rtake n) ++ [a] := by
  have hlength : (l.rtake n).length = min l.length n := by
    rw [List.rtake, List.length_drop]
    omega
  rw [hlength, List.rtake, List.rtake, List.length_append, List.length_singleton]
  split
  · next hfull =>
    have hfirst : l.length + 1 - n = l.length - n + 1 := by omega
    rw [List.drop_append_of_le_length (by omega), List.drop_drop, hfirst]
  · next hroom =>
    have hall : l.length + 1 - n = 0 := by omega
    have hall' : l.length - n = 0 := by omega
    rw [hall, hall', List.drop_zero, List.drop_zero]

theorem Filed.publish (h : b.Filed ring past) (event : Event) :
    (b.publish event).2.Filed ring (past ++ [⟨(b.publish event).1, event⟩]) := by
  have hid : (b.publish event).1 = past.length + 1 := congrArg (· + 1) h.published
  refine ⟨?_, h.capacity, ?_, ?_, ?_⟩
  · refine Eq.trans ?_ h.observers
    show List.map _ (List.map _ _) = _
    simp [Function.comp_def]
  · rw [List.length_append]
    exact hid
  · rw [List.map_append, h.numbers, List.length_append, List.length_singleton, List.range'_concat]
    simp [hid, Nat.add_comm]
  · rw [rtake_concat _ _ (Nat.le_max_left 1 ring), ← h.kept, ← h.capacity]
    rfl

theorem Filed.subscribe (h : b.Filed ring past) (since : Option Nat) :
    (b.subscribe since).2.Filed ring past := by
  refine ⟨?_, h.capacity, h.published, h.numbers, h.kept⟩
  show List.map _ (b.channels ++ _) = List.range' 1 (b.subscribed + 1)
  rw [List.map_append, h.observers, List.range'_concat]
  simp [Nat.add_comm]

/-- All other moves change channels only. -/
theorem on_other (b : Bus) (move : Move) :
    (∃ event, move = .publish event) ∨ (∃ since, move = .subscribe since) ∨
      (move.issues b = [] ∧ move.strikes b = [] ∧ move.comers = 0 ∧ b.Reworks (move.on b)) := by
  have hcases := on_cases b move
  cases move with
  | publish event => exact .inl ⟨event, rfl⟩
  | subscribe since => exact .inr (.inl ⟨since, rfl⟩)
  | _ =>
    obtain ⟨_, h⟩ | ⟨_, h⟩ | ⟨-, hreworks⟩ := hcases
    · cases h
    · cases h
    · exact .inr (.inr ⟨rfl, rfl, rfl, hreworks⟩)

/-- One move more. -/
theorem Filed.on (h : b.Filed ring past) (move : Move) :
    (move.on b).Filed ring (past ++ move.issues b) := by
  obtain ⟨event, rfl⟩ | ⟨since, rfl⟩ | ⟨hissues, -, -, hreworks⟩ := on_other b move
  · exact h.publish event
  · have hissues : (Move.subscribe since).issues b = [] := rfl
    rw [hissues, List.append_nil]
    exact h.subscribe since
  · rw [hissues, List.append_nil]
    exact h.reworks hreworks

/-- **After any number of moves** the ring holds the end of all that was published. -/
theorem Filed.after (h : b.Filed ring past) (moves : List Move) :
    (b.after moves).Filed ring (past ++ b.issued moves) := by
  induction moves generalizing b past with
  | nil => exact (List.append_nil past).symm ▸ h
  | cons move rest ih =>
    have hrest := ih (h.on move)
    rwa [List.append_assoc] at hrest

theorem map_event_issued (b : Bus) (moves : List Move) :
    (b.issued moves).map (·.event) = told moves := by
  induction moves generalizing b with
  | nil => rfl
  | cons move rest ih =>
    rw [issued, List.map_append, ih]
    cases move <;> rfl

/-- **What is told by some moves** is what a bus shows that is large enough to keep it all: moves
that do the same to every bus tell the same. -/
theorem told_eq_of_after {moves moves' : List Move}
    (h : ∀ bus : Bus, bus.after moves = bus.after moves') : told moves = told moves' := by
  set n := (told moves).length + (told moves').length with hn
  have hring (moves : List Move) (hfits : (told moves).length ≤ n) :
      (((withCapacity n 1).after moves).ring).map (·.event) = told moves := by
    have hlength := congrArg List.length (map_event_issued (withCapacity n 1) moves)
    rw [List.length_map] at hlength
    have hroom := Nat.le_max_right 1 n
    have hall : ((withCapacity n 1).issued moves).length - max 1 n = 0 := by omega
    rw [((filed_withCapacity n 1).after moves).kept, List.nil_append, List.rtake, hall,
      List.drop_zero, map_event_issued]
  rw [← hring moves (by omega), ← hring moves' (by omega), h]

/-- The numbers of the events that are kept. -/
theorem Filed.ids_kept (h : b.Filed ring past) :
    b.ring.map (·.id) =
      List.range' (past.length - max 1 ring + 1) (min past.length (max 1 ring)) := by
  have hlength : past.length - (past.length - max 1 ring) = min past.length (max 1 ring) := by omega
  rw [h.kept, List.rtake, List.map_drop, h.numbers, List.drop_range', hlength]
  simp [Nat.add_comm]

theorem Filed.lastId? (h : b.Filed ring past) :
    b.lastId? = if past.length = 0 then none else some past.length := by
  have hroom := Nat.le_max_left 1 ring
  rw [Bus.lastId?, ← List.getLast?_map, h.ids_kept, List.getLast?_range']
  split
  · next hnone => rw [if_pos (by omega)]
  · next hsome =>
    rw [if_neg (by omega)]
    congr 1
    omega

/-! ## The register -/

/-- Every observer that came has a channel of its own. -/
theorem Filed.channel? (h : b.Filed ring past) {c : Channel} (hc : c ∈ b.channels) :
    b.channel? c.id = some c := by
  have hnodup : (b.channels.map (·.id)).Nodup := h.observers ▸ List.nodup_range'
  have hsome : (b.channel? c.id).isSome := List.find?_isSome.2 ⟨c, hc, by simp⟩
  obtain ⟨c', hc'⟩ := Option.isSome_iff_exists.1 hsome
  have hmem := List.mem_of_find?_eq_some hc'
  rw [hc', List.inj_on_of_nodup_map hnodup hmem hc (id_of_channel? hc')]

theorem Filed.exists_channel? (h : b.Filed ring past) {id : Nat}
    (hid : id ∈ List.range' 1 b.subscribed) : ∃ c, b.channel? id = some c := by
  rw [← h.observers] at hid
  obtain ⟨c, hc, rfl⟩ := List.mem_map.1 hid
  exact ⟨c, h.channel? hc⟩

/-- The register is kept in the order in which the observers came. -/
theorem Filed.register_eq (h : b.Filed ring past) :
    b.register = (List.range' 1 b.subscribed).filter b.holds := by
  rw [← h.observers, List.filter_map, register]
  congr 1
  refine List.filter_congr fun c hc => ?_
  rw [Function.comp_apply, holds_eq (h.channel? hc)]

theorem registered_eq (b : Bus) : b.registered = b.register.length := by
  rw [registered, register, List.length_map, List.countP_eq_length_filter]

theorem Filed.mem_register (h : b.Filed ring past) {id : Nat} :
    id ∈ b.register ↔ id ∈ List.range' 1 b.subscribed ∧ b.holds id = true := by
  rw [h.register_eq, List.mem_filter]

theorem Filed.nodup_register (h : b.Filed ring past) : b.register.Nodup :=
  h.register_eq ▸ List.Nodup.filter _ List.nodup_range'

/-- Whom the bus holds is on the register. -/
theorem Filed.holds_iff (h : b.Filed ring past) {id : Nat} :
    b.holds id = true ↔ id ∈ b.register := by
  refine ⟨fun hon => ?_, fun hid => (h.mem_register.1 hid).2⟩
  obtain ⟨c, hc⟩ : ∃ c, b.channel? id = some c := by
    cases hc : b.channel? id with
    | none =>
      rw [holds, hc] at hon
      cases hon
    | some c => exact ⟨c, rfl⟩
  have hcame : id ∈ b.channels.map (·.id) :=
    id_of_channel? hc ▸ List.mem_map_of_mem (List.mem_of_find?_eq_some hc)
  exact h.mem_register.2 ⟨h.observers ▸ hcame, hon⟩

/-- Of those who are on the register, the ones whom the bus does not hold after a move. -/
def Move.loses (b : Bus) (move : Move) : List Nat :=
  b.register.filter fun id => !(move.on b).holds id

/-- An observer is lost when an event is published, or when it is taken off itself. -/
theorem Filed.of_mem_loses (h : b.Filed ring past) {move : Move} (hopen : move ≠ .close) {id : Nat}
    (hid : id ∈ move.loses b) : (∃ event, move = .publish event) ∨ move = .unsubscribe id := by
  obtain ⟨hid, hoff⟩ := List.mem_filter.1 hid
  obtain ⟨hcame, hon⟩ := h.mem_register.1 hid
  obtain ⟨c, hc⟩ := h.exists_channel? hcame
  rw [holds_eq hc] at hon
  rw [holds_eq (channel?_on hc move), Bool.not_eq_true'] at hoff
  obtain ⟨e, hdeed⟩ | hdeed := Channel.struck_off hon hoff
  · exact .inl (publish_of_deed hdeed)
  · exact .inr ((deed_eq_strike.1 hdeed).resolve_right hopen)

/-- Whoever is taken off is lost, if it was on the register. -/
theorem Filed.loses_unsubscribe (h : b.Filed ring past) (reader : Nat) :
    (Move.unsubscribe reader).loses b = if b.holds reader then [reader] else [] := by
  have hloses : (Move.unsubscribe reader).loses b = b.register.filter (· == reader) := by
    refine List.filter_congr fun id hid => ?_
    by_cases hreader : id = reader
    · subst hreader
      obtain ⟨c, hc⟩ := h.exists_channel? (h.mem_register.1 hid).1
      rw [holds_eq (channel?_on hc _), Move.deed, if_pos rfl, beq_self_eq_true]
      rfl
    · rw [beq_false_of_ne hreader, ← Bool.not_eq_true]
      intro hoff
      obtain ⟨_, heq⟩ | heq := h.of_mem_loses (by simp) (List.mem_filter.2 ⟨hid, hoff⟩)
      · cases heq
      · cases heq
        exact hreader rfl
  rw [hloses, List.filter_beq, h.nodup_register.count]
  simp only [h.holds_iff]
  split <;> rfl

/-- **Whoever is lost by a move is taken off, or it is struck off.** -/
theorem Filed.loses_eq (h : b.Filed ring past) {move : Move} (hopen : move ≠ .close) :
    move.loses b = move.signsOff b ++ move.strikes b := by
  have hnobody (hpublish : ¬∃ event, move = .publish event)
      (htakes : ∀ id, move ≠ .unsubscribe id) : move.loses b = [] :=
    List.eq_nil_iff_forall_not_mem.2 fun id hid =>
      (h.of_mem_loses hopen hid).elim hpublish (htakes id)
  cases move with
  | publish event => rfl
  | unsubscribe reader => exact (h.loses_unsubscribe reader).trans (List.append_nil _).symm
  | _ => exact hnobody (by rintro ⟨_, heq⟩; cases heq) (by rintro _ heq; cases heq)

/-- Whoever stays was there before, if nobody comes. -/
theorem Filed.register_stays (h : b.Filed ring past) {move : Move}
    (hcame : (move.on b).subscribed = b.subscribed) :
    (move.on b).register = b.register.filter (move.on b).holds := by
  rw [(h.on move).register_eq, h.register_eq, hcame, List.filter_filter]
  refine List.filter_congr fun id hid => ?_
  obtain ⟨c, hc⟩ := h.exists_channel? hid
  rw [holds_eq hc, holds_eq (channel?_on hc move), Bool.eq_iff_iff, Bool.and_eq_true]
  exact ⟨fun hon => ⟨hon, Channel.registered_of_does hon⟩, And.left⟩

/-- **What one move does to the register.**  Whoever is on it stays, or is lost; and who comes is
put on it. -/
theorem Filed.register_on (h : b.Filed ring past) (move : Move) :
    ((move.on b).register ++ move.loses b).Perm
        (b.register ++ List.range' (b.subscribed + 1) move.comers) ∧
      (move.on b).subscribed = b.subscribed + move.comers ∧
      (move.on b).evicted = b.evicted + (move.strikes b).length := by
  have hstays (hcame : (move.on b).subscribed = b.subscribed) :
      ((move.on b).register ++ move.loses b).Perm b.register := by
    rw [h.register_stays hcame]
    exact List.filter_append_perm _ _
  obtain ⟨event, rfl⟩ | ⟨since, rfl⟩ | ⟨hissues, hstrikes, hcomers, hreworks⟩ := on_other b move
  · refine ⟨(hstays rfl).trans (by simp [Move.comers]), rfl, ?_⟩
    have hlength := (hstays rfl).length_eq
    rw [List.length_append, ← registered_eq, ← registered_eq] at hlength
    show b.evicted + (b.registered - ((Move.publish event).on b).registered) = _
    rw [← hlength, Nat.add_sub_cancel_left]
    rfl
  · have hloses : (Move.subscribe since).loses b = [] := h.loses_eq (by simp)
    rw [hloses, List.append_nil]
    refine ⟨List.Perm.of_eq ?_, rfl, rfl⟩
    show List.map _ (List.filter _ (b.channels ++ _)) = _
    rw [List.filter_append, List.map_append]
    rfl
  · obtain ⟨f, -, heq⟩ := hreworks
    have hcame : (move.on b).subscribed = b.subscribed := by rw [heq]
    refine ⟨(hstays hcame).trans (by simp [hcomers]), by simp [hcame, hcomers], ?_⟩
    rw [heq, hstrikes]
    rfl

/-- **After any number of moves** everybody who was there or has come is on the register, or was
taken off, or was struck off. -/
theorem Filed.register_after (h : b.Filed ring past) {moves : List Move} (hopen : .close ∉ moves) :
    ((b.after moves).register ++ (b.signedOff moves ++ b.struck moves)).Perm
        (b.register ++ List.range' (b.subscribed + 1) (comers moves)) ∧
      (b.after moves).evicted = b.evicted + (b.struck moves).length := by
  induction moves generalizing b past with
  | nil => exact ⟨List.Perm.refl _, rfl⟩
  | cons move rest ih =>
    obtain ⟨hmove, hrest⟩ := not_or.1 (List.mem_cons.not.1 hopen)
    obtain ⟨hregister, hsubscribed, hevicted⟩ := h.register_on move
    obtain ⟨hregister', hevicted'⟩ := ih (h.on move) hrest
    rw [h.loses_eq (Ne.symm hmove)] at hregister
    have hcomers : List.range' (b.subscribed + 1) (comers (move :: rest)) =
        List.range' (b.subscribed + 1) move.comers ++
          List.range' ((move.on b).subscribed + 1) (comers rest) := by
      rw [hsubscribed, comers, ← List.range'_append_1, Nat.add_right_comm]
    constructor
    · -- everybody is counted once on either side, before the move and after it
      refine List.perm_iff_count.2 fun id => ?_
      have hcount := List.perm_iff_count.1 hregister id
      have hcount' := List.perm_iff_count.1 hregister' id
      rw [hcomers, after_cons, signedOff, struck]
      simp only [List.count_append] at hcount hcount' ⊢
      omega
    · rw [after_cons, hevicted', hevicted, struck, List.length_append, Nat.add_assoc]

/-- **The books of a bus balance**, for every capacity and whatever is done with it.  Events get the
numbers from 1 on, in the order in which they are published; the ring holds the last of them, as
many as it has room for; and everybody who came is on the register, or was taken off while on it, or
was struck off, and counted once. -/
theorem books_balance (ring queue : Nat) {moves : List Move} (hopen : .close ∉ moves) :
    let b₀ := withCapacity ring queue
    let b := b₀.after moves
    let issued := b₀.issued moves
    let kept := min issued.length (max 1 ring)
    (issued.map (·.event) = told moves ∧ issued.map (·.id) = List.range' 1 issued.length) ∧
      (b.ring = issued.rtake kept ∧
        b.ring.map (·.id) = List.range' (issued.length + 1 - kept) kept ∧
        b.lastId? = if issued.length = 0 then none else some issued.length) ∧
      (b.registered + (b₀.signedOff moves).length + b.evicted = comers moves ∧
        b.evicted = (b₀.struck moves).length ∧
        (b.register ++ (b₀.signedOff moves ++ b₀.struck moves)).Perm
          (List.range' 1 (comers moves))) := by
  intro b₀ b issued kept
  have hfiled : b.Filed ring issued := (filed_withCapacity ring queue).after moves
  obtain ⟨hregister, hevicted⟩ := (filed_withCapacity ring queue).register_after hopen
  change b.evicted = 0 + _ at hevicted
  change List.Perm _ (List.range' 1 (comers moves)) at hregister
  rw [Nat.zero_add] at hevicted
  refine ⟨⟨map_event_issued b₀ moves, hfiled.numbers⟩, ⟨?_, ?_, hfiled.lastId?⟩, ?_, hevicted,
    hregister⟩
  · have hsame : issued.length - kept = issued.length - max 1 ring := by omega
    rw [hfiled.kept, List.rtake, List.rtake, hsame]
  · have hfirst : issued.length + 1 - kept = issued.length - max 1 ring + 1 := by omega
    rw [hfiled.ids_kept, hfirst]
  · have hlength := hregister.length_eq
    rw [List.length_append, List.length_append, List.length_range', ← hevicted,
      ← registered_eq] at hlength
    exact (Nat.add_assoc _ _ _).trans hlength

/-- Two observers that do not read come to a bus with room for one event in each queue.  The second
event strikes both off; taking one of them off then changes nothing, while a third one is taken off.
-/
theorem books_balance_crowded :
    let moves : List Move := [.subscribe none, .subscribe (some 0), .publish .driftDetected,
      .publish (.runningChanged true), .unsubscribe 1, .subscribe none, .unsubscribe 3]
    let b := (withCapacity 1 1).after moves
    .close ∉ moves ∧ (withCapacity 1 1).struck moves = [1, 2] ∧
      (withCapacity 1 1).signedOff moves = [3] ∧ b.registered + 1 + b.evicted = 3 ∧ b.evicted = 2 ∧
      b.ring.map (·.id) = [2] ∧ b.lastId? = some 2 := by
  intro moves b
  have hopen : .close ∉ moves := by simp [moves]
  obtain ⟨-, ⟨-, hring, hlast⟩, hbalance, hevicted, -⟩ := books_balance 1 1 hopen
  exact ⟨hopen, rfl, rfl, hbalance, hevicted, hring, hlast⟩

end Bus
end ProxyPlane
