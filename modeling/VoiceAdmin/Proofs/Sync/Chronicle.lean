import VoiceAdmin.Proofs.Sync.Acceptance

namespace VoiceAdmin.Sync

open Delivery

variable {d : Domain}

/-- A session whose values are numbered: every value that the remote side had gets a number, and so do the
payloads made from it and the answers that carry it. -/
structure Chronicle (d : Domain) where
  /-- The note on a pull is the answer that it will bring, after the number of the value current when
  the remote side took it up. -/
  loop : Loop d (Nat × Answer d) := {}
  /-- The value at the start, and the one after each operation of the remote side. -/
  history : List d.Value
  /-- For each payload in the queue, the number of its value. -/
  queued : List Nat := []
  /-- The values that the cache accepted, each with its number. -/
  accepted : List (Nat × d.Value) := []

namespace Chronicle

/-- The remote side has a new value, and sends some payloads made from it. -/
def operate (c : Chronicle d) (value : d.Value) (sent : Nat) : Chronicle d :=
  { c with
    history := c.history ++ [value]
    queued := c.queued ++ List.replicate sent c.history.length }

/-- The remote side takes up a pull and settles what to answer. -/
def start (c : Chronicle d) (pull : Nat) (answer : Answer d) : Chronicle d :=
  match c.loop.fetches[pull]? with
  | some { note := none, .. } =>
    { c with loop := c.loop.annotate pull (c.history.length - 1, answer) }
  | _ => c

/-- A pull that was taken up comes back. -/
def complete (c : Chronicle d) (pull : Nat) : Chronicle d :=
  match c.loop.fetches[pull]? with
  | some { note := some (_, answer), .. } => { c with loop := c.loop.finish pull answer }
  | _ => c

/-- The number of the value that an input brings. -/
def number (c : Chronicle d) (t : Turn d (Nat × Answer d)) : Option Nat :=
  match t.input with
  | .push _ => c.queued.head?
  | _ => (t.fetch.bind Fetch.note).map Prod.fst

def record (c : Chronicle d) (t : Turn d (Nat × Answer d)) (rest : Inbox d) : Chronicle d :=
  { c with
    loop := c.loop.record t rest
    queued := if t.input.isPush then c.queued.tail else c.queued
    accepted := c.accepted ++ ((c.number t).bind fun k => t.taken.map fun v => (k, v)).toList }

/-- The session takes a turn, if an input waits. -/
def turn (c : Chronicle d) (s : Subscription) : Chronicle d × Subscription :=
  match c.loop.next? s with
  | some (t, rest) => (c.record t rest, (c.loop.turn s).2)
  | none => (c, s)

/-- What may happen to a session and its subscription, the session not being told to stop. -/
inductive Step : Chronicle d → Subscription → Chronicle d → Subscription → Prop where
  | pushed {c : Chronicle d} {s : Subscription} {value : d.Value} {payload : Json}
      (reads : decodePayload d.topic d.read payload = .ok value) (isOpen : s.senderOpen = true) :
    Step c s (c.operate value 1) { s with pending := s.pending ++ [payload] }
  | silent {c : Chronicle d} {s : Subscription} {value : d.Value}
      (same : s.senderOpen = true → c.history.getLast? = some value) :
    Step c s (c.operate value 0) s
  | closed {c : Chronicle d} {s : Subscription} : Step c s c s.close
  | waits {c : Chronicle d} {s : Subscription} {controls : List Control} {tickDue : Bool}
      (goes : .unmount ∉ controls) :
    Step c s { c with loop := { c.loop with controls, tickDue } } s
  | started {c : Chronicle d} {s : Subscription} {pull : Nat} {answer : Answer d}
      (current : ∀ value, answer = .value value → c.history.getLast? = some value) :
    Step c s (c.start pull answer) s
  | completed {c : Chronicle d} {s : Subscription} {pull : Nat} : Step c s (c.complete pull) s
  | turned {c : Chronicle d} {s : Subscription} : Step c s (c.turn s).1 (c.turn s).2
  | idle {c : Chronicle d} {s : Subscription} : Step c s c s

/-- A session that goes on. -/
structure Runs (c : Chronicle d) (s : Subscription) : Prop where
  sound : c.loop.Sound s
  running : c.loop.running = true
  goes : .unmount ∉ c.loop.controls

theorem start_history (c : Chronicle d) (pull : Nat) (answer : Answer d) :
    (c.start pull answer).history = c.history := by
  unfold start
  split <;> rfl

theorem complete_history (c : Chronicle d) (pull : Nat) :
    (c.complete pull).history = c.history := by
  unfold complete
  split <;> rfl

variable {c c' : Chronicle d} {s s' : Subscription} {t : Turn d (Nat × Answer d)} {rest : Inbox d}

namespace Runs

/-- Without a message to stop, a turn leaves the subscription with the session. -/
theorem not_stopped (h : c.Runs s) (n : c.loop.Next s t rest) :
    t.effects.contains .stop = false := by
  have hstop : .stop ∉ t.effects := by
    rw [n.effects, Session.handle_stop]
    intro hi
    have ht := n.takes
    rw [hi] at ht
    cases ht with
    | control first =>
      have hm : .unmount ∈ c.loop.controls := by
        rw [show c.loop.controls = _ from first]
        exact List.mem_cons_self
      exact h.goes hm
  simpa using hstop

theorem record (h : c.Runs s) (n : c.loop.Next s t rest) :
    (c.record t rest).Runs rest.subscription := by
  have hs := h.sound.record n
  rw [h.not_stopped n] at hs
  refine ⟨hs, ?_, ?_⟩
  · simp only [Chronicle.record, Loop.record, h.not_stopped n, Bool.not_false]
  · intro hm
    have ht := n.takes
    generalize t.input = input at ht
    have hgoes : .unmount ∉ (c.loop.inbox s).controls := h.goes
    cases ht with
    | control first => exact hgoes (by rw [first]; exact List.mem_cons_of_mem _ hm)
    | _ => exact hgoes hm

/-- A turn does nothing, or it handles an input. -/
theorem turn_cases (h : c.Runs s) :
    c.turn s = (c, s) ∨
      ∃ t rest, c.loop.Next s t rest ∧ c.turn s = (c.record t rest, rest.subscription) := by
  cases hn : c.loop.next? s with
  | none => exact .inl (by simp [turn, hn])
  | some next =>
    obtain ⟨t, rest⟩ := next
    have n := Loop.next?_next hn
    refine .inr ⟨t, rest, n, ?_⟩
    simp only [turn, hn, Loop.turn, h.not_stopped n]
    rfl

/-- A turn takes payloads out of the subscription at most, and the remote side has no part in it. -/
theorem turn_frame (h : c.Runs s) :
    (c.turn s).1.history = c.history ∧ (c.turn s).2.topic = s.topic ∧
      (c.turn s).2.senderOpen = s.senderOpen := by
  rcases h.turn_cases with he | ⟨t, rest, n, he⟩
  · rw [he]
    exact ⟨rfl, rfl, rfl⟩
  · rw [he]
    exact ⟨rfl, n.frame.1, n.frame.2.2⟩

theorem step (h : c.Runs s) (hstep : Step c s c' s') : c'.Runs s' := by
  cases hstep with
  | pushed _ isOpen =>
    exact ⟨h.sound.subscription rfl fun hc => absurd isOpen (by simp [hc]), h.running, h.goes⟩
  | silent _ => exact ⟨h.sound, h.running, h.goes⟩
  | closed => exact ⟨h.sound.subscription rfl fun _ => ⟨rfl, rfl⟩, h.running, h.goes⟩
  | waits goes => exact ⟨h.sound.inbox _ _, h.running, goes⟩
  | started _ =>
    unfold start
    split
    · exact ⟨h.sound.annotate _ _, h.running, h.goes⟩
    · exact h
  | completed =>
    unfold complete
    split
    · obtain ⟨-, hrunning, hcontrols, -⟩ := c.loop.finish_frame _ _
      exact ⟨h.sound.finish _ _, hrunning.trans h.running, hcontrols ▸ h.goes⟩
    · exact h
  | turned =>
    rcases h.turn_cases with he | ⟨t, rest, n, he⟩
    · rw [he]
      exact h
    · rw [he]
      exact h.record n
  | idle => exact h

end Runs

end Chronicle

end VoiceAdmin.Sync
