import Mathlib.Data.List.Infix
import Mathlib.Data.List.Induction
import VoiceAdmin.Proofs.Delivery.Lookup
import VoiceAdmin.Proofs.Recording

namespace VoiceAdmin.Delivery

namespace Subscription

/-- What is done with a subscription, by its sender or by its owner. -/
inductive Op where
  | send (payload : Json)
  | close
  | receive
  | unsubscribe
  | drop

namespace Op

def closes : Op → Bool
  | .close => true
  | _ => false

/-- An owner that unsubscribes lets go of its subscription just as one that drops it. -/
def givesBack : Op → Bool
  | .unsubscribe => true
  | .drop => true
  | _ => false

end Op

inductive Reply where
  | sent (accepted : Bool)
  | received (outcome : Received)
  | done

def act (s : Subscription) : Op → Reply × Subscription
  | .send payload =>
    let (accepted, s) := s.send payload
    (.sent accepted, s)
  | .close => (.done, s.close)
  | .receive =>
    let (outcome, s) := s.receive
    (.received outcome, s)
  | .unsubscribe => (.done, s.release)
  | .drop => (.done, s.release)

abbrev Log := List (Op × Reply)

namespace Log

def acceptedBy : Op × Reply → Option Json
  | (.send payload, .sent true) => some payload
  | _ => none

def takenBy : Op × Reply → Option Json
  | (.receive, .received (.payload payload)) => some payload
  | _ => none

/-- The payloads that were accepted, the first one first. -/
def accepted (log : Log) : List Json := log.filterMap acceptedBy

/-- The payloads that the owner got, the first one first. -/
def taken (log : Log) : List Json := log.filterMap takenBy

theorem accepted_append (log : Log) (e : Op × Reply) :
    accepted (log ++ [e]) = accepted log ++ (acceptedBy e).toList :=
  filterMap_concat acceptedBy log e

theorem taken_append (log : Log) (e : Op × Reply) :
    taken (log ++ [e]) = taken log ++ (takenBy e).toList :=
  filterMap_concat takenBy log e

end Log

/-- A subscription to a topic after some operations, with what was done. -/
def run (topic : Topic) (ops : List Op) : Recorded Subscription Op Reply :=
  Recorded.run act { topic } ops

variable {s : Subscription}

/-- The sender has its end until it closes it, and the owner keeps the subscription until it gives it
back, which is when the hook runs. -/
theorem act_eq (s : Subscription) (op : Op) :
    ∃ pending, (s.act op).2 =
      { s with
        pending
        senderOpen := s.senderOpen && !op.closes
        held := s.held && !op.givesBack
        releases := s.releases + (s.held && op.givesBack).toNat } := by
  obtain ⟨topic, pending, isOpen, held, releases⟩ := s
  cases op with
  | send payload => cases isOpen <;> cases held <;> exact ⟨_, rfl⟩
  | close => cases isOpen <;> cases held <;> exact ⟨_, rfl⟩
  | receive => cases isOpen <;> cases held <;> cases pending <;> exact ⟨_, rfl⟩
  | unsubscribe => cases isOpen <;> cases held <;> exact ⟨_, rfl⟩
  | drop => cases isOpen <;> cases held <;> exact ⟨_, rfl⟩

/-- Where the two ends of a subscription are after its use. -/
structure Ends (ops : List Op) (s : Subscription) : Prop where
  senderOpen : s.senderOpen = !ops.any Op.closes
  held : s.held = !ops.any Op.givesBack
  releases : s.releases = (ops.any Op.givesBack).toNat

theorem Ends.act {ops : List Op} (h : Ends ops s) (op : Op) : Ends (ops ++ [op]) (s.act op).2 := by
  obtain ⟨pending, heq⟩ := s.act_eq op
  rw [heq]
  constructor
  · simp [h.senderOpen]
  · simp [h.held]
  · rw [h.releases, h.held, List.any_append]
    cases ops.any Op.givesBack <;> simp

theorem run_ends (topic : Topic) (ops : List Op) : Ends ops (run topic ops).state :=
  Recorded.run_induction (motive := fun ops r => Ends ops r.state) ⟨rfl, rfl, rfl⟩
    (fun _ _ h op => h.act op) ops

open Log

theorem send_accepted (s : Subscription) (payload : Json) :
    (s.send payload).1 = (s.senderOpen && s.held) := by
  unfold send
  cases s.senderOpen && s.held <;> rfl

variable {r : Recorded Subscription Op Reply}

/-- What the owner took and what still waits for it is what was accepted. With the subscription it gives
up what waits, but not what it took. -/
structure Lossless (r : Recorded Subscription Op Reply) : Prop where
  queue : r.state.held = true → taken r.log ++ r.state.pending = accepted r.log
  inOrder : taken r.log <+: accepted r.log

/-- An operation by which nothing is accepted or taken keeps the account, as long as the queue is kept
with the owner. -/
theorem Lossless.pass (h : Lossless r) {s : Subscription} {e : Op × Reply}
    (haccepted : acceptedBy e = none) (htaken : takenBy e = none)
    (hqueue : s.held = true → r.state.held = true ∧ s.pending = r.state.pending) :
    Lossless ⟨s, r.log ++ [e]⟩ := by
  constructor
  · intro hheld
    obtain ⟨hbefore, hpending⟩ := hqueue hheld
    simpa [accepted_append, taken_append, haccepted, htaken, hpending] using h.queue hbefore
  · simpa [accepted_append, taken_append, haccepted, htaken] using h.inOrder

theorem Lossless.send (h : Lossless r) (payload : Json) : Lossless (r.record act (.send payload)) := by
  unfold Recorded.record
  cases hboth : r.state.senderOpen && r.state.held with
  | false =>
    have hsend : r.state.send payload = (false, r.state) := by
      rw [Subscription.send, if_neg (Bool.eq_false_iff.mp hboth)]
    simp only [act, hsend]
    exact h.pass rfl rfl fun hheld => ⟨hheld, rfl⟩
  | true =>
    have hsend : r.state.send payload =
        (true, { r.state with pending := r.state.pending ++ [payload] }) := by
      rw [Subscription.send, if_pos hboth]
    simp only [act, hsend]
    constructor
    · intro hheld
      rw [accepted_append, taken_append, ← h.queue hheld]
      simp [acceptedBy, takenBy]
    · simpa [accepted_append, taken_append, acceptedBy, takenBy] using
        h.inOrder.trans (List.prefix_append _ [payload])

theorem Lossless.receive (h : Lossless r) : Lossless (r.record act .receive) := by
  unfold Recorded.record
  cases hheld : r.state.held with
  | false =>
    simp only [act, receive_gone hheld]
    exact h.pass rfl rfl fun hh => ⟨hh, rfl⟩
  | true =>
    cases hp : r.state.pending with
    | nil =>
      simp only [act, receive_nil hheld hp]
      refine h.pass rfl ?_ fun hh => ⟨hh, rfl⟩
      split <;> rfl
    | cons payload rest =>
      have hqueue : (taken r.log ++ [payload]) ++ rest = accepted r.log := by
        rw [← h.queue hheld, hp, List.append_assoc, List.singleton_append]
      simp only [act, receive_cons hheld hp]
      constructor
      · intro _
        simpa [accepted_append, taken_append, acceptedBy, takenBy] using hqueue
      · simpa [accepted_append, taken_append, acceptedBy, takenBy] using hqueue ▸ List.prefix_append ..

theorem Lossless.release (h : Lossless r) (op : Op) :
    Lossless ⟨r.state.release, r.log ++ [(op, .done)]⟩ := by
  refine h.pass (by cases op <;> rfl) (by cases op <;> rfl) fun hheld => ?_
  unfold Subscription.release at hheld
  split at hheld
  · cases hheld
  · exact absurd hheld ‹_›

theorem Lossless.record (h : Lossless r) (op : Op) : Lossless (r.record act op) := by
  cases op with
  | send payload => exact h.send payload
  | close => exact h.pass rfl rfl fun hheld => ⟨hheld, rfl⟩
  | receive => exact h.receive
  | unsubscribe => exact h.release .unsubscribe
  | drop => exact h.release .drop

theorem run_lossless (topic : Topic) (ops : List Op) : Lossless (run topic ops) :=
  Recorded.run_induction (motive := fun _ => Lossless) ⟨fun _ => rfl, List.prefix_refl _⟩
    (fun _ _ h => h.record) ops

/-- What waits is what was accepted after the payloads that were taken. -/
theorem Lossless.pending_eq (h : Lossless r) (hheld : r.state.held = true) :
    r.state.pending = (accepted r.log).drop (taken r.log).length := by
  rw [← h.queue hheld, List.drop_left]

theorem Lossless.receive_closed (h : Lossless r) (hclosed : r.state.receive.1 = .closed) :
    r.state.senderOpen = false ∧ taken r.log = accepted r.log := by
  cases hheld : r.state.held with
  | false =>
    rw [receive_gone hheld] at hclosed
    cases hclosed
  | true =>
    cases hp : r.state.pending with
    | nil =>
      rw [receive_nil hheld hp] at hclosed
      refine ⟨?_, by rw [← h.queue hheld, hp, List.append_nil]⟩
      cases ho : r.state.senderOpen with
      | false => rfl
      | true => simp [ho] at hclosed
    | cons payload rest =>
      rw [receive_cons hheld hp] at hclosed
      cases hclosed

/-- The owner that asks once more has one payload more, if there is one. -/
theorem Lossless.taken_receive (h : Lossless r) (hheld : r.state.held = true) :
    taken (r.record act .receive).log = (accepted r.log).take ((taken r.log).length + 1) := by
  have hqueue := h.queue hheld
  cases hp : r.state.pending with
  | nil =>
    have hnone : takenBy (.receive, (r.state.act .receive).1) = none := by
      simp only [act, receive_nil hheld hp]
      split <;> rfl
    rw [hp, List.append_nil] at hqueue
    rw [Recorded.record, taken_append, hnone, Option.toList_none, List.append_nil, ← hqueue,
      List.take_of_length_le (Nat.le_succ _)]
  | cons payload rest =>
    have hone : takenBy (.receive, (r.state.act .receive).1) = some payload := by
      simp only [act, receive_cons hheld hp]
      rfl
    rw [hp] at hqueue
    rw [Recorded.record, taken_append, hone, Option.toList_some, ← hqueue, List.take_length_add_append]
    rfl

theorem accepted_receive (r : Recorded Subscription Op Reply) :
    accepted (r.record act .receive).log = accepted r.log := by
  simp [Recorded.record, accepted_append, acceptedBy]

/-- An owner that asks often enough gets all that was accepted. -/
theorem run_drains {topic : Topic} {ops : List Op} (hkept : ops.any Op.givesBack = false) (n : Nat) :
    accepted (run topic (ops ++ List.replicate n .receive)).log = accepted (run topic ops).log ∧
      taken (run topic (ops ++ List.replicate n .receive)).log =
        (accepted (run topic ops).log).take ((taken (run topic ops).log).length + n) := by
  induction n with
  | zero =>
    rw [List.replicate_zero, List.append_nil]
    exact ⟨rfl, List.prefix_iff_eq_take.mp (run_lossless topic ops).inOrder⟩
  | succ n ih =>
    obtain ⟨haccepted, htaken⟩ := ih
    have hheld : (run topic (ops ++ List.replicate n .receive)).state.held = true := by
      rw [(run_ends topic _).held, List.any_append, hkept]
      simp [Op.givesBack]
    have honce : run topic (ops ++ List.replicate (n + 1) .receive) =
        (run topic (ops ++ List.replicate n .receive)).record act .receive := by
      rw [List.replicate_succ', ← List.append_assoc]
      exact Recorded.run_append ..
    rw [honce, accepted_receive, (run_lossless topic _).taken_receive hheld, haccepted, htaken]
    refine ⟨rfl, ?_⟩
    rw [List.length_take]
    rcases Nat.le_total ((taken (run topic ops).log).length + n) (accepted (run topic ops).log).length
      with hle | hge
    · rw [min_eq_left hle, Nat.add_assoc]
    · rw [min_eq_right hge, List.take_of_length_le (Nat.le_succ _), ← Nat.add_assoc,
        List.take_of_length_le (Nat.le_succ_of_le hge)]

/-- The hook ran once if the owner gave its subscription back, and otherwise not. The owner got the first
of the payloads that were accepted, and is told that the stream is closed only when the sender closed it
and all of them are taken. A payload is accepted as long as neither end is given up. Until it gives the
subscription back, the owner gets the payloads it is still owed, each of them. -/
theorem run_releases_once (topic : Topic) (ops : List Op) :
    let r := run topic ops
    let s := r.state
    (s.releases = if ops.any Op.givesBack then 1 else 0) ∧
    taken r.log <+: accepted r.log ∧
    (∀ payload, (s.send payload).1 = true ↔
      ops.any Op.closes = false ∧ ops.any Op.givesBack = false) ∧
    (s.receive.1 = .closed → ops.any Op.closes = true ∧ taken r.log = accepted r.log) ∧
    (ops.any Op.givesBack = false →
      s.receive.1 = (match (accepted r.log).drop (taken r.log).length with
        | payload :: _ => .payload payload
        | [] => if ops.any Op.closes then .closed else .waiting) ∧
      ∀ n, taken (run topic (ops ++ List.replicate n .receive)).log =
        (accepted r.log).take ((taken r.log).length + n)) := by
  intro r s
  have hends : Ends ops s := run_ends topic ops
  have h : Lossless r := run_lossless topic ops
  refine ⟨?_, h.inOrder, fun payload => ?_, fun hclosed => ?_,
    fun hkept => ⟨?_, fun n => (run_drains hkept n).2⟩⟩
  · rw [hends.releases]
    cases ops.any Op.givesBack <;> rfl
  · rw [send_accepted, hends.senderOpen, hends.held, Bool.and_eq_true, Bool.not_eq_true',
      Bool.not_eq_true']
  · obtain ⟨hopen, hall⟩ := h.receive_closed hclosed
    rw [hends.senderOpen] at hopen
    exact ⟨by simpa using hopen, hall⟩
  · have hheld : s.held = true := by
      rw [hends.held, hkept]
      rfl
    rw [← h.pending_eq hheld]
    cases hp : r.state.pending with
    | nil =>
      rw [receive_nil hheld hp, hends.senderOpen]
      cases ops.any Op.closes <;> rfl
    | cons payload rest => rw [receive_cons hheld hp]

end Subscription

end VoiceAdmin.Delivery
