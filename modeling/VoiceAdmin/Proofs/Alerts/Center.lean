import VoiceAdmin.Alerts.Center
import VoiceAdmin.Proofs.Alerts.Queue
import VoiceAdmin.Proofs.Delivery.Lookup

namespace VoiceAdmin.Alerts

/-- The instant of an action, if it depends on one. -/
def Action.time? : Action → Option Nat
  | .enqueue _ arrival => some arrival
  | .dismiss _ => none
  | .expire now => some now

/-- What an input does to the queue. -/
def Input.action (now : Nat) : Input → Option Action
  | .message (.enqueue notification) => some (.enqueue notification now)
  | .message (.dismiss id) => some (.dismiss id)
  | .message .shutdown => none
  | .push payload =>
    match decodePayload .notification Notification.read payload with
    | .ok notification => some (.enqueue notification now)
    | .error _ => none
  | .streamClosed => none
  | .expiry => some (.expire now)

/-- Whether an input is the end of the push stream. -/
def Input.closes : Input → Bool
  | .streamClosed => true
  | _ => false

theorem Input.action_time {input : Input} {a : Action} {now time : Nat}
    (h : input.action now = some a) (ht : a.time? = some time) : time = now := by
  unfold Input.action at h
  split at h
  · cases h
    exact (Option.some.inj ht).symm
  · cases h
    cases ht
  · cases h
  · split at h
    · cases h
      exact (Option.some.inj ht).symm
    · cases h
  · cases h
  · cases h
    exact (Option.some.inj ht).symm

namespace Center

variable {c next : Center} {now : Nat} {effects : List Effect}

/-- A change of the queue is always shown. -/
theorem update_eq {queue : Queue} {changed : Bool} (h : c.shown = c.queue.displayOrder)
    (heq : c.update changed queue = (next, effects)) (hsame : changed = false → queue = c.queue) :
    next.queue = queue ∧ next.shown = queue.displayOrder := by
  unfold update at heq
  split at heq
  · cases heq
    exact ⟨rfl, rfl⟩
  · cases heq
    exact ⟨rfl, hsame (by simpa using ‹¬changed = true›) ▸ h⟩

theorem enqueue_eq (h : c.shown = c.queue.displayOrder) {n : Notification}
    (heq : c.enqueue n now = (next, effects)) :
    next.queue = (c.queue.enqueue n now).2 ∧
      next.shown = (c.queue.enqueue n now).2.displayOrder := by
  rw [enqueue] at heq
  cases hn : c.queue.contains n.id with
  | false =>
    rw [Queue.enqueue_absent hn] at heq ⊢
    have heq : c.update true _ = (next, effects) := heq
    exact update_eq h heq nofun
  | true =>
    rw [Queue.enqueue_present hn] at heq ⊢
    have heq : c.update false c.queue = (next, effects) := heq
    exact update_eq h heq fun _ => rfl

/-- An input does what its action does to the queue, and what is shown is what the queue shows. -/
theorem handle_ok (hq : c.queue.Lawful) (hs : c.shown = c.queue.displayOrder) {input : Input}
    (h : c.handle now input = .ok (next, effects)) :
    (match input.action now with
      | some a => c.queue.act a = .ok next.queue
      | none => next.queue = c.queue) ∧ next.shown = next.queue.displayOrder := by
  cases input with
  | message m =>
    cases m with
    | enqueue n =>
      obtain ⟨hqueue, hshown⟩ := enqueue_eq hs (Except.ok.inj h)
      exact ⟨congrArg Except.ok hqueue.symm, hqueue ▸ hshown⟩
    | dismiss id =>
      obtain ⟨hqueue, hshown⟩ := update_eq hs (Except.ok.inj h) Queue.dismiss_absent
      exact ⟨congrArg Except.ok hqueue.symm, hqueue ▸ hshown⟩
    | shutdown =>
      cases h
      exact ⟨rfl, hs⟩
  | push payload =>
    cases hd : decodePayload .notification Notification.read payload with
    | ok n =>
      simp only [handle, hd] at h
      obtain ⟨hqueue, hshown⟩ := enqueue_eq hs (Except.ok.inj h)
      simp only [Input.action, hd]
      exact ⟨congrArg Except.ok hqueue.symm, hqueue ▸ hshown⟩
    | error e =>
      simp only [handle, hd] at h
      cases h
      simpa only [Input.action, hd, true_and] using hs
  | streamClosed =>
    cases h
    exact ⟨rfl, hs⟩
  | expiry =>
    cases he : c.queue.expire now with
    | error e =>
      rw [handle, he] at h
      cases h
    | ok expired =>
      obtain ⟨ids, rest⟩ := expired
      obtain ⟨-, rfl, hrest⟩ := hq.expire_ok he
      rw [handle, he] at h
      have hsame : (!(c.queue.due now).isEmpty) = false → rest = c.queue := by
        intro hnone
        have hnone : c.queue.due now = [] := by simpa using hnone
        rw [hrest]
        exact Queue.keep_eq_self fun e he => decide_eq_true (Queue.due_eq_nil.mp hnone e he)
      obtain ⟨hqueue, hshown⟩ := update_eq hs (Except.ok.inj h) hsame
      refine ⟨?_, hqueue ▸ hshown⟩
      simp only [Input.action, Queue.act, he, hqueue]
      rfl

theorem update_goes {queue : Queue} {changed : Bool} (heq : c.update changed queue = (next, effects)) :
    next.listening = c.listening ∧ .stop ∉ effects := by
  unfold update at heq
  split at heq <;> cases heq <;> exact ⟨rfl, by simp⟩

/-- Only a shutdown stops the center, and it listens until the end of the push stream. -/
theorem handle_goes {input : Input} (h : c.handle now input = .ok (next, effects)) :
    next.listening = (c.listening && !input.closes) ∧
      (.stop ∈ effects → input = .message .shutdown) := by
  have hupdate : ∀ {changed queue}, c.update changed queue = (next, effects) →
      next.listening = (c.listening && !false) ∧ (.stop ∈ effects → input = .message .shutdown) := by
    intro changed queue heq
    obtain ⟨hlistening, hstop⟩ := update_goes heq
    exact ⟨by rw [hlistening, Bool.not_false, Bool.and_true], fun hm => absurd hm hstop⟩
  cases input with
  | message m =>
    cases m with
    | enqueue n => exact hupdate (Except.ok.inj h)
    | dismiss id => exact hupdate (Except.ok.inj h)
    | shutdown =>
      cases h
      exact ⟨(Bool.and_true _).symm, fun _ => rfl⟩
  | push payload =>
    simp only [handle] at h
    split at h
    · exact hupdate (Except.ok.inj h)
    · cases h
      exact ⟨(Bool.and_true _).symm, by simp⟩
  | streamClosed =>
    cases h
    exact ⟨(Bool.and_false _).symm, by simp⟩
  | expiry =>
    cases he : c.queue.expire now with
    | error e =>
      rw [handle, he] at h
      cases h
    | ok expired =>
      rw [handle, he] at h
      exact hupdate (Except.ok.inj h)

/-- Once the center has found out what it waits for, it can handle every input. -/
theorem exists_handle (hq : c.queue.Lawful) (ht : c.queue.Timed) (now : Nat) (input : Input) :
    ∃ handled, c.handle now input = .ok handled := by
  cases input with
  | message m => cases m <;> exact ⟨_, rfl⟩
  | push payload =>
    simp only [handle]
    split <;> exact ⟨_, rfl⟩
  | streamClosed => exact ⟨_, rfl⟩
  | expiry =>
    rw [handle, hq.expire_timed ht]
    exact ⟨_, rfl⟩

theorem deadline_eq {first : Option Nat} (h : c.queue.nextDeadline = .ok first) :
    c.deadline = if first = none ∧ ¬ Told c.since idleWait then .error .overflow else .ok first := by
  rw [Center.deadline, h]
  generalize idleWait = wait
  cases first with
  | some t =>
    rw [if_neg fun h => nomatch h.1]
    rfl
  | none =>
    by_cases ht : Told c.since wait
    · rw [if_neg fun h => h.2 ht, later_told ht]
      rfl
    · rw [if_pos ⟨rfl, ht⟩, later_untold ht]
      rfl

/-- What the center waits for is the next deadline of its queue. -/
theorem deadline_ok {first : Option Nat} (h : c.deadline = .ok first) :
    c.queue.Timed ∧ c.queue.nextDeadline = .ok first := by
  by_cases ht : c.queue.Timed
  · have hnext := Queue.nextDeadline_timed ht
    rw [deadline_eq hnext] at h
    split at h
    · cases h
    · exact ⟨ht, hnext.trans h⟩
  · rw [Center.deadline, Queue.nextDeadline_untimed ht] at h
    cases h

/-- It finds that out as long as the clock can tell the instants it looks at. -/
theorem exists_deadline (ht : c.queue.Timed) (hsince : Told c.since idleWait) :
    ∃ first, c.deadline = .ok first := by
  refine ⟨_, (deadline_eq (Queue.nextDeadline_timed ht)).trans (if_neg ?_)⟩
  exact fun h => h.2 hsince

theorem step_breaks {panic : Panic} (hd : c.deadline = .error panic) (now : Nat) (inbox : Inbox) :
    c.step now inbox = .error panic := by
  rw [step, hd]
  rfl

theorem step_waits {first : Option Nat} {inbox : Inbox} (hd : c.deadline = .ok first)
    (ht : inbox.take c.listening (first.any fun t => t ≤ now) = none) : c.step now inbox = .ok none := by
  rw [step, hd]
  simp only [bind, Except.bind, ht, pure, Except.pure]

theorem step_takes {first : Option Nat} {inbox rest : Inbox} {input : Input}
    (hd : c.deadline = .ok first)
    (ht : inbox.take c.listening (first.any fun t => t ≤ now) = some (input, rest))
    (hh : c.handle now input = .ok (next, effects)) :
    c.step now inbox = .ok (some ({ next with since := now }, rest, effects)) := by
  rw [step, hd]
  simp only [bind, Except.bind, ht, hh, pure, Except.pure]

end Center

namespace Inbox

variable {inbox rest : Inbox} {listening due : Bool} {input : Input}

/-- How many inputs a subscription has in store, at most. -/
def pushes (s : Delivery.Subscription) : Nat :=
  match s.receive.1 with
  | .payload _ => s.pending.length + 1
  | .closed => 1
  | .gone => 1
  | .waiting => 0

/-- How many inputs wait, at most, not counting the timer. -/
def work (inbox : Inbox) (listening : Bool) : Nat :=
  inbox.messages.length + if listening then pushes inbox.subscription else 0

theorem pushes_le (s : Delivery.Subscription) : pushes s ≤ s.pending.length + 1 := by
  unfold pushes
  split
  · exact Nat.le_refl _
  · exact Nat.le_add_left ..
  · exact Nat.le_add_left ..
  · exact Nat.zero_le _

theorem work_le (inbox : Inbox) (listening : Bool) :
    inbox.work listening ≤ inbox.messages.length + inbox.subscription.pending.length + 1 := by
  have := pushes_le inbox.subscription
  unfold work
  split <;> omega

/-- What can come first, and what is left then. -/
inductive Taken (inbox : Inbox) (listening due : Bool) : Input → Inbox → Prop where
  | message {m : Message} {later : List Message} (first : inbox.messages = m :: later) :
    Taken inbox listening due (.message m) { inbox with messages := later }
  | push {payload : Json} {subscription : Delivery.Subscription} (empty : inbox.messages = [])
      (listens : listening = true)
      (given : inbox.subscription.receive = (.payload payload, subscription)) :
    Taken inbox listening due (.push payload) { inbox with subscription }
  | closed (empty : inbox.messages = []) (listens : listening = true)
      (ends : inbox.subscription.receive.1 = .closed ∨ inbox.subscription.receive.1 = .gone) :
    Taken inbox listening due .streamClosed inbox
  | expiry (empty : inbox.messages = [])
      (waits : listening = true → inbox.subscription.receive.1 = .waiting) (late : due = true) :
    Taken inbox listening due .expiry inbox

theorem taken_of_take (h : inbox.take listening due = some (input, rest)) :
    Taken inbox listening due input rest := by
  unfold take at h
  split at h
  · rename_i first
    cases h
    exact .message first
  · rename_i empty
    cases listening with
    | false =>
      simp only [Bool.false_eq_true, if_false] at h
      split at h
      · rename_i late
        cases h
        exact .expiry empty nofun late
      · cases h
    | true =>
      simp only [if_true] at h
      split at h
      · rename_i given
        cases h
        exact .push empty rfl given
      · rename_i given
        cases h
        exact .closed empty rfl (.inl (congrArg Prod.fst given))
      · rename_i given
        cases h
        exact .closed empty rfl (.inr (congrArg Prod.fst given))
      · rename_i given
        split at h
        · rename_i late
          cases h
          exact .expiry empty (fun _ => congrArg Prod.fst given) late
        · cases h

theorem mem_of_take (h : inbox.take listening due = some (input, rest)) :
    (∀ m ∈ rest.messages, m ∈ inbox.messages) ∧ ∀ m, input = .message m → m ∈ inbox.messages := by
  cases taken_of_take h with
  | message first =>
    refine ⟨fun m hm => first ▸ .tail _ hm, ?_⟩
    rintro m ⟨⟩
    exact first ▸ .head _
  | push _ _ _ => exact ⟨fun _ hm => hm, nofun⟩
  | closed _ _ _ => exact ⟨fun _ hm => hm, nofun⟩
  | expiry _ _ _ => exact ⟨fun _ hm => hm, nofun⟩

theorem take_eq_none : inbox.take listening due = none ↔
    inbox.messages = [] ∧ (listening = true → inbox.subscription.receive.1 = .waiting) ∧
      due = false := by
  unfold take
  cases inbox.messages with
  | cons m later => simp
  | nil =>
    cases listening with
    | false => cases due <;> simp
    | true =>
      obtain ⟨received, subscription⟩ := inbox.subscription.receive
      cases received <;> cases due <;> simp

/-- Every other input than the timer leaves less to do. -/
theorem Taken.work_lt (h : Taken inbox listening due input rest) (hne : input ≠ .expiry) :
    rest.work (listening && !input.closes) < inbox.work listening := by
  cases h with
  | message first =>
    simp only [work, first, Input.closes, Bool.not_false, Bool.and_true, List.length_cons]
    omega
  | @push payload subscription empty listens given =>
    subst listens
    have hp := Delivery.Subscription.pending_of_payload given
    have hrest := pushes_le subscription
    have hpushes : pushes inbox.subscription = subscription.pending.length + 2 := by
      simp only [pushes, given, hp, List.length_cons]
    simp only [work, empty, Input.closes, Bool.not_false, Bool.and_true, if_true, hpushes]
    omega
  | closed empty listens ends =>
    subst listens
    rcases ends with ends | ends <;> simp [work, pushes, empty, ends, Input.closes]
  | expiry empty waits late => exact absurd rfl hne

theorem Taken.messages (h : inbox.Taken listening due input rest) {message : Message}
    (hm : message ∈ rest.messages) : message ∈ inbox.messages := by
  cases h with
  | message first => exact first ▸ .tail _ hm
  | _ => exact hm

theorem Taken.message_or (h : inbox.Taken listening due input rest) {message : Message}
    (hm : message ∈ inbox.messages) : input = .message message ∨ message ∈ rest.messages := by
  cases h with
  | message first =>
    rw [first] at hm
    exact (List.mem_cons.mp hm).imp_left (congrArg Input.message ·.symm)
  | _ => exact .inr hm

end Inbox

/-- A center that goes on has handled the input that came first. -/
theorem Center.step_taken {c next : Center} {now : Nat} {inbox rest : Inbox} {effects : List Effect}
    (h : c.step now inbox = .ok (some (next, rest, effects))) :
    ∃ first input handled, c.deadline = .ok first ∧
      inbox.Taken c.listening (first.any fun t => t ≤ now) input rest ∧
      c.handle now input = .ok (handled, effects) ∧ next = { handled with since := now } := by
  cases hd : c.deadline with
  | error panic =>
    rw [step_breaks hd] at h
    cases h
  | ok first =>
    cases ht : inbox.take c.listening (first.any fun t => t ≤ now) with
    | none =>
      rw [step_waits hd ht] at h
      cases h
    | some taken =>
      obtain ⟨input, left⟩ := taken
      cases hh : c.handle now input with
      | error panic =>
        rw [step, hd] at h
        simp only [bind, Except.bind, ht, hh] at h
        cases h
      | ok handled =>
        rw [step_takes hd ht hh] at h
        cases h
        exact ⟨first, input, handled.1, rfl, Inbox.taken_of_take ht, hh, rfl⟩

/-- A center that waits has nothing to do. -/
theorem Center.step_waiting {c : Center} {now : Nat} {inbox : Inbox} (h : c.step now inbox = .ok none) :
    ∃ first, c.deadline = .ok first ∧ inbox.take c.listening (first.any fun t => t ≤ now) = none := by
  cases hd : c.deadline with
  | error panic =>
    rw [step_breaks hd] at h
    cases h
  | ok first =>
    refine ⟨first, rfl, ?_⟩
    cases ht : inbox.take c.listening (first.any fun t => t ≤ now) with
    | none => rfl
    | some taken =>
      obtain ⟨input, left⟩ := taken
      rw [step, hd] at h
      simp only [bind, Except.bind, ht] at h
      split at h <;> cases h

end VoiceAdmin.Alerts
