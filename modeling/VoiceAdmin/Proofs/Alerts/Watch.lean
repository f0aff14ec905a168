import VoiceAdmin.Proofs.Alerts.Center
import VoiceAdmin.Proofs.Alerts.History

namespace VoiceAdmin.Alerts

/-- A center with all that reaches it, and what it did to its queue. -/
structure Watch where
  center : Center
  running : Bool := true
  /-- It broke off. -/
  broken : Bool := false
  inbox : Inbox
  now : Nat := 0
  /-- What was done to the queue, the first action first. -/
  history : List Action := []

namespace Watch

/-- What may happen to a center. -/
inductive Event where
  | message (message : Message)
  | push (payload : Json)
  | close
  | wait (ms : Nat)
  | turn

/-- The input that waits for the center and comes first, with what is left. -/
def taken? (w : Watch) : Option (Input × Inbox) :=
  match w.running, w.center.deadline with
  | true, .ok deadline => w.inbox.take w.center.listening (deadline.any fun t => t ≤ w.now)
  | _, _ => none

/-- The input that a turn handles. -/
def next? (w : Watch) : Option Input := w.taken?.map Prod.fst

/-- A center that stops or breaks off gives its subscription back. -/
def leave (inbox : Inbox) : Inbox := { inbox with subscription := inbox.subscription.release }

/-- Handles the input that comes first, if one waits. -/
def turn (w : Watch) : Watch :=
  if w.running then
    match w.center.step w.now w.inbox with
    | .error _ => { w with running := false, broken := true, inbox := leave w.inbox }
    | .ok none => w
    | .ok (some (center, rest, effects)) =>
      { w with
        center
        running := !effects.contains .stop
        inbox := if effects.contains .stop then leave rest else rest
        history := w.history ++ (w.next?.bind (Input.action w.now)).toList }
  else w

def apply (w : Watch) : Event → Watch
  | .message m => { w with inbox.messages := w.inbox.messages ++ [m] }
  | .push payload => { w with inbox.subscription := (w.inbox.subscription.send payload).2 }
  | .close => { w with inbox.subscription := w.inbox.subscription.close }
  | .wait ms => { w with now := w.now + ms }
  | .turn => w.turn

def run (ttl : Nat) (events : List Event) : Watch :=
  events.foldl apply
    { center := { queue := { ttl } }, inbox := { subscription := { topic := .notification } } }

theorem run_append (ttl : Nat) (events more : List Event) :
    run ttl (events ++ more) = more.foldl apply (run ttl events) :=
  List.foldl_append

theorem run_concat (ttl : Nat) (events : List Event) (event : Event) :
    run ttl (events ++ [event]) = (run ttl events).apply event :=
  run_append ttl events [event]

/-- Nothing waits for the center, and no time is up. -/
structure Idle (w : Watch) : Prop where
  running : w.running = true
  empty : w.inbox.messages = []
  drained : w.center.listening = true → w.inbox.subscription.pending = []
  early : ∃ deadline, w.center.deadline = .ok deadline ∧ ∀ t ∈ deadline, w.now < t

/-- What holds of a center at any time. -/
structure Sound (w : Watch) (ttl : Nat) : Prop where
  queue : Queue.after ttl w.history = .ok w.center.queue
  shown : w.center.shown = w.center.queue.displayOrder
  since : w.center.since ≤ w.now
  past : ∀ a ∈ w.history, ∀ t ∈ a.time?, t ≤ w.now
  ordered : w.history.Pairwise fun a b => ∀ s ∈ a.time?, ∀ t ∈ b.time?, s ≤ t
  /-- It breaks off only when the clock comes to its end. -/
  breaks : w.broken = true → lastInstant < w.now + max ttl Center.idleWait

variable {w : Watch} {ttl : Nat}

/-- The watch once an input is handled. -/
def after (w : Watch) (input : Input) (rest : Inbox) (center : Center) (effects : List Effect) : Watch :=
  { w with
    center := { center with since := w.now }
    running := !effects.contains .stop
    inbox := if effects.contains .stop then leave rest else rest
    history := w.history ++ (input.action w.now).toList }

theorem take_of_taken? {taken : Input × Inbox} (h : w.taken? = some taken) :
    w.running = true ∧ ∃ due, w.inbox.take w.center.listening due = some taken := by
  unfold taken? at h
  split at h
  · exact ⟨‹_›, _, h⟩
  · cases h

theorem taken?_eq {first : Option Nat} (hr : w.running = true) (hd : w.center.deadline = .ok first) :
    w.taken? = w.inbox.take w.center.listening (first.any fun t => t ≤ w.now) := by
  rw [taken?, hr, hd]

theorem Sound.lawful (h : w.Sound ttl) : w.center.queue.Lawful := (Queue.after_lawful h.queue).1

theorem Sound.ttl_eq (h : w.Sound ttl) : w.center.queue.ttl = ttl := (Queue.after_lawful h.queue).2

theorem Sound.arrival_le (h : w.Sound ttl) {e : Entry} (he : e ∈ w.center.queue.entries) :
    e.arrival ≤ w.now :=
  h.past _ (Queue.arrived h.queue he) _ rfl

/-- As long as the clock can tell the deadline of what arrives now, the center goes on. -/
theorem Sound.exists_deadline (h : w.Sound ttl) (htold : w.now + max ttl Center.idleWait ≤ lastInstant) :
    ∃ first, w.center.deadline = .ok first := by
  have hsince := h.since
  refine Center.exists_deadline (fun e he => ?_) ?_
  · have harrival := h.arrival_le he
    rw [h.ttl_eq]
    unfold Told
    omega
  · unfold Told
    omega

/-- A turn does nothing, or it breaks off, or it handles the input that comes first. -/
theorem turn_cases (h : w.Sound ttl) :
    w.taken? = none ∧ w.turn = w ∨
      (w.taken? = none ∧ w.running = true ∧ (∃ panic, w.center.deadline = .error panic) ∧
        w.turn = { w with running := false, broken := true, inbox := leave w.inbox }) ∨
      ∃ input rest center effects, w.taken? = some (input, rest) ∧
        w.center.handle w.now input = .ok (center, effects) ∧
        w.turn = w.after input rest center effects := by
  cases hrunning : w.running with
  | false => exact .inl ⟨by rw [taken?, hrunning], by rw [turn, if_neg (by simp [hrunning])]⟩
  | true =>
    cases hd : w.center.deadline with
    | error panic =>
      refine .inr (.inl ⟨by rw [taken?, hrunning, hd], rfl, ⟨panic, rfl⟩, ?_⟩)
      rw [turn, if_pos hrunning, Center.step_breaks hd]
    | ok first =>
      have htaken := taken?_eq hrunning hd
      cases ht : w.inbox.take w.center.listening (first.any fun t => t ≤ w.now) with
      | none =>
        refine .inl ⟨htaken.trans ht, ?_⟩
        rw [turn, if_pos hrunning, Center.step_waits hd ht]
      | some taken =>
        obtain ⟨input, rest⟩ := taken
        obtain ⟨⟨center, effects⟩, hh⟩ :=
          Center.exists_handle h.lawful (Center.deadline_ok hd).1 w.now input
        refine .inr (.inr ⟨input, rest, center, effects, htaken.trans ht, hh, ?_⟩)
        rw [turn, if_pos hrunning, Center.step_takes hd ht hh, next?, htaken, ht]
        rfl

theorem turn_of_taken (h : w.Sound ttl) {input : Input} {rest : Inbox}
    (ht : w.taken? = some (input, rest)) : ∃ center effects,
      w.center.handle w.now input = .ok (center, effects) ∧
        w.turn = w.after input rest center effects := by
  rcases turn_cases h with ⟨hnone, -⟩ | ⟨hnone, -⟩ | ⟨_, _, center, effects, hsome, hh, heq⟩
  · cases ht.symm.trans hnone
  · cases ht.symm.trans hnone
  · cases ht.symm.trans hsome
    exact ⟨center, effects, hh, heq⟩

theorem Sound.after (h : w.Sound ttl) {input : Input} {center : Center} {effects : List Effect}
    (hh : w.center.handle w.now input = .ok (center, effects)) (rest : Inbox) :
    (w.after input rest center effects).Sound ttl := by
  obtain ⟨hqueue, hshown⟩ := Center.handle_ok h.lawful h.shown hh
  refine ⟨?_, hshown, Nat.le_refl _, fun a ha t ht => ?_, ?_, h.breaks⟩
  · unfold Watch.after
    cases ha : input.action w.now with
    | none =>
      rw [ha] at hqueue
      simpa [hqueue] using h.queue
    | some a =>
      rw [ha] at hqueue
      exact Queue.after_concat.mpr ⟨_, h.queue, hqueue⟩
  · rcases List.mem_append.mp ha with ha | ha
    · exact h.past a ha t ht
    · exact Nat.le_of_eq (Input.action_time (Option.mem_toList.mp ha) ht)
  · refine List.pairwise_append.mpr ⟨h.ordered, ?_, fun a ha b hb s hs t ht => ?_⟩
    · cases input.action w.now with
      | none => exact .nil
      | some a => exact List.pairwise_singleton _ a
    · exact Input.action_time (Option.mem_toList.mp hb) ht ▸ h.past a ha s hs

theorem Sound.mem_after (h : w.Sound ttl) {input : Input} {rest : Inbox} {center : Center}
    {effects : List Effect} (hh : w.center.handle w.now input = .ok (center, effects)) {e : Entry}
    (he : e ∈ (w.after input rest center effects).center.queue.entries) :
    e ∈ w.center.queue.entries ∨ e.arrival = w.now := by
  obtain ⟨hqueue, -⟩ := Center.handle_ok h.lawful h.shown hh
  have he : e ∈ center.queue.entries := he
  cases ha : input.action w.now with
  | none =>
    rw [ha] at hqueue
    exact .inl (hqueue ▸ he)
  | some a =>
    rw [ha] at hqueue
    refine (h.lawful.mem_act hqueue he).imp_right ?_
    rintro rfl
    exact Input.action_time ha rfl

theorem Sound.turn (h : w.Sound ttl) : w.turn.Sound ttl := by
  rcases turn_cases h with ⟨-, heq⟩ | ⟨-, -, ⟨panic, hd⟩, heq⟩ | ⟨input, rest, center, effects, -, hh, heq⟩
  · rwa [heq]
  · rw [heq]
    refine { h with breaks := fun _ => Nat.lt_of_not_le fun htold => ?_ }
    obtain ⟨first, hfirst⟩ := h.exists_deadline htold
    rw [hd] at hfirst
    cases hfirst
  · rw [heq]
    exact h.after hh rest

theorem Sound.apply (h : w.Sound ttl) (event : Event) : (w.apply event).Sound ttl := by
  cases event with
  | message _ => exact { h with }
  | push _ => exact { h with }
  | close => exact { h with }
  | wait ms =>
    exact { h with
      since := Nat.le_add_right_of_le h.since
      past := fun a ha t ht => Nat.le_add_right_of_le (h.past a ha t ht)
      breaks := fun hb => Nat.lt_of_lt_of_le (h.breaks hb)
        (Nat.add_le_add_right (Nat.le_add_right ..) _) }
  | turn => exact h.turn

theorem run_sound (ttl : Nat) (events : List Event) : (run ttl events).Sound ttl := by
  induction events using List.reverseRecOn with
  | nil => exact ⟨rfl, by simp [run, Queue.displayOrder], Nat.le_refl _, nofun, .nil, nofun⟩
  | append_singleton events event ih => exact run_concat ttl events event ▸ ih.apply event

/-- Nothing is left to do for a center that waits. -/
theorem idle_of_waits {first : Option Nat} (hr : w.running = true) (hd : w.center.deadline = .ok first)
    (ht : w.taken? = none) : w.Idle := by
  rw [taken?_eq hr hd] at ht
  obtain ⟨hempty, hwaits, hearly⟩ := Inbox.take_eq_none.mp ht
  refine ⟨hr, hempty, fun hl => Delivery.Subscription.pending_of_waiting (hwaits hl), first, hd, ?_⟩
  rintro t rfl
  simpa using hearly

theorem turn_of_waits {first : Option Nat} (hr : w.running = true) (hd : w.center.deadline = .ok first)
    (ht : w.taken? = none) : w.turn = w := by
  rw [turn, if_pos hr, Center.step_waits hd (taken?_eq hr hd ▸ ht)]

theorem turns_of_waits {first : Option Nat} (hr : w.running = true)
    (hd : w.center.deadline = .ok first) (ht : w.taken? = none) (n : Nat) :
    (List.replicate n Event.turn).foldl apply w = w := by
  induction n with
  | zero => rfl
  | succ n ih =>
    rw [List.replicate_succ, List.foldl_cons, apply, turn_of_waits hr hd ht, ih]

/-- An expiry takes out what is due. -/
theorem Sound.expiry (h : w.Sound ttl) {center : Center} {effects : List Effect}
    (hh : w.center.handle w.now .expiry = .ok (center, effects)) :
    w.center.queue.Timed ∧ (center.queue = w.center.queue.keep fun a => w.now < a.arrival + ttl) ∧
      center.shown = w.center.shown.filter (fun e => w.now < e.arrival + ttl) := by
  obtain ⟨hqueue, hshown⟩ := Center.handle_ok h.lawful h.shown hh
  obtain ⟨ht, hleft⟩ := h.lawful.act_expire hqueue
  rw [hshown, h.shown, hleft, h.ttl_eq]
  exact ⟨ht, rfl, h.lawful.displayOrder_keep _⟩

/-- An expiry leaves nothing that is due. -/
theorem Sound.lt_deadline (h : w.Sound ttl) {center : Center} {effects : List Effect}
    (hh : w.center.handle w.now .expiry = .ok (center, effects)) {deadline : Nat}
    (hd : center.queue.nextDeadline = .ok (some deadline)) : w.now < deadline := by
  obtain ⟨-, hleft, -⟩ := h.expiry hh
  rw [hleft, ← h.ttl_eq] at hd
  exact Queue.lt_nextDeadline_keep hd

/-- A center that is not told to stop goes on with what is left. -/
theorem after_of_goes (hr : w.running = true) {effects : List Effect} (hgo : .stop ∉ effects)
    (input : Input) (rest : Inbox) (center : Center) :
    w.after input rest center effects =
      { w with center := { center with since := w.now }, inbox := rest,
               history := w.history ++ (input.action w.now).toList } := by
  have hstop : effects.contains .stop = false := by simpa using hgo
  simp only [Watch.after, hstop, hr]
  rfl

theorem running_of_goes (hr : w.running = true) {effects : List Effect} (hgo : .stop ∉ effects)
    (input : Input) (rest : Inbox) (center : Center) :
    (w.after input rest center effects).running = true := by
  rw [after_of_goes hr hgo]
  exact hr

/-- The timer comes last, and when it is seen to nothing is due. -/
theorem waits_after_expiry (h : w.Sound ttl) (hr : w.running = true) {center : Center}
    {effects : List Effect} (hh : w.center.handle w.now .expiry = .ok (center, effects))
    (hgo : .stop ∉ effects) (hempty : w.inbox.messages = [])
    (hwaits : w.center.listening = true → w.inbox.subscription.receive.1 = .waiting) {next : Option Nat}
    (hnext : (w.after .expiry w.inbox center effects).center.deadline = .ok next) :
    (w.after .expiry w.inbox center effects).taken? = none := by
  obtain ⟨hlistening, -⟩ := Center.handle_goes hh
  have hlater : ∀ t, next = some t → w.now < t := by
    rintro t rfl
    exact h.lt_deadline hh (Center.deadline_ok hnext).2
  rw [taken?_eq (running_of_goes hr hgo _ _ _) hnext, after_of_goes hr hgo]
  refine Inbox.take_eq_none.mpr ⟨hempty, fun hl => hwaits ?_, ?_⟩
  · simpa [hlistening, Input.closes] using hl
  · cases next with
    | none => rfl
    | some t => simpa using hlater t rfl

/-- With so many turns a center sees to all that waits for it. -/
theorem idle_of_turns (h : w.Sound ttl) (hr : w.running = true) (hgoes : .shutdown ∉ w.inbox.messages)
    (htold : w.now + max ttl Center.idleWait ≤ lastInstant) {n : Nat}
    (hn : w.inbox.work w.center.listening < n) :
    ((List.replicate n Event.turn).foldl apply w).Idle ∧
      ((List.replicate n Event.turn).foldl apply w).now = w.now := by
  induction n generalizing w with
  | zero => exact absurd hn (Nat.not_lt_zero _)
  | succ n ih =>
    obtain ⟨first, hd⟩ := h.exists_deadline htold
    rcases turn_cases h with ⟨ht, -⟩ | ⟨-, -, ⟨panic, hbreaks⟩, -⟩ |
      ⟨input, rest, center, effects, htaken, hh, heq⟩
    · rw [turns_of_waits hr hd ht]
      exact ⟨idle_of_waits hr hd ht, rfl⟩
    · rw [hd] at hbreaks
      cases hbreaks
    · rw [List.replicate_succ, List.foldl_cons, apply, heq]
      rw [taken?_eq hr hd] at htaken
      have hcases := Inbox.taken_of_take htaken
      obtain ⟨hlistening, hstop⟩ := Center.handle_goes hh
      obtain ⟨hmessages, hm⟩ := Inbox.mem_of_take htaken
      have hgo : .stop ∉ effects := fun hs => hgoes (hm _ (hstop hs))
      have hafter := after_of_goes hr hgo input rest center
      have hsound := h.after hh rest
      have hrunning := running_of_goes hr hgo input rest center
      by_cases hexpiry : input = .expiry
      · subst hexpiry
        cases hcases with
        | expiry hempty hwaits =>
          obtain ⟨next, hnext⟩ := hsound.exists_deadline htold
          have hidle := waits_after_expiry h hr hh hgo hempty hwaits hnext
          rw [turns_of_waits hrunning hnext hidle]
          exact ⟨idle_of_waits hrunning hnext hidle, rfl⟩
      · have hwork := hcases.work_lt hexpiry
        rw [← hlistening] at hwork
        refine ih hsound hrunning ?_ htold ?_
        · rw [hafter]
          exact fun hs => hgoes (hmessages _ hs)
        · rw [hafter]
          exact Nat.lt_of_lt_of_le hwork (Nat.le_of_lt_succ hn)

/-- A timer that is due takes out all that is due, if nothing comes before it. -/
theorem turn_of_due (h : w.Sound ttl) (hr : w.running = true) {t : Nat}
    (hd : w.center.deadline = .ok (some t)) (hle : t ≤ w.now) (hempty : w.inbox.messages = [])
    (hwaits : w.center.listening = true → w.inbox.subscription.receive.1 = .waiting) :
    w.turn.center.shown = w.center.shown.filter (fun e => w.now < e.arrival + ttl) ∧
      ∃ e ∈ w.center.shown, e.arrival + ttl ≤ w.now := by
  have htake : w.inbox.take w.center.listening (decide (t ≤ w.now)) = some (.expiry, w.inbox) := by
    cases ht : w.inbox.take w.center.listening (decide (t ≤ w.now)) with
    | none => exact absurd (Inbox.take_eq_none.mp ht).2.2 (by simpa using hle)
    | some taken =>
      obtain ⟨input, rest⟩ := taken
      cases Inbox.taken_of_take ht with
      | message first => simp [hempty] at first
      | push _ listens given => exact absurd (hwaits listens) (by simp [given])
      | closed _ listens ends => simp [hwaits listens] at ends
      | expiry _ _ _ => rfl
  obtain ⟨center, effects, hh, heq⟩ := turn_of_taken h ((taken?_eq hr hd).trans htake)
  obtain ⟨-, -, hshown⟩ := h.expiry hh
  refine ⟨heq ▸ hshown, ?_⟩
  obtain ⟨-, ⟨e, he, hdeadline⟩, -⟩ := Queue.nextDeadline_eq_some.mp (Center.deadline_ok hd).2
  rw [h.ttl_eq] at hdeadline
  exact ⟨e, h.shown ▸ Queue.mem_displayOrder.mpr he, hdeadline ▸ hle⟩

/-- Nothing stops a center but a shutdown and the end of the clock. -/
theorem run_stops (ttl : Nat) (events : List Event) (h : (run ttl events).running = false) :
    (run ttl events).broken = true ∨ .message .shutdown ∈ events := by
  suffices hall : (∀ m ∈ (run ttl events).inbox.messages, .message m ∈ events) ∧
      ((run ttl events).running = false →
        (run ttl events).broken = true ∨ .message .shutdown ∈ events) from hall.2 h
  clear h
  induction events using List.reverseRecOn with
  | nil => exact ⟨nofun, nofun⟩
  | append_singleton events event ih =>
    have hsound := run_sound ttl events
    rw [run_concat]
    generalize run ttl events = w at *
    obtain ⟨hsent, hstops⟩ := ih
    have hsent : ∀ m ∈ w.inbox.messages, .message m ∈ events ++ [event] :=
      fun m hm => List.mem_append_left _ (hsent m hm)
    have hstops : w.running = false → w.broken = true ∨ .message .shutdown ∈ events ++ [event] :=
      fun hr => (hstops hr).imp_right (List.mem_append_left _)
    cases event with
    | message m =>
      refine ⟨fun other hm => ?_, hstops⟩
      rcases List.mem_append.mp hm with hm | hm
      · exact hsent other hm
      · exact List.mem_singleton.mp hm ▸ List.mem_append_right _ (List.mem_singleton_self _)
    | push _ => exact ⟨hsent, hstops⟩
    | close => exact ⟨hsent, hstops⟩
    | wait _ => exact ⟨hsent, hstops⟩
    | turn =>
      rw [apply]
      rcases turn_cases hsound with ⟨-, heq⟩ | ⟨-, -, -, heq⟩ |
        ⟨input, rest, center, effects, htaken, hh, heq⟩
      · rw [heq]
        exact ⟨hsent, hstops⟩
      · rw [heq]
        exact ⟨hsent, fun _ => .inl rfl⟩
      · obtain ⟨-, due, htake⟩ := take_of_taken? htaken
        obtain ⟨hleft, hfirst⟩ := Inbox.mem_of_take htake
        rw [heq]
        constructor
        · intro m hm
          refine hsent m (hleft m ?_)
          unfold after at hm
          dsimp only at hm
          split at hm <;> exact hm
        · intro hr
          have hstop : .stop ∈ effects := by
            have : (!effects.contains .stop) = false := hr
            simpa using this
          exact .inr (hsent _ (hfirst _ ((Center.handle_goes hh).2 hstop)))

end Watch

end VoiceAdmin.Alerts
