import VoiceAdmin.Proofs.Alerts.Watch

namespace VoiceAdmin.Alerts

namespace Queue

variable {q r : Queue} {now : Nat}

theorem due_ne_nil : q.due now ≠ [] ↔ ∃ e ∈ q.entries, e.arrival + q.ttl ≤ now := by
  rw [Ne, due_eq_nil]
  simp

/-- The first deadline has come when some entry's time is up. -/
theorem nextDeadline_le_now (ht : q.Timed) (now : Nat) :
    (∃ deadline, q.nextDeadline = .ok (some deadline) ∧ deadline ≤ now) ↔
      ∃ e ∈ q.entries, e.arrival + q.ttl ≤ now := by
  constructor
  · rintro ⟨deadline, hnext, hle⟩
    obtain ⟨-, ⟨e, he, hdeadline⟩, -⟩ := nextDeadline_eq_some.mp hnext
    exact ⟨e, he, hdeadline ▸ hle⟩
  · rintro ⟨e, he, hle⟩
    cases hfirst : (q.entries.map fun e => e.arrival + q.ttl).min? with
    | none =>
      have hnil : q.entries = [] := by simpa using hfirst
      exact absurd (hnil ▸ he) List.not_mem_nil
    | some deadline =>
      have hnext : q.nextDeadline = .ok (some deadline) := hfirst ▸ nextDeadline_timed ht
      exact ⟨deadline, hnext, Nat.le_trans ((nextDeadline_eq_some.mp hnext).2.2 e he) hle⟩

/-- An expiry splits the entries into those that it answers and those that it keeps. -/
theorem length_due (q : Queue) (now : Nat) :
    (q.due now).length + (q.keep fun a => now < a.arrival + q.ttl).entries.length =
      q.entries.length := by
  have hkept : (fun e : Entry => decide (now < e.alert.arrival + q.ttl)) =
      fun e => !decide (e.arrival + q.ttl ≤ now) := by
    funext e
    simp only [← Nat.not_le, decide_not, Entry.alert]
  simp only [due, keep, List.length_map, hkept]
  exact (List.length_eq_length_filter_add _).symm

theorem Timed.keep (h : q.Timed) (stays : Alert → Bool) : (q.keep stays).Timed :=
  fun e he => h e (mem_keep.mp he).1

/-- Whether a queue takes in what an action brings. -/
def accepts (q : Queue) : Action → Bool
  | .enqueue notification arrival => (q.enqueue notification arrival).1
  | .dismiss _ => false
  | .expire _ => false

theorem Lawful.length_act_le (h : q.Lawful) {a : Action} (ha : q.act a = .ok r) :
    r.entries.length ≤ q.entries.length + (q.accepts a).toNat := by
  cases a with
  | enqueue n arrival =>
    cases ha
    cases hc : q.contains n.id with
    | false => simp [accepts, enqueue_absent hc]
    | true => simp [accepts, enqueue_present hc]
  | dismiss id =>
    cases ha
    exact List.length_filter_le _ _
  | expire now =>
    obtain ⟨-, rfl⟩ := h.act_expire ha
    exact List.length_filter_le _ _

end Queue

namespace Watch

variable {w : Watch} {ttl : Nat}

/-- Whether a turn sees to a deadline. -/
def wakes (w : Watch) : Bool :=
  match w.next? with
  | some .expiry => true
  | _ => false

/-- Whether a turn accepts an alert. -/
def accepts (w : Watch) : Bool :=
  w.next?.any fun input => (input.action w.now).any w.center.queue.accepts

/-- How many turns of a run are of a kind. -/
def turns (kind : Watch → Bool) (w : Watch) : List Event → Nat
  | [] => 0
  | .turn :: later => (kind w).toNat + turns kind w.turn later
  | event :: later => turns kind (w.apply event) later

theorem wakes_iff : w.wakes = true ↔ w.next? = some .expiry := by
  unfold wakes
  split <;> simp_all

/-- The timer fires only when the deadline has come. -/
theorem due_of_next? (h : w.next? = some .expiry) :
    ∃ deadline, w.center.queue.nextDeadline = .ok (some deadline) ∧ deadline ≤ w.now := by
  obtain ⟨⟨input, rest⟩, htaken, rfl⟩ := Option.map_eq_some_iff.mp h
  unfold taken? at htaken
  split at htaken
  · rename_i first hrunning hd
    cases Inbox.taken_of_take htaken with
    | expiry _ _ late =>
      cases first with
      | none => cases late
      | some deadline => exact ⟨deadline, (Center.deadline_ok hd).2, of_decide_eq_true late⟩
  · cases htaken

/-- A wake-up makes progress, and is not repeated until something else is due. -/
theorem turn_expiry (h : w.Sound ttl) (hnext : w.next? = some .expiry) :
    w.turn.center.queue.entries.length < w.center.queue.entries.length ∧
      ∃ first, w.turn.center.queue.nextDeadline = .ok first ∧
        ∀ deadline, first = some deadline → w.turn.now < deadline := by
  have hdue := due_of_next? hnext
  obtain ⟨⟨input, rest⟩, htaken, rfl⟩ := Option.map_eq_some_iff.mp hnext
  obtain ⟨center, effects, hh, heq⟩ := turn_of_taken h htaken
  obtain ⟨ht, hleft, -⟩ := h.expiry hh
  have htimed : center.queue.Timed := hleft ▸ ht.keep _
  rw [heq]
  refine ⟨?_, _, Queue.nextDeadline_timed htimed, fun deadline hd => ?_⟩
  · have hlost := List.length_pos_iff.mpr (Queue.due_ne_nil.mpr ((Queue.nextDeadline_le_now ht _).mp hdue))
    have hsplit := w.center.queue.length_due w.now
    rw [h.ttl_eq, ← hleft] at hsplit
    change center.queue.entries.length < _
    omega
  · exact h.lt_deadline hh (hd ▸ Queue.nextDeadline_timed htimed)

/-- What a wake-up removes pays for it. -/
theorem length_turn_le (h : w.Sound ttl) :
    w.wakes.toNat + w.turn.center.queue.entries.length ≤
      w.accepts.toNat + w.center.queue.entries.length := by
  rcases turn_cases h with ⟨hnone, heq⟩ | ⟨hnone, -, -, heq⟩ |
    ⟨input, rest, center, effects, htaken, hh, heq⟩
  · simp only [wakes, accepts, next?, hnone, heq, Option.map_none, Option.any_none, Nat.le_refl]
  · simp only [wakes, accepts, next?, hnone, heq, Option.map_none, Option.any_none, Nat.le_refl]
  · cases hw : w.wakes with
    | true =>
      have hlt := (turn_expiry h (wakes_iff.mp hw)).1
      rw [Bool.toNat_true]
      omega
    | false =>
      obtain ⟨hqueue, -⟩ := Center.handle_ok h.lawful h.shown hh
      rw [heq, accepts, next?, htaken, Bool.toNat_false, Nat.zero_add, Nat.add_comm]
      change center.queue.entries.length ≤ _ + ((input.action w.now).any w.center.queue.accepts).toNat
      cases ha : input.action w.now with
      | none =>
        rw [ha] at hqueue
        exact hqueue ▸ Nat.le_add_right ..
      | some a =>
        rw [ha] at hqueue
        exact h.lawful.length_act_le hqueue

/-- The alerts that are there at the end were accepted and caused no wake-up yet. -/
theorem turns_le (h : w.Sound ttl) (events : List Event) :
    turns wakes w events + (events.foldl apply w).center.queue.entries.length ≤
      turns accepts w events + w.center.queue.entries.length := by
  induction events generalizing w with
  | nil => exact Nat.le_refl _
  | cons event later ih =>
    have hlater := ih (h.apply event)
    cases event with
    | message _ => exact hlater
    | push _ => exact hlater
    | close => exact hlater
    | wait _ => exact hlater
    | turn =>
      have hturn := length_turn_le h
      simp only [turns, List.foldl_cons, apply] at hlater ⊢
      omega

end Watch

/-- There is a deadline as long as there are entries. An expiry takes something out exactly when the
deadline has come, and the deadline after it is later and the first one of the entries that are left.
Both break off when they meet an entry whose deadline the clock cannot tell, and only then.

So a center that wakes up for its deadline has fewer alerts afterwards and none that is due, and over a
whole run it wakes up at most once for every alert that it accepted. -/
theorem wakeups_make_progress (ttl : Nat) :
    (∀ history q, Queue.after ttl history = .ok q → ∀ now,
      (q.nextDeadline = .ok none ↔ q.entries = []) ∧
      ((∃ e ∈ q.entries, lastInstant < e.arrival + ttl) →
        q.nextDeadline = .error .overflow ∧ q.expire now = .error .overflow) ∧
      ((∀ e ∈ q.entries, e.arrival + ttl ≤ lastInstant) → ∃ first ids rest,
        q.nextDeadline = .ok first ∧ q.expire now = .ok (ids, rest) ∧
        (ids ≠ [] ↔ ∃ deadline, first = some deadline ∧ deadline ≤ now) ∧
        (rest.entries.length < q.entries.length ↔ ∃ deadline, first = some deadline ∧ deadline ≤ now) ∧
        (∀ e, e ∈ rest.entries ↔ e ∈ q.entries ∧ now < e.arrival + ttl) ∧
        ∃ next, rest.nextDeadline = .ok next ∧ (∀ deadline, next = some deadline → now < deadline) ∧
          ∀ deadline, next = some deadline ↔
            (∃ e ∈ rest.entries, e.arrival + ttl = deadline) ∧
              ∀ e ∈ rest.entries, deadline ≤ e.arrival + ttl)) ∧
    ∀ events,
      let w := Watch.run ttl events
      (w.next? = some .expiry →
        w.turn.center.queue.entries.length < w.center.queue.entries.length ∧
          ∃ first, w.turn.center.queue.nextDeadline = .ok first ∧
            ∀ deadline, first = some deadline → w.turn.now < deadline) ∧
      (Watch.run ttl []).turns Watch.wakes events + w.center.queue.entries.length ≤
        (Watch.run ttl []).turns Watch.accepts events := by
  refine ⟨fun history q hq now => ?_,
    fun events => ⟨Watch.turn_expiry (Watch.run_sound ttl events), Watch.turns_le (Watch.run_sound ttl []) events⟩⟩
  obtain ⟨hlawful, rfl⟩ := Queue.after_lawful hq
  refine ⟨Queue.nextDeadline_eq_none, ?_, fun ht => ?_⟩
  · rintro ⟨e, he, hlt⟩
    have ht : ¬ q.Timed := fun ht => Nat.not_le.mpr hlt (ht e he)
    exact ⟨Queue.nextDeadline_untimed ht, Queue.expire_untimed ht now⟩
  · have ht : q.Timed := ht
    have hnext := Queue.nextDeadline_timed ht
    have hdue := Queue.nextDeadline_le_now ht now
    have hrest := Queue.nextDeadline_timed (ht.keep fun a => now < a.arrival + q.ttl)
    rw [hnext] at hdue
    simp only [Except.ok.injEq] at hdue
    refine ⟨_, _, _, hnext, hlawful.expire_timed ht now, ?_, ?_, fun e => ?_, _, hrest, ?_, ?_⟩
    · rw [Queue.due_ne_nil, hdue]
    · rw [hdue, ← Queue.due_ne_nil, ← List.length_pos_iff, ← q.length_due now]
      omega
    · rw [Queue.mem_keep, decide_eq_true_eq]
      rfl
    · exact fun deadline hd => Queue.lt_nextDeadline_keep (hd ▸ hrest)
    · intro deadline
      rw [List.min?_eq_some_iff, List.mem_map, List.forall_mem_map]
      rfl

/-- With no time to live an alert is shown, then removed at the same instant, and that is all. -/
example :
    (Watch.run 0 []).turns Watch.wakes
      [.message (.enqueue ⟨"a", "", "", .info⟩), .turn, .turn, .turn, .wait 1, .turn] = 1 := by
  cbv

end VoiceAdmin.Alerts
