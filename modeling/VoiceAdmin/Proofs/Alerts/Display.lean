import Mathlib
import VoiceAdmin.Proofs.Alerts.Watch

namespace VoiceAdmin.Alerts

namespace Queue

variable {now : Nat}

/-- The alert arrived at its moment while its id was absent, and was not dismissed since. -/
structure Undismissed (ttl : Nat) (history : List Action) (x : Acceptance) : Prop where
  came : history[x.moment]? = some (.enqueue x.alert.notification x.alert.arrival)
  absent : ∃ q, after ttl (history.take x.moment) = .ok q ∧ q.contains x.alert.id = false
  kept : .dismiss x.alert.id ∉ history.drop (x.moment + 1)

variable {ttl : Nat} {history : List Action} {x : Acceptance}

theorem Stands.undismissed (h : Stands ttl history x) : Undismissed ttl history x where
  came := h.came
  absent := by
    obtain ⟨q, hq, haccepted⟩ := h.accepted
    exact ⟨q, hq, enqueue_accepts.mp haccepted⟩
  kept := fun hm => h.kept _ hm rfl

/-- No expiry has taken out an alert whose time is not up even now. -/
theorem Undismissed.stands (h : Undismissed ttl history x)
    (hpast : ∀ a ∈ history, ∀ t ∈ a.time?, t ≤ now) (hnow : now < x.alert.arrival + ttl) :
    Stands ttl history x where
  came := h.came
  accepted := by
    obtain ⟨q, hq, habsent⟩ := h.absent
    exact ⟨q, hq, enqueue_accepts.mpr habsent⟩
  kept := by
    intro a ha hr
    cases a with
    | enqueue n t => exact hr
    | dismiss id =>
      obtain rfl : id = x.alert.id := hr
      exact h.kept ha
    | expire t =>
      -- An expiry takes out what was due at its own instant, and that instant is past.
      have ht : t ≤ now := hpast _ (List.mem_of_mem_drop ha) t rfl
      have hup : x.alert.arrival + ttl ≤ t := hr
      omega

/-- With arrivals in order, what is shown first also came last. -/
theorem Stands.moment_lt {y : Acceptance} (hx : Stands ttl history x) (hy : Stands ttl history y)
    (hordered : history.Pairwise fun a b => ∀ s ∈ a.time?, ∀ t ∈ b.time?, s ≤ t)
    (habove : x.Above y) : y.moment < x.moment := by
  rcases habove with hlater | ⟨-, hmoment⟩
  · rcases Nat.lt_trichotomy y.moment x.moment with hlt | heq | hgt
    · exact hlt
    · exact absurd (hy.eq_of_moment hx heq ▸ hlater) (Nat.lt_irrefl _)
    · obtain ⟨hi, hcamex⟩ := List.getElem?_eq_some_iff.mp hx.came
      obtain ⟨hj, hcamey⟩ := List.getElem?_eq_some_iff.mp hy.came
      have htimes := List.pairwise_iff_getElem.mp hordered x.moment y.moment hi hj hgt
      rw [hcamex, hcamey] at htimes
      exact absurd (htimes _ rfl _ rfl) (Nat.not_le.mpr hlater)
  · exact hmoment

end Queue

namespace Watch

/-- The clock moves only while the center waits, and stops at every deadline until the center has seen
to it. -/
def Punctual (ttl : Nat) (events : List Event) : Prop :=
  ∀ earlier ms, earlier ++ [.wait ms] <+: events → (run ttl earlier).running = true →
    ∃ deadline, (run ttl earlier).center.deadline = .ok deadline ∧
      ∀ t ∈ deadline, (run ttl earlier).now + ms ≤ t

variable {ttl : Nat}

theorem punctual_concat {events : List Event} {event : Event} :
    Punctual ttl (events ++ [event]) ↔ Punctual ttl events ∧
      ∀ ms, event = .wait ms → (run ttl events).running = true →
        ∃ deadline, (run ttl events).center.deadline = .ok deadline ∧
          ∀ t ∈ deadline, (run ttl events).now + ms ≤ t := by
  constructor
  · intro h
    refine ⟨fun earlier ms hp => h earlier ms (hp.trans (List.prefix_append ..)), ?_⟩
    rintro ms rfl
    exact h events ms (List.prefix_refl _)
  · rintro ⟨h, hlast⟩ earlier ms hp
    rcases List.prefix_concat_iff.mp hp with heq | hp
    · obtain ⟨rfl, hwait⟩ := List.append_inj' heq rfl
      exact hlast ms (List.cons.inj hwait).1.symm
    · exact h earlier ms hp

/-- With a punctual clock nothing is still there after its time. -/
theorem Punctual.le_deadline {events : List Event} (h : Punctual ttl events)
    (hrunning : (run ttl events).running = true) :
    ∀ e ∈ (run ttl events).center.queue.entries, (run ttl events).now ≤ e.arrival + ttl := by
  induction events using List.reverseRecOn with
  | nil => nofun
  | append_singleton events event ih =>
    have hsound := run_sound ttl events
    obtain ⟨hearlier, htime⟩ := punctual_concat.mp h
    have ih := ih hearlier
    rw [run_concat] at hrunning ⊢
    generalize run ttl events = w at *
    cases event with
    | message _ => exact ih hrunning
    | push _ => exact ih hrunning
    | close => exact ih hrunning
    | wait ms =>
      -- Only here can time run over: the clock goes no further than the next deadline.
      intro e he
      obtain ⟨first, hfirst, hle⟩ := htime ms rfl hrunning
      have hnext := (Center.deadline_ok hfirst).2
      cases first with
      | none => exact absurd (Queue.nextDeadline_eq_none.mp hnext ▸ he) List.not_mem_nil
      | some t =>
        have hmin := (Queue.nextDeadline_eq_some.mp hnext).2.2 e he
        rw [hsound.ttl_eq] at hmin
        exact Nat.le_trans (hle t rfl) hmin
    | turn =>
      show ∀ e ∈ w.turn.center.queue.entries, w.turn.now ≤ e.arrival + ttl
      have hrunning : w.turn.running = true := hrunning
      rcases turn_cases hsound with ⟨-, heq⟩ | ⟨-, -, -, heq⟩ |
        ⟨input, rest, center, effects, htaken, hh, heq⟩
      · rw [heq]
        exact ih (heq ▸ hrunning)
      · rw [heq] at hrunning
        cases hrunning
      · rw [heq]
        intro e he
        rcases hsound.mem_after hh he with he | he
        · exact ih (take_of_taken? htaken).1 e he
        · exact he ▸ Nat.le_add_right ..

/-- What is published is always what the queue shows, every id once and the latest arrival first. All of
it arrived, each while its id was absent, and was not dismissed since; and all such whose time is not up
is among it. Whenever nothing is left to do, nothing else is. A center whose timer fires in time shows
no alert beyond its deadline.

A timer that is due with nothing before it takes out all that is due. Until the clock comes to its end,
a center that is not told to stop sees to all that waits for it in so many turns. -/
theorem run_shows_standing (ttl : Nat) (events : List Event) :
    let w := run ttl events
    w.center.shown = w.center.queue.displayOrder ∧
      (w.center.shown.map Entry.id).Nodup ∧
      (∃ shown : List Acceptance,
        shown.map Acceptance.alert = w.center.shown.map Entry.alert ∧
        (shown.Pairwise fun x y => y.moment < x.moment ∧ y.alert.arrival ≤ x.alert.arrival) ∧
        (∀ x ∈ shown, Queue.Undismissed ttl w.history x) ∧
        (∀ x, Queue.Undismissed ttl w.history x → w.now < x.alert.arrival + ttl → x ∈ shown) ∧
        (w.Idle → ∀ x,
          x ∈ shown ↔ Queue.Undismissed ttl w.history x ∧ w.now < x.alert.arrival + ttl) ∧
        (Punctual ttl events → w.running = true →
          ∀ x ∈ shown, w.now ≤ x.alert.arrival + ttl)) ∧
      (∀ t, w.running = true → w.center.deadline = .ok (some t) → t ≤ w.now →
        w.inbox.messages = [] →
        (w.center.listening = true → w.inbox.subscription.receive.1 = .waiting) →
        (run ttl (events ++ [.turn])).center.shown =
            w.center.shown.filter (fun e => w.now < e.arrival + ttl) ∧
          ∃ e ∈ w.center.shown, e.arrival + ttl ≤ w.now) ∧
      (w.running = true → .shutdown ∉ w.inbox.messages →
        w.now + max ttl Center.idleWait ≤ lastInstant →
        let waiting := w.inbox.messages.length + w.inbox.subscription.pending.length
        let later := run ttl (events ++ List.replicate (waiting + 2) .turn)
        later.Idle ∧ later.now = w.now) ∧
      (w.broken = true → lastInstant < w.now + max ttl Center.idleWait) ∧
      (w.running = false → w.broken = true ∨ .message .shutdown ∈ events) := by
  intro w
  have h : w.Sound ttl := run_sound ttl events
  obtain ⟨shown, hl⟩ := Queue.exists_lists h.queue
  have halerts : shown.map Acceptance.alert = w.center.queue.alerts := hl.alerts
  have hmem : ∀ x ∈ shown, ∃ e ∈ w.center.queue.entries, e.alert = x.alert := fun x hx =>
    Queue.mem_alerts.mp (halerts ▸ List.mem_map_of_mem hx)
  have hgoes : ∀ x ∈ shown, Queue.Undismissed ttl w.history x := fun x hx =>
    ((hl.standing x).mp hx).undismissed
  have hstays : ∀ x, Queue.Undismissed ttl w.history x → w.now < x.alert.arrival + ttl → x ∈ shown :=
    fun x hx hnow => (hl.standing x).mpr (hx.stands h.past hnow)
  refine ⟨h.shown, ?_, ⟨shown, ?_, ?_, hgoes, hstays, ?_, ?_⟩, ?_, ?_, h.breaks, run_stops ttl events⟩
  · rw [h.shown]
    exact (w.center.queue.displayOrder_perm.map Entry.id).nodup_iff.mpr h.lawful.distinct
  · rw [h.shown]
    exact halerts
  · refine hl.above.imp_of_mem fun {x y} hx hy habove => ⟨?_, ?_⟩
    · exact ((hl.standing x).mp hx).moment_lt ((hl.standing y).mp hy) h.ordered habove
    · rcases habove with hlater | ⟨hsame, -⟩
      · exact Nat.le_of_lt hlater
      · exact Nat.le_of_eq hsame
  · intro hidle x
    refine ⟨fun hx => ⟨hgoes x hx, ?_⟩, fun hx => hstays x hx.1 hx.2⟩
    obtain ⟨first, hd, hearly⟩ := hidle.early
    obtain ⟨e, he, heq⟩ := hmem x hx
    rw [← heq, ← h.ttl_eq]
    exact Queue.lt_deadline (Center.deadline_ok hd).2 hearly he
  · intro hp hrunning x hx
    obtain ⟨e, he, heq⟩ := hmem x hx
    exact heq ▸ hp.le_deadline hrunning e he
  · intro t hr hd hle hempty hwaits
    rw [run_concat]
    exact turn_of_due h hr hd hle hempty hwaits
  · intro hr hgo htold waiting later
    rw [show later = (List.replicate (waiting + 2) Event.turn).foldl apply w from run_append ..]
    exact idle_of_turns h hr hgo htold (Nat.lt_succ_of_le (Inbox.work_le _ _))

/-- At the deadline of the only alert nothing but the timer waits, and its turn leaves nothing. -/
theorem run_shows_standing_past_deadline :
    let alert : Notification := ⟨"a", "", "", .info⟩
    let events : List Event := [.message (.enqueue alert), .turn, .wait 8]
    Punctual 8 events ∧ (run 8 events).running = true ∧ (run 8 events).center.shown = [⟨alert, 0, 0⟩] ∧
      (run 8 (events ++ [.turn])).center.shown = [] := by
  intro alert events
  have hshown : (run 8 events).center.shown = [⟨alert, 0, 0⟩] := by cbv
  refine ⟨?_, by cbv, hshown, ?_⟩
  · have hsplit : events = [.message (.enqueue alert)] ++ [.turn] ++ [.wait 8] := rfl
    rw [hsplit, punctual_concat, punctual_concat, ← List.nil_append [_], punctual_concat]
    refine ⟨⟨⟨fun earlier ms hp => ?_, ?_⟩, ?_⟩, ?_⟩
    · exact absurd (List.prefix_nil.mp hp) (by simp)
    · rintro ms ⟨⟩
    · rintro ms ⟨⟩
    · rintro ms ⟨⟩ -
      exact ⟨some 8, by cbv, by decide⟩
  · obtain ⟨-, -, -, hdue, -⟩ := run_shows_standing 8 events
    rw [(hdue 8 (by cbv) (by cbv) (by cbv) (by cbv) (fun _ => by cbv)).1, hshown]
    decide

end Watch

end VoiceAdmin.Alerts
