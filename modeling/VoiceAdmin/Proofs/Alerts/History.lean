import Mathlib.Data.List.Induction
import VoiceAdmin.Proofs.Alerts.Queue

namespace VoiceAdmin.Alerts

/-- Whether an action takes an alert out of a queue. -/
def Action.Removes (ttl : Nat) (a : Alert) : Action → Prop
  | .enqueue _ _ => False
  | .dismiss id => id = a.id
  | .expire now => a.arrival + ttl ≤ now

/-- An alert with the moment of its acceptance: the place of its arrival among all that was done. The
instants that come with the actions may run in any direction; the moments tell which arrival was accepted
later. -/
structure Acceptance where
  moment : Nat
  alert : Alert
deriving DecidableEq, Repr

namespace Acceptance

/-- The latest arrival is shown first; of equal arrivals, the one accepted later. -/
def Above (x y : Acceptance) : Prop :=
  y.alert.arrival < x.alert.arrival ∨ y.alert.arrival = x.alert.arrival ∧ y.moment < x.moment

/-- In front of the first one that did not arrive later. -/
def place (new : Acceptance) (shown : List Acceptance) : List Acceptance :=
  shown.orderedInsert (fun x y => y.alert.arrival ≤ x.alert.arrival) new

theorem map_place (new : Acceptance) (shown : List Acceptance) :
    (place new shown).map alert = Alert.place new.alert (shown.map alert) :=
  List.map_orderedInsert _ _ _ _ _ (fun _ _ => Iff.rfl) (fun _ _ => Iff.rfl)

theorem mem_place {new x : Acceptance} {shown : List Acceptance} :
    x ∈ place new shown ↔ x = new ∨ x ∈ shown :=
  List.mem_orderedInsert _

/-- The place that a new alert takes is the one that its arrival and its moment give it. -/
theorem pairwise_place {new : Acceptance} {shown : List Acceptance} (h : shown.Pairwise Above)
    (hnew : ∀ x ∈ shown, x.moment < new.moment) : (place new shown).Pairwise Above := by
  induction shown with
  | nil => exact List.pairwise_singleton _ _
  | cons x rest ih =>
    obtain ⟨hx, hrest⟩ := List.pairwise_cons.mp h
    by_cases harrival : x.alert.arrival ≤ new.alert.arrival
    · rw [place, List.orderedInsert_cons, if_pos harrival]
      refine List.pairwise_cons.mpr ⟨fun y hy => ?_, h⟩
      have hmoment := hnew y hy
      rcases List.mem_cons.mp hy with rfl | hy
      · exact (Nat.lt_or_eq_of_le harrival).imp id fun he => ⟨he, hmoment⟩
      · have := hx y hy
        simp only [Above] at *
        omega
    · rw [place, List.orderedInsert_cons, if_neg harrival]
      refine List.pairwise_cons.mpr ⟨fun y hy => ?_, ih hrest fun y hy => hnew y (.tail _ hy)⟩
      rcases mem_place.mp hy with rfl | hy
      · exact .inl (Nat.lt_of_not_le harrival)
      · exact hx y hy

end Acceptance

namespace Queue

/-- The queue that a history leads to, unless an action of it breaks off. -/
def after (ttl : Nat) (history : List Action) : Except Panic Queue := history.foldlM act { ttl }

variable {ttl : Nat} {history : List Action} {id : String} {q r : Queue}

theorem after_append (ttl : Nat) (history more : List Action) :
    after ttl (history ++ more) = after ttl history >>= fun q => more.foldlM act q :=
  List.foldlM_append

/-- A history goes through when it did so before its last action, which went through as well. -/
theorem after_concat {a : Action} :
    after ttl (history ++ [a]) = .ok r ↔ ∃ q, after ttl history = .ok q ∧ q.act a = .ok r := by
  rw [after_append]
  cases after ttl history with
  | error e => exact ⟨nofun, nofun⟩
  | ok q =>
    change (q.act a >>= pure) = _ ↔ _
    rw [bind_pure]
    constructor
    · exact fun h => ⟨q, rfl, h⟩
    · rintro ⟨_, ⟨⟩, h⟩
      exact h

theorem after_lawful (h : after ttl history = .ok q) : q.Lawful ∧ q.ttl = ttl := by
  induction history using List.reverseRecOn generalizing q with
  | nil =>
    cases h
    exact ⟨.start ttl, rfl⟩
  | append_singleton history a ih =>
    obtain ⟨p, hp, ha⟩ := after_concat.mp h
    obtain ⟨hlawful, httl⟩ := ih hp
    obtain ⟨hnext, hsame, -⟩ := hlawful.act ha
    exact ⟨hnext, hsame.trans httl⟩

/-- What is in the queue was enqueued. -/
theorem arrived (h : after ttl history = .ok q) {e : Entry} (he : e ∈ q.entries) :
    .enqueue e.notification e.arrival ∈ history := by
  induction history using List.reverseRecOn generalizing q e with
  | nil =>
    cases h
    cases he
  | append_singleton history a ih =>
    obtain ⟨p, hp, ha⟩ := after_concat.mp h
    obtain ⟨hlawful, -⟩ := after_lawful hp
    obtain ⟨-, -, halerts⟩ := hlawful.act ha
    have hold : e.alert ∈ p.alerts → .enqueue e.notification e.arrival ∈ history ++ [a] := by
      intro hm
      obtain ⟨x, hx, heq⟩ := mem_alerts.mp hm
      obtain ⟨hn, ht⟩ := Alert.mk.inj heq
      exact List.mem_append_left _ (hn ▸ ht ▸ ih hp hx)
    have hm := alert_mem he
    rw [halerts] at hm
    cases a with
    | enqueue n arrival =>
      rw [Action.onDisplay] at hm
      split at hm
      · exact hold hm
      · rcases (List.mem_orderedInsert _).mp hm with heq | hm
        · cases heq
          exact List.mem_append_right _ (List.mem_singleton_self _)
        · exact hold hm
    | dismiss id => exact hold (List.mem_of_mem_filter hm)
    | expire now => exact hold (List.mem_of_mem_filter hm)

/-- A history breaks off at the first expiry that meets an entry whose deadline the clock cannot tell. -/
theorem after_breaks :
    (∀ q, after ttl history ≠ .ok q) ↔ ∃ earlier now later q,
      history = earlier ++ .expire now :: later ∧ after ttl earlier = .ok q ∧ ¬ q.Timed := by
  induction history using List.reverseRecOn with
  | nil => simp [after, pure, Except.pure]
  | append_singleton history a ih =>
    constructor
    · intro h
      by_cases hb : ∀ q, after ttl history ≠ .ok q
      · obtain ⟨earlier, now, later, q, rfl, hq, ht⟩ := ih.mp hb
        exact ⟨earlier, now, later ++ [a], q, by simp, hq, ht⟩
      · obtain ⟨q, hq⟩ := not_forall_not.mp hb
        have hact : ∀ r, q.act a ≠ .ok r := fun r hr => h r (after_concat.mpr ⟨q, hq, hr⟩)
        obtain ⟨⟨now, rfl⟩, ht⟩ := (after_lawful hq).1.act_breaks.mp hact
        exact ⟨history, now, [], q, rfl, hq, ht⟩
    · rintro ⟨earlier, now, later, q, hsplit, hq, ht⟩ r hr
      obtain ⟨p, hp, ha⟩ := after_concat.mp hr
      rcases List.eq_nil_or_concat' later with rfl | ⟨later, last, rfl⟩
      · obtain ⟨rfl, hlast⟩ := List.append_inj' hsplit rfl
        obtain rfl : a = .expire now := (List.cons.inj hlast).1
        obtain rfl : q = p := Except.ok.inj (hq.symm.trans hp)
        exact (after_lawful hq).1.act_breaks.mpr ⟨⟨now, rfl⟩, ht⟩ r ha
      · have hsplit : history ++ [a] = (earlier ++ .expire now :: later) ++ [last] := by
          simpa using hsplit
        obtain ⟨rfl, -⟩ := List.append_inj' hsplit rfl
        exact ih.mpr ⟨earlier, now, later, q, rfl, hq, ht⟩ p hp

/-- With arrivals whose deadlines the clock can tell nothing breaks off. -/
theorem after_told (h : ∀ n t, .enqueue n t ∈ history → Told t ttl) :
    ∃ q, after ttl history = .ok q := by
  by_contra hnone
  obtain ⟨earlier, now, later, q, rfl, hq, ht⟩ := after_breaks.mp (not_exists.mp hnone)
  refine ht fun e he => ?_
  rw [(after_lawful hq).2]
  exact h _ _ (List.mem_append_left _ (arrived hq he))

/-- At its moment the alert arrived and was accepted, and no action since then removed it. -/
structure Stands (ttl : Nat) (history : List Action) (x : Acceptance) : Prop where
  came : history[x.moment]? = some (.enqueue x.alert.notification x.alert.arrival)
  accepted : ∃ q, after ttl (history.take x.moment) = .ok q ∧
    (q.enqueue x.alert.notification x.alert.arrival).1 = true
  kept : ∀ a ∈ history.drop (x.moment + 1), ¬ a.Removes ttl x.alert

namespace Stands

variable {x y : Acceptance} {a : Action}

theorem lt (h : Stands ttl history x) : x.moment < history.length :=
  (List.getElem?_eq_some_iff.mp h.came).1

theorem eq_of_moment (hx : Stands ttl history x) (hy : Stands ttl history y)
    (h : x.moment = y.moment) : x = y := by
  obtain ⟨n, ⟨nx, tx⟩⟩ := x
  obtain ⟨m, ⟨ny, ty⟩⟩ := y
  cases h
  have := hx.came.symm.trans hy.came
  simp_all

/-- A later action only has to leave the alert in. -/
theorem append_iff_of_lt (h : x.moment < history.length) :
    Stands ttl (history ++ [a]) x ↔ Stands ttl history x ∧ ¬ a.Removes ttl x.alert := by
  have hcame : (history ++ [a])[x.moment]? = history[x.moment]? := List.getElem?_append_left h
  have htake : (history ++ [a]).take x.moment = history.take x.moment :=
    List.take_append_of_le_length (Nat.le_of_lt h)
  have hdrop : (history ++ [a]).drop (x.moment + 1) = history.drop (x.moment + 1) ++ [a] :=
    List.drop_append_of_le_length h
  constructor
  · rintro ⟨came, accepted, kept⟩
    rw [hcame] at came
    rw [htake] at accepted
    rw [hdrop] at kept
    exact ⟨⟨came, accepted, fun b hb => kept b (List.mem_append_left _ hb)⟩,
      kept a (List.mem_append_right _ (List.mem_singleton_self a))⟩
  · rintro ⟨⟨came, accepted, kept⟩, hstays⟩
    refine ⟨hcame ▸ came, htake ▸ accepted, fun b hb => ?_⟩
    rw [hdrop] at hb
    rcases List.mem_append.mp hb with hb | hb
    · exact kept b hb
    · exact List.mem_singleton.mp hb ▸ hstays

/-- The last action brings in what it accepts. -/
theorem append_iff_of_eq (hq : after ttl history = .ok q) (h : x.moment = history.length) :
    Stands ttl (history ++ [a]) x ↔
      a = .enqueue x.alert.notification x.alert.arrival ∧ q.contains x.alert.id = false := by
  have hcame : (history ++ [a])[x.moment]? = some a := by simp [h]
  have htake : (history ++ [a]).take x.moment = history := by simp [h]
  constructor
  · rintro ⟨came, ⟨p, hp, accepted⟩, -⟩
    rw [htake] at hp
    obtain rfl : q = p := Except.ok.inj (hq.symm.trans hp)
    exact ⟨Option.some.inj (hcame.symm.trans came), enqueue_accepts.mp accepted⟩
  · rintro ⟨rfl, habsent⟩
    refine ⟨hcame, ⟨q, ?_, enqueue_accepts.mpr habsent⟩, by simp [h]⟩
    rw [htake]
    exact hq

theorem append_iff (hq : after ttl history = .ok q) : Stands ttl (history ++ [a]) x ↔
    Stands ttl history x ∧ ¬ a.Removes ttl x.alert ∨
      x.moment = history.length ∧ a = .enqueue x.alert.notification x.alert.arrival ∧
        q.contains x.alert.id = false := by
  constructor
  · intro hs
    have hlt : x.moment < history.length + 1 := by simpa using hs.lt
    rcases Nat.lt_or_eq_of_le (Nat.le_of_lt_succ hlt) with h | h
    · exact .inl ((append_iff_of_lt h).mp hs)
    · exact .inr ⟨h, (append_iff_of_eq hq h).mp hs⟩
  · rintro (⟨hs, hstays⟩ | ⟨h, hcame⟩)
    · exact (append_iff_of_lt hs.lt).mpr ⟨hs, hstays⟩
    · exact (append_iff_of_eq hq h).mpr hcame

end Stands

/-- The acceptances whose alerts a queue holds, in the order in which they are shown. -/
structure Lists (ttl : Nat) (history : List Action) (q : Queue) (shown : List Acceptance) : Prop where
  alerts : shown.map Acceptance.alert = q.alerts
  standing : ∀ x, x ∈ shown ↔ Stands ttl history x
  above : shown.Pairwise Acceptance.Above

namespace Lists

variable {shown : List Acceptance}

theorem start (ttl : Nat) : Lists ttl [] { ttl } [] where
  alerts := by simp [Queue.alerts, displayOrder]
  standing x := ⟨nofun, fun hs => absurd hs.lt (Nat.not_lt_zero _)⟩
  above := .nil

theorem mem_alerts (h : Lists ttl history q shown) {x : Acceptance} (hs : Stands ttl history x) :
    x.alert ∈ q.alerts := by
  rw [← h.alerts]
  exact List.mem_map_of_mem ((h.standing x).mpr hs)

/-- An action that accepts nothing takes out the alerts that it removes. -/
theorem filter (h : Lists ttl history q shown) (hq : after ttl history = .ok q) {a : Action}
    {stays : Alert → Bool} (hact : r.alerts = q.alerts.filter stays)
    (hstays : ∀ x ∈ q.alerts, stays x = true ↔ ¬ a.Removes ttl x)
    (hnone : ∀ n t, a = .enqueue n t → q.contains n.id = true) :
    Lists ttl (history ++ [a]) r (shown.filter fun x => stays x.alert) where
  alerts := by
    rw [hact, ← h.alerts, List.filter_map]
    rfl
  standing x := by
    rw [List.mem_filter, h.standing, Stands.append_iff hq]
    constructor
    · rintro ⟨hs, hx⟩
      exact .inl ⟨hs, (hstays _ (h.mem_alerts hs)).mp hx⟩
    · rintro (⟨hs, hx⟩ | ⟨-, ha, habsent⟩)
      · exact ⟨hs, (hstays _ (h.mem_alerts hs)).mpr hx⟩
      · exact absurd (hnone _ _ ha) (Bool.eq_false_iff.mp habsent)
  above := h.above.filter _

theorem accept (h : Lists ttl history q shown) (hq : after ttl history = .ok q) {n : Notification}
    (arrival : Nat) (habsent : q.contains n.id = false)
    (hact : r.alerts = Alert.place ⟨n, arrival⟩ q.alerts) :
    Lists ttl (history ++ [.enqueue n arrival]) r
      (Acceptance.place ⟨history.length, ⟨n, arrival⟩⟩ shown) where
  alerts := by rw [Acceptance.map_place, h.alerts, hact]
  standing x := by
    rw [Acceptance.mem_place, h.standing, Stands.append_iff hq]
    constructor
    · rintro (rfl | hs)
      · exact .inr ⟨rfl, rfl, habsent⟩
      · exact .inl ⟨hs, id⟩
    · rintro (⟨hs, -⟩ | ⟨hm, ha, -⟩)
      · exact .inr hs
      · obtain ⟨_, _, _⟩ := x
        cases hm
        cases ha
        exact .inl rfl
  above := Acceptance.pairwise_place h.above fun x hx => ((h.standing x).mp hx).lt

theorem step (h : Lists ttl history q shown) (hq : after ttl history = .ok q) {a : Action}
    (ha : q.act a = .ok r) : ∃ next, Lists ttl (history ++ [a]) r next := by
  obtain ⟨hlawful, httl⟩ := after_lawful hq
  obtain ⟨-, -, hact⟩ := hlawful.act ha
  rw [httl] at hact
  cases a with
  | enqueue n arrival =>
    rw [Action.onDisplay, ← contains_eq_known] at hact
    cases hc : q.contains n.id with
    | false =>
      rw [hc, if_neg Bool.false_ne_true] at hact
      exact ⟨_, h.accept hq arrival hc hact⟩
    | true =>
      rw [hc, if_pos rfl] at hact
      have hsame : r.alerts = q.alerts.filter fun _ => true := by simpa using hact
      refine ⟨_, h.filter hq hsame (fun _ _ => by simp [Action.Removes]) ?_⟩
      rintro _ _ ⟨⟩
      exact hc
  | dismiss id =>
    refine ⟨_, h.filter hq hact (fun x _ => ?_) (by rintro _ _ ⟨⟩)⟩
    rw [decide_eq_true_eq]
    exact ne_comm
  | expire now =>
    exact ⟨_, h.filter hq hact (fun x _ => by simp [Action.Removes]) (by rintro _ _ ⟨⟩)⟩

end Lists

theorem exists_lists (h : after ttl history = .ok q) : ∃ shown, Lists ttl history q shown := by
  induction history using List.reverseRecOn generalizing q with
  | nil =>
    cases h
    exact ⟨[], .start ttl⟩
  | append_singleton history a ih =>
    obtain ⟨p, hp, ha⟩ := after_concat.mp h
    obtain ⟨shown, hs⟩ := ih hp
    exact hs.step hp ha

theorem mem_alerts_after (h : after ttl history = .ok q) {a : Alert} :
    a ∈ q.alerts ↔ ∃ moment, Stands ttl history ⟨moment, a⟩ := by
  obtain ⟨shown, hl⟩ := exists_lists h
  rw [← hl.alerts, List.mem_map]
  constructor
  · rintro ⟨x, hx, rfl⟩
    exact ⟨x.moment, (hl.standing x).mp hx⟩
  · rintro ⟨moment, hs⟩
    exact ⟨_, (hl.standing _).mpr hs, rfl⟩

theorem contains_after (h : after ttl history = .ok q) :
    q.contains id = true ↔ ∃ x, Stands ttl history x ∧ x.alert.id = id := by
  rw [contains_eq_known, Alert.known_iff]
  simp only [mem_alerts_after h]
  constructor
  · rintro ⟨a, ⟨moment, hs⟩, hid⟩
    exact ⟨_, hs, hid⟩
  · rintro ⟨x, hs, hid⟩
    exact ⟨x.alert, ⟨x.moment, hs⟩, hid⟩

/-- An expiry answers the ids that it takes out. -/
theorem Lawful.mem_due_iff (h : q.Lawful) (now : Nat) :
    id ∈ q.due now ↔
      q.contains id = true ∧ (q.keep fun a => now < a.arrival + q.ttl).contains id = false := by
  constructor
  · intro hm
    obtain ⟨e, he, rfl⟩ := List.mem_map.mp hm
    obtain ⟨he, hdue⟩ := List.mem_filter.mp he
    refine ⟨contains_iff.mpr ⟨e, he, rfl⟩, contains_eq_false.mpr fun x hx hid => ?_⟩
    obtain ⟨hx, hlater⟩ := mem_keep.mp hx
    rw [h.eq_of_id hx he hid] at hlater
    exact absurd (of_decide_eq_true hdue) (Nat.not_le.mpr (of_decide_eq_true hlater))
  · rintro ⟨hc, hgone⟩
    obtain ⟨e, he, rfl⟩ := contains_iff.mp hc
    have hdue : ¬ now < e.arrival + q.ttl := fun hlater =>
      contains_eq_false.mp hgone e (mem_keep.mpr ⟨he, decide_eq_true hlater⟩) rfl
    exact List.mem_map_of_mem (List.mem_filter.mpr ⟨he, by simpa using hdue⟩)

/-- A history goes through unless an expiry of it meets an entry whose deadline the clock cannot tell;
with arrivals early enough none does. Where it goes through, an id is there if an arrival of it was
accepted and is neither dismissed nor over since; what is kept of it is that arrival. An expiry answers
the ids that it takes out, each once. The display is a listing of the entries, the latest arrival first
and of equal arrivals the one accepted later, in whatever order the entries are handed to the sorting. -/
theorem after_refines_history (ttl : Nat) (history : List Action) :
    ((∀ q, after ttl history ≠ .ok q) ↔ ∃ earlier now later q,
      history = earlier ++ .expire now :: later ∧ after ttl earlier = .ok q ∧ ¬ q.Timed) ∧
    ((∀ n t, .enqueue n t ∈ history → t + ttl ≤ lastInstant) → ∃ q, after ttl history = .ok q) ∧
    ∀ q, after ttl history = .ok q →
      (∀ id, q.contains id = true ↔ ∃ x, Stands ttl history x ∧ x.alert.id = id) ∧
      (∀ id a, (q.find? id).map Entry.alert = some a ↔
        a.id = id ∧ ∃ moment, Stands ttl history ⟨moment, a⟩) ∧
      (∀ n arrival, (q.enqueue n arrival).1 = true ↔ q.contains n.id = false) ∧
      (∀ now,
        (q.expire now = .error .overflow ↔ ∃ e ∈ q.entries, lastInstant < e.arrival + ttl) ∧
        ((∀ e ∈ q.entries, e.arrival + ttl ≤ lastInstant) → ∃ ids rest,
          q.expire now = .ok (ids, rest) ∧ ids.Nodup ∧
            ∀ id, id ∈ ids ↔ q.contains id = true ∧ rest.contains id = false)) ∧
      (q.displayOrder.map Entry.id).Nodup ∧ q.displayOrder.Perm q.entries ∧
      (∀ listing : List Entry, listing.Perm q.entries →
        listing.mergeSort (fun x y => (x.order y).isLE) = q.displayOrder) ∧
      ∃ shown : List Acceptance, shown.map Acceptance.alert = q.displayOrder.map Entry.alert ∧
        (∀ x, x ∈ shown ↔ Stands ttl history x) ∧ shown.Pairwise Acceptance.Above := by
  refine ⟨after_breaks, after_told, fun q hq => ?_⟩
  obtain ⟨hlawful, rfl⟩ := after_lawful hq
  obtain ⟨shown, hl⟩ := exists_lists hq
  refine ⟨fun id => contains_after hq, fun id a => ?_, fun n arrival => enqueue_accepts,
    fun now => ⟨?_, fun ht => ⟨_, _, hlawful.expire_timed ht now, hlawful.nodup_due now,
      fun id => hlawful.mem_due_iff now⟩⟩,
    (q.displayOrder_perm.map Entry.id).nodup_iff.mpr hlawful.distinct, q.displayOrder_perm,
    fun listing hp => ?_, shown, hl.alerts, hl.standing, hl.above⟩
  · rw [hlawful.find?_alert, mem_alerts_after hq, and_comm]
  · constructor
    · intro hbreaks
      by_contra hnone
      have ht : q.Timed := fun e he => Nat.not_lt.mp fun hlt => hnone ⟨e, he, hlt⟩
      rw [hlawful.expire_timed ht] at hbreaks
      cases hbreaks
    · rintro ⟨e, he, hlt⟩
      exact expire_untimed (fun ht => Nat.not_le.mpr hlt (ht e he)) now
  · exact hlawful.eq_displayOrder ((List.mergeSort_perm listing _).trans hp) (sorted_mergeSort listing)

/-- The repetition at 9 does not save the first alert from its end at 13; its id may then come back, here
with an instant that lies before all others. -/
example :
    let alert id : Notification := ⟨id, "", "", .info⟩
    (after 8 [.enqueue (alert "a") 5, .enqueue (alert "b") 6, .enqueue (alert "a") 9, .expire 13,
      .enqueue (alert "a") 1]).map (fun q => q.displayOrder.map fun e => (e.id, e.arrival)) =
      .ok [("b", 6), ("a", 1)] := by
  cbv

end Queue

end VoiceAdmin.Alerts
