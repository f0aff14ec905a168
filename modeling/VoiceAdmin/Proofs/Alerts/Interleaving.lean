import VoiceAdmin.Proofs.Alerts.History

namespace VoiceAdmin.Alerts

namespace Alert

/-- No alert arrived later than one that is shown before it. -/
def Sorted (shown : List Alert) : Prop := shown.Pairwise fun x y => y.arrival ≤ x.arrival

theorem place_cons (new a : Alert) (rest : List Alert) :
    place new (a :: rest) =
      if a.arrival ≤ new.arrival then new :: a :: rest else a :: place new rest :=
  List.orderedInsert_cons _ _ _ _

theorem mem_place {new a : Alert} {shown : List Alert} :
    a ∈ place new shown ↔ a = new ∨ a ∈ shown := List.mem_orderedInsert _

theorem place_first {new : Alert} {shown : List Alert} (h : ∀ a ∈ shown, a.arrival ≤ new.arrival) :
    place new shown = new :: shown := by
  cases shown with
  | nil => rfl
  | cons a rest => rw [place_cons, if_pos (h a List.mem_cons_self)]

theorem place_lt {x y : Alert} (h : x.arrival < y.arrival) (shown : List Alert) :
    place x (place y shown) = place y (place x shown) := by
  have hxy : x.arrival ≤ y.arrival := Nat.le_of_lt h
  have hyx : ¬ y.arrival ≤ x.arrival := Nat.not_le.mpr h
  induction shown with
  | nil => simp [place, hxy, hyx]
  | cons a rest ih =>
    by_cases hay : a.arrival ≤ y.arrival
    · -- The later alert comes first, whether the earlier one goes before or after what was first.
      by_cases hax : a.arrival ≤ x.arrival
      · simp [place_cons, hxy, hyx, hay, hax]
      · simp [place_cons, hyx, hay, hax]
    · have hax : ¬ a.arrival ≤ x.arrival := by omega
      simp only [place_cons, if_neg hay, if_neg hax, ih]

/-- Alerts of different instants are placed in either order. -/
theorem place_comm {x y : Alert} (h : x.arrival ≠ y.arrival) (shown : List Alert) :
    place x (place y shown) = place y (place x shown) := by
  rcases Nat.lt_or_gt_of_ne h with hlt | hgt
  · exact place_lt hlt shown
  · exact (place_lt hgt shown).symm

/-- An alert is placed before or after others are taken out. -/
theorem filter_place {new : Alert} {shown : List Alert} {stays : Alert → Bool} (h : Sorted shown)
    (hstays : stays new = true) :
    (place new shown).filter stays = place new (shown.filter stays) := by
  induction shown with
  | nil => simp [place, hstays]
  | cons a rest ih =>
    obtain ⟨hfirst, hrest⟩ := List.pairwise_cons.mp h
    by_cases hplace : a.arrival ≤ new.arrival
    · have hall : ∀ b ∈ (a :: rest).filter stays, b.arrival ≤ new.arrival := by
        intro b hb
        rcases List.mem_cons.mp (List.mem_of_mem_filter hb) with rfl | hb
        · exact hplace
        · exact Nat.le_trans (hfirst b hb) hplace
      rw [place_first hall, place_cons, if_pos hplace, List.filter_cons_of_pos hstays]
    · rw [place_cons, if_neg hplace]
      cases ha : stays a with
      | true =>
        rw [List.filter_cons_of_pos ha, List.filter_cons_of_pos ha, place_cons, if_neg hplace,
          ih hrest]
      | false =>
        have ha : ¬ stays a = true := Bool.eq_false_iff.mp ha
        rw [List.filter_cons_of_neg ha, List.filter_cons_of_neg ha, ih hrest]

theorem filter_place_of_not {new : Alert} {stays : Alert → Bool} (hgoes : ¬ stays new = true)
    (shown : List Alert) : (place new shown).filter stays = shown.filter stays := by
  induction shown with
  | nil => rw [place, List.orderedInsert_nil, List.filter_cons_of_neg hgoes]
  | cons a rest ih =>
    rw [place_cons]
    split
    · exact List.filter_cons_of_neg hgoes
    · rw [List.filter_cons, ih, ← List.filter_cons]

theorem known_filter {id : String} {shown : List Alert} {stays : Alert → Bool}
    (h : ∀ a ∈ shown, a.id = id → stays a = true) : known id (shown.filter stays) = known id shown := by
  rw [Bool.eq_iff_iff, known_iff, known_iff]
  constructor
  · rintro ⟨a, ha, hid⟩
    exact ⟨a, List.mem_of_mem_filter ha, hid⟩
  · rintro ⟨a, ha, hid⟩
    exact ⟨a, List.mem_filter.mpr ⟨ha, h a ha hid⟩, hid⟩

end Alert

namespace Action

open Alert (Sorted known place)

variable {ttl : Nat} {shown : List Alert}

theorem onDisplay_known {n : Notification} (h : known n.id shown = true) (arrival : Nat) :
    (Action.enqueue n arrival).onDisplay ttl shown = shown := if_pos h

theorem onDisplay_unknown {n : Notification} (h : known n.id shown = false) (arrival : Nat) :
    (Action.enqueue n arrival).onDisplay ttl shown = place ⟨n, arrival⟩ shown :=
  if_neg (Bool.eq_false_iff.mp h)

theorem known_enqueue_other {n : Notification} {id : String} (h : n.id ≠ id) (arrival : Nat) :
    known id ((Action.enqueue n arrival).onDisplay ttl shown) = known id shown := by
  cases hn : known n.id shown with
  | true => rw [onDisplay_known hn]
  | false =>
    rw [Bool.eq_iff_iff, Alert.known_iff, Alert.known_iff, onDisplay_unknown hn]
    simp only [Alert.mem_place]
    constructor
    · rintro ⟨a, rfl | ha, hid⟩
      · exact absurd hid h
      · exact ⟨a, ha, hid⟩
    · rintro ⟨a, ha, hid⟩
      exact ⟨a, .inr ha, hid⟩

/-- An arrival passes a test that neither it nor an alert of its id fails. -/
theorem filter_enqueue (hs : Sorted shown) {n : Notification} {arrival : Nat} {stays : Alert → Bool}
    (hnew : stays ⟨n, arrival⟩ = true) (hsame : ∀ a ∈ shown, a.id = n.id → stays a = true) :
    ((Action.enqueue n arrival).onDisplay ttl shown).filter stays =
      (Action.enqueue n arrival).onDisplay ttl (shown.filter stays) := by
  have hknown := Alert.known_filter hsame
  cases h : known n.id shown with
  | true => rw [onDisplay_known h, onDisplay_known (hknown.trans h)]
  | false =>
    rw [onDisplay_unknown h, onDisplay_unknown (hknown.trans h)]
    exact Alert.filter_place hs hnew

/-- Arrivals of different ids do not see each other, unless their instants are the same: then the display
shows which came later. -/
theorem enqueue_comm {n m : Notification} {s t : Nat} (hids : n.id ≠ m.id) (hinstants : s ≠ t) :
    (Action.enqueue m t).onDisplay ttl ((Action.enqueue n s).onDisplay ttl shown) =
      (Action.enqueue n s).onDisplay ttl ((Action.enqueue m t).onDisplay ttl shown) := by
  have hm : known m.id ((Action.enqueue n s).onDisplay ttl shown) = known m.id shown :=
    known_enqueue_other hids s
  have hn : known n.id ((Action.enqueue m t).onDisplay ttl shown) = known n.id shown :=
    known_enqueue_other hids.symm t
  cases hkn : known n.id shown with
  | true => rw [onDisplay_known hkn, onDisplay_known (hn.trans hkn)]
  | false =>
    cases hkm : known m.id shown with
    | true => rw [onDisplay_known hkm, onDisplay_known (hm.trans hkm)]
    | false =>
      rw [onDisplay_unknown (hm.trans hkm), onDisplay_unknown (hn.trans hkn),
        onDisplay_unknown hkn, onDisplay_unknown hkm]
      exact Alert.place_comm hinstants.symm shown

theorem filter_comm (f g : Alert → Bool) (shown : List Alert) :
    (shown.filter f).filter g = (shown.filter g).filter f := by
  simp only [List.filter_filter, Bool.and_comm]

end Action

namespace Queue

open Alert (Sorted)

variable {p q r : Queue} {ttl : Nat}

theorem Lawful.sorted_alerts (h : q.Lawful) : Sorted q.alerts := by
  refine List.pairwise_map.mpr (h.displayOrder_above.imp fun {x y} habove => ?_)
  rcases habove with hlater | ⟨hsame, -⟩
  · exact Nat.le_of_lt hlater
  · exact Nat.le_of_eq hsame

/-- Two actions of which neither touches what the other looks at. -/
inductive Independent (q : Queue) : Action → Action → Prop where
  | arrivals {n m : Notification} {s t : Nat} (ids : n.id ≠ m.id) (instants : s ≠ t) :
    Independent q (.enqueue n s) (.enqueue m t)
  | arrivalDismissal {n : Notification} {id : String} (ids : n.id ≠ id) (arrival : Nat) :
    Independent q (.enqueue n arrival) (.dismiss id)
  | dismissals (id other : String) : Independent q (.dismiss id) (.dismiss other)
  | expiries (now other : Nat) : Independent q (.expire now) (.expire other)
  | expiryDismissal (now : Nat) (id : String) : Independent q (.expire now) (.dismiss id)
  | expiryArrival {n : Notification} {now arrival : Nat} (early : now < arrival + q.ttl)
      (stays : ∀ e ∈ q.entries, e.id = n.id → now < e.arrival + q.ttl) :
    Independent q (.expire now) (.enqueue n arrival)
  | symm {a b : Action} : Independent q a b → Independent q b a

theorem Independent.onDisplay_comm {a b : Action} (h : q.Independent a b) (hq : q.Lawful) :
    b.onDisplay q.ttl (a.onDisplay q.ttl q.alerts) = a.onDisplay q.ttl (b.onDisplay q.ttl q.alerts) := by
  have hs := hq.sorted_alerts
  induction h with
  | arrivals ids instants => exact Action.enqueue_comm ids instants
  | arrivalDismissal ids arrival =>
    refine Action.filter_enqueue hs (decide_eq_true ids) fun a _ hid => decide_eq_true ?_
    rw [hid]
    exact ids
  | dismissals id other => exact Action.filter_comm _ _ _
  | expiries now other => exact Action.filter_comm _ _ _
  | expiryDismissal now id => exact Action.filter_comm _ _ _
  | @expiryArrival n now arrival early stays =>
    refine (Action.filter_enqueue hs (decide_eq_true early) fun a ha hid => decide_eq_true ?_).symm
    obtain ⟨e, he, rfl⟩ := mem_alerts.mp ha
    exact stays e he hid
  | symm _ ih => exact ih.symm

/-- Two queues that cannot be told apart: the numbers of their entries are not seen. -/
structure Alike (p q : Queue) : Prop where
  contains : ∀ id, p.contains id = q.contains id
  stored : ∀ id, (p.find? id).map Entry.alert = (q.find? id).map Entry.alert
  display : p.displayOrder.map Entry.alert = q.displayOrder.map Entry.alert
  length : p.entries.length = q.entries.length
  nextDeadline : p.nextDeadline = q.nextDeadline

/-- Two queues that show the same alerts for the same time. -/
structure Matches (p q : Queue) : Prop where
  left : p.Lawful
  right : q.Lawful
  ttl : p.ttl = q.ttl
  alerts : p.alerts = q.alerts

theorem nextDeadline_alerts (h : q.Timed) :
    q.nextDeadline = .ok (q.alerts.map fun a => a.arrival + q.ttl).min? := by
  rw [nextDeadline_timed h, alerts, List.map_map]
  refine congrArg Except.ok (Option.ext fun deadline => ?_)
  simp only [List.min?_eq_some_iff, List.mem_map, mem_displayOrder]
  rfl

namespace Matches

theorem symm (h : p.Matches q) : q.Matches p := ⟨h.right, h.left, h.ttl.symm, h.alerts.symm⟩

theorem timed (h : p.Matches q) : p.Timed ↔ q.Timed := by
  rw [timed_iff, timed_iff, h.alerts, h.ttl]

theorem alike (h : p.Matches q) : p.Alike q where
  contains id := by rw [contains_eq_known, contains_eq_known, h.alerts]
  stored id := Option.ext fun a => by
    rw [h.left.find?_alert, h.right.find?_alert, h.alerts]
  display := h.alerts
  length := by rw [← length_alerts, ← length_alerts, h.alerts]
  nextDeadline := by
    by_cases ht : p.Timed
    · rw [nextDeadline_alerts ht, nextDeadline_alerts (h.timed.mp ht), h.alerts, h.ttl]
    · rw [nextDeadline_untimed ht, nextDeadline_untimed (mt h.timed.mpr ht)]

/-- What one of the two can do the other can do as well, and they match again. -/
theorem act (h : p.Matches q) {a : Action} (ha : p.act a = .ok r) :
    ∃ s, q.act a = .ok s ∧ r.Matches s := by
  obtain ⟨hr, hrttl, hralerts⟩ := h.left.act ha
  have hgoes : ∃ s, q.act a = .ok s := by
    by_contra hnone
    obtain ⟨hexpire, ht⟩ := h.right.act_breaks.mp (not_exists.mp hnone)
    exact h.left.act_breaks.mpr ⟨hexpire, mt h.timed.mp ht⟩ r ha
  obtain ⟨s, hs⟩ := hgoes
  obtain ⟨hslawful, hsttl, hsalerts⟩ := h.right.act hs
  exact ⟨s, hs, hr, hslawful, by rw [hrttl, hsttl, h.ttl], by rw [hralerts, hsalerts, h.ttl, h.alerts]⟩

theorem run (h : p.Matches q) (more : List Action) (hr : more.foldlM Queue.act p = .ok r) :
    ∃ s, more.foldlM Queue.act q = .ok s ∧ r.Matches s := by
  induction more generalizing p q with
  | nil =>
    cases hr
    exact ⟨q, rfl, h⟩
  | cons a more ih =>
    rw [List.foldlM_cons] at hr ⊢
    cases hp : p.act a with
    | error e =>
      rw [hp] at hr
      cases hr
    | ok p' =>
      rw [hp] at hr
      obtain ⟨q', hq', hmatch⟩ := h.act hp
      rw [hq']
      exact ih hmatch hr

end Matches

/-- Two actions one after another go through when each does. -/
theorem after_pair {history : List Action} (hq : after ttl history = .ok q) {a b : Action} :
    after ttl (history ++ [a, b]) = .ok r ↔ ∃ p, q.act a = .ok p ∧ p.act b = .ok r := by
  rw [show history ++ [a, b] = history ++ [a] ++ [b] by simp, after_concat]
  simp only [after_concat, hq, Except.ok.injEq, exists_eq_left']

theorem after_more {history : List Action} (hq : after ttl history = .ok q) (more : List Action) :
    after ttl (history ++ more) = more.foldlM act q := by
  rw [after_append, hq]
  rfl

/-- Two independent actions lead to the same display in either order. -/
theorem Independent.matches {history : List Action} (hq : after ttl history = .ok q) {a b : Action}
    (h : q.Independent a b) {x y : Queue} (hx : after ttl (history ++ [a, b]) = .ok x)
    (hy : after ttl (history ++ [b, a]) = .ok y) : x.Matches y := by
  obtain ⟨hlawful, -⟩ := after_lawful hq
  obtain ⟨p, hp, hx⟩ := (after_pair hq).mp hx
  obtain ⟨r, hr, hy⟩ := (after_pair hq).mp hy
  obtain ⟨hpl, hpttl, hpalerts⟩ := hlawful.act hp
  obtain ⟨hxl, hxttl, hxalerts⟩ := hpl.act hx
  obtain ⟨hrl, hrttl, hralerts⟩ := hlawful.act hr
  obtain ⟨hyl, hyttl, hyalerts⟩ := hrl.act hy
  refine ⟨hxl, hyl, by rw [hxttl, hpttl, hyttl, hrttl], ?_⟩
  rw [hxalerts, hyalerts, hpttl, hrttl, hpalerts, hralerts]
  exact h.onDisplay_comm hlawful

/-- Two independent actions may be swapped anywhere in a history: nobody can tell the queues apart then,
nor after anything that is done to them later, and what breaks off for one of them does so for the other.
Both orders go through if the clock can tell the deadlines of all that has arrived; else one of them may
break off, at an expiry that meets an entry which the other order has dismissed or not yet taken in. -/
theorem after_swap {history : List Action} (hq : after ttl history = .ok q) {a b : Action}
    (h : q.Independent a b) :
    (∀ x y, after ttl (history ++ [a, b]) = .ok x → after ttl (history ++ [b, a]) = .ok y →
      x.Alike y ∧ ∀ more,
        (∀ r, after ttl (history ++ [a, b] ++ more) = .ok r →
          ∃ s, after ttl (history ++ [b, a] ++ more) = .ok s ∧ r.Alike s) ∧
        ∀ s, after ttl (history ++ [b, a] ++ more) = .ok s →
          ∃ r, after ttl (history ++ [a, b] ++ more) = .ok r ∧ r.Alike s) ∧
    ((∀ n t, .enqueue n t ∈ history ++ [a, b] → t + ttl ≤ lastInstant) →
      ∃ x y, after ttl (history ++ [a, b]) = .ok x ∧ after ttl (history ++ [b, a]) = .ok y) := by
  refine ⟨fun x y hx hy => ?_, fun htold => ?_⟩
  · have hmatch := h.matches hq hx hy
    refine ⟨hmatch.alike, fun more => ⟨fun r hr => ?_, fun s hs => ?_⟩⟩
    · rw [after_more hx] at hr
      obtain ⟨s, hs, hrs⟩ := hmatch.run more hr
      exact ⟨s, by rw [after_more hy, hs], hrs.alike⟩
    · rw [after_more hy] at hs
      obtain ⟨r, hr, hsr⟩ := hmatch.symm.run more hs
      exact ⟨r, by rw [after_more hx, hr], hsr.symm.alike⟩
  · obtain ⟨x, hx⟩ := after_told htold
    have hswapped : ∀ n t, .enqueue n t ∈ history ++ [b, a] → Told t ttl := by
      intro n t hm
      refine htold n t ?_
      simp only [List.mem_append, List.mem_cons, List.not_mem_nil, or_false] at hm ⊢
      exact hm.imp_right Or.symm
    obtain ⟨y, hy⟩ := after_told hswapped
    exact ⟨x, y, hx, hy⟩

/-- The two arrivals get their numbers in the order in which they come, and nobody sees it. -/
theorem after_swap_numbers :
    let alert id : Notification := ⟨id, "", "", .info⟩
    let history := [.enqueue (alert "a") 5, .enqueue (alert "b") 1]
    let more := [.expire 9, .enqueue (alert "b") 6]
    ∃ q r s, after 8 history = .ok q ∧ q.Independent (.enqueue (alert "c") 6) (.enqueue (alert "d") 7) ∧
      after 8 (history ++ [.enqueue (alert "c") 6, .enqueue (alert "d") 7] ++ more) = .ok r ∧
      after 8 (history ++ [.enqueue (alert "d") 7, .enqueue (alert "c") 6] ++ more) = .ok s ∧
      (r.find? "c").map Entry.seq = some 2 ∧ (s.find? "c").map Entry.seq = some 3 ∧ r.Alike s := by
  intro alert history more
  have hq : after 8 history = .ok ⟨8, [⟨alert "b", 1, 1⟩, ⟨alert "a", 5, 0⟩], 2⟩ := by decide
  have h : (Queue.mk 8 [⟨alert "b", 1, 1⟩, ⟨alert "a", 5, 0⟩] 2).Independent
    (.enqueue (alert "c") 6) (.enqueue (alert "d") 7) := .arrivals (by decide) (by decide)
  have hx : after 8 (history ++ [.enqueue (alert "c") 6, .enqueue (alert "d") 7]) = .ok
    ⟨8, [⟨alert "d", 7, 3⟩, ⟨alert "c", 6, 2⟩, ⟨alert "b", 1, 1⟩, ⟨alert "a", 5, 0⟩], 4⟩ := by decide
  have hy : after 8 (history ++ [.enqueue (alert "d") 7, .enqueue (alert "c") 6]) = .ok
    ⟨8, [⟨alert "c", 6, 3⟩, ⟨alert "d", 7, 2⟩, ⟨alert "b", 1, 1⟩, ⟨alert "a", 5, 0⟩], 4⟩ := by decide
  have hr : after 8 (history ++ [.enqueue (alert "c") 6, .enqueue (alert "d") 7] ++ more) = .ok
    ⟨8, [⟨alert "b", 6, 4⟩, ⟨alert "d", 7, 3⟩, ⟨alert "c", 6, 2⟩, ⟨alert "a", 5, 0⟩], 5⟩ := by decide
  have hs : after 8 (history ++ [.enqueue (alert "d") 7, .enqueue (alert "c") 6] ++ more) = .ok
    ⟨8, [⟨alert "b", 6, 4⟩, ⟨alert "c", 6, 3⟩, ⟨alert "d", 7, 2⟩, ⟨alert "a", 5, 0⟩], 5⟩ := by decide
  obtain ⟨s, hs', halike⟩ := (((after_swap hq h).1 _ _ hx hy).2 more).1 _ hr
  obtain rfl := Except.ok.inj (hs.symm.trans hs')
  exact ⟨_, _, _, hq, h, hr, hs, by decide, by decide, halike⟩

end Queue

end VoiceAdmin.Alerts
