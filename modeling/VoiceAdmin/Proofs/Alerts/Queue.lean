import Mathlib.Data.List.Sort
import VoiceAdmin.Alerts.Queue

namespace VoiceAdmin

/-- The clock tells the sum of an instant and a duration. -/
def Told (instant duration : Nat) : Prop := instant + duration ≤ lastInstant

instance (instant duration : Nat) : Decidable (Told instant duration) :=
  inferInstanceAs (Decidable (_ ≤ _))

theorem later_told {instant duration : Nat} (h : Told instant duration) :
    later instant duration = .ok (instant + duration) := if_pos h

theorem later_untold {instant duration : Nat} (h : ¬ Told instant duration) :
    later instant duration = .error .overflow := if_neg h

namespace Alerts

/-- What is done with a queue. -/
inductive Action where
  | enqueue (notification : Notification) (arrival : Nat)
  | dismiss (id : String)
  | expire (now : Nat)
deriving DecidableEq, Repr

/-- What is seen of an entry: all but its number. -/
structure Alert where
  notification : Notification
  arrival : Nat
deriving DecidableEq, Repr

namespace Alert

def id (a : Alert) : String := a.notification.id

/-- Whether an alert of an id is shown. -/
def known (id : String) (shown : List Alert) : Bool := shown.any fun a => a.id = id

theorem known_iff {id : String} {shown : List Alert} :
    known id shown = true ↔ ∃ a ∈ shown, a.id = id := by simp [known]

/-- In front of the first one that did not arrive later. -/
def place (new : Alert) (shown : List Alert) : List Alert :=
  shown.orderedInsert (fun x y => y.arrival ≤ x.arrival) new

end Alert

/-- What an action does to the alerts on the display, if it does not break off. -/
def Action.onDisplay (ttl : Nat) (shown : List Alert) : Action → List Alert
  | .enqueue n arrival =>
    if Alert.known n.id shown then shown else Alert.place ⟨n, arrival⟩ shown
  | .dismiss id => shown.filter fun a => a.id ≠ id
  | .expire now => shown.filter fun a => now < a.arrival + ttl

namespace Entry

def alert (e : Entry) : Alert := ⟨e.notification, e.arrival⟩

/-- The latest arrival is shown first; of equal arrivals, the one accepted later. -/
def Above (x y : Entry) : Prop := y.arrival < x.arrival ∨ y.arrival = x.arrival ∧ y.seq < x.seq

theorem isLE_order {x y : Entry} :
    (x.order y).isLE = true ↔ y.arrival < x.arrival ∨ y.arrival = x.arrival ∧ y.seq ≤ x.seq := by
  rw [order, Ordering.isLE_then_iff_and, Nat.isLE_compare, Nat.isLE_compare, Nat.compare_eq_lt]
  omega

end Entry

namespace Queue

/-- The clock tells the deadline of every entry. -/
def Timed (q : Queue) : Prop := ∀ e ∈ q.entries, Told e.arrival q.ttl

instance (q : Queue) : Decidable q.Timed := inferInstanceAs (Decidable (∀ _ ∈ _, _))

/-- The queue with those entries of which a test is true. -/
def keep (q : Queue) (stays : Alert → Bool) : Queue :=
  { q with entries := q.entries.filter fun e => stays e.alert }

def act (q : Queue) : Action → Except Panic Queue
  | .enqueue notification arrival => return (q.enqueue notification arrival).2
  | .dismiss id => return (q.dismiss id).2
  | .expire now => do return (← q.expire now).2

variable {q r : Queue} {e : Entry} {id : String} {now : Nat}

theorem contains_iff : q.contains id = true ↔ ∃ e ∈ q.entries, e.id = id := by
  simp [contains]

theorem contains_eq_false : q.contains id = false ↔ ∀ e ∈ q.entries, e.id ≠ id := by
  simp [contains]

theorem enqueue_absent {n : Notification} (h : q.contains n.id = false) (arrival : Nat) :
    q.enqueue n arrival = (true,
      { q with entries := ⟨n, arrival, q.nextSeq⟩ :: q.entries, nextSeq := q.nextSeq + 1 }) := by
  simp [enqueue, h]

theorem enqueue_present {n : Notification} (h : q.contains n.id = true) (arrival : Nat) :
    q.enqueue n arrival = (false, q) := by
  simp [enqueue, h]

theorem enqueue_accepts {n : Notification} {arrival : Nat} :
    (q.enqueue n arrival).1 = true ↔ q.contains n.id = false := by
  cases h : q.contains n.id with
  | false => simp [enqueue_absent h]
  | true => simp [enqueue_present h]

theorem mem_keep {stays : Alert → Bool} :
    e ∈ (q.keep stays).entries ↔ e ∈ q.entries ∧ stays e.alert = true := List.mem_filter

/-- Ids tell the entries apart, numbers do so as well, and the next number is greater than all. -/
structure Lawful (q : Queue) : Prop where
  distinct : (q.entries.map Entry.id).Nodup
  numbers : (q.entries.map Entry.seq).Nodup
  fresh : ∀ e ∈ q.entries, e.seq < q.nextSeq

theorem deadlines_timed (h : q.Timed) :
    q.deadlines = .ok (q.entries.map fun e => (e, e.arrival + q.ttl)) := by
  unfold Timed at h
  unfold deadlines
  generalize q.entries = entries at h
  induction entries with
  | nil => rfl
  | cons e rest ih =>
    obtain ⟨he, hrest⟩ := List.forall_mem_cons.mp h
    rw [List.mapM_cons, later_told he, ih hrest]
    rfl

theorem deadlines_untimed (h : ¬ q.Timed) : q.deadlines = .error .overflow := by
  unfold Timed at h
  unfold deadlines
  generalize q.entries = entries at h
  induction entries with
  | nil => simp at h
  | cons e rest ih =>
    rw [List.mapM_cons]
    by_cases he : Told e.arrival q.ttl
    · have hrest : ¬ ∀ e ∈ rest, Told e.arrival q.ttl :=
        fun hall => h (List.forall_mem_cons.mpr ⟨he, hall⟩)
      rw [later_told he, ih hrest]
      rfl
    · rw [later_untold he]
      rfl

theorem nextDeadline_timed (h : q.Timed) :
    q.nextDeadline = .ok (q.entries.map fun e => e.arrival + q.ttl).min? := by
  rw [nextDeadline, deadlines_timed h]
  simp [Function.comp_def, pure, Except.pure, bind, Except.bind]

theorem nextDeadline_untimed (h : ¬ q.Timed) : q.nextDeadline = .error .overflow := by
  rw [nextDeadline, deadlines_untimed h]
  rfl

theorem expire_untimed (h : ¬ q.Timed) (now : Nat) : q.expire now = .error .overflow := by
  rw [expire, deadlines_untimed h]
  rfl

/-- The ids of the entries whose time is up. -/
def due (q : Queue) (now : Nat) : List String :=
  (q.entries.filter fun e => e.arrival + q.ttl ≤ now).map Entry.id

theorem foldl_dismiss (ids : List String) (q : Queue) :
    ids.foldl (fun q id => (q.dismiss id).2) q =
      { q with entries := q.entries.filter fun e => e.id ∉ ids } := by
  induction ids generalizing q with
  | nil => simp
  | cons id rest ih =>
    rw [List.foldl_cons, ih, dismiss, List.filter_filter]
    congr 2
    funext e
    simp only [List.mem_cons, not_or, Bool.decide_and, Bool.and_comm]

theorem expire_eq (ht : q.Timed) (now : Nat) :
    q.expire now = .ok (q.due now, { q with entries := q.entries.filter fun e => e.id ∉ q.due now }) := by
  have hids : ((q.entries.map fun e => (e, e.arrival + q.ttl)).filter
      fun timed => timed.2 ≤ now).map (fun timed => timed.1.id) = q.due now := by
    rw [List.filter_map, List.map_map]
    rfl
  rw [expire, deadlines_timed ht]
  simp only [pure, Except.pure, bind, Except.bind, hids, foldl_dismiss]

/-- An entry whose time is up does not outlast an expiry. -/
theorem expire_shorter {ids : List String} {rest : Queue} (h : q.expire now = .ok (ids, rest))
    (he : e ∈ q.entries) (hdue : e.arrival + q.ttl ≤ now) : rest.entries.length < q.entries.length := by
  by_cases ht : q.Timed
  · rw [expire_eq ht] at h
    cases h
    refine List.length_filter_lt_length_iff_exists.mpr ⟨e, he, ?_⟩
    have hmem : e.id ∈ q.due now := List.mem_map_of_mem (List.mem_filter.mpr ⟨he, decide_eq_true hdue⟩)
    simpa using hmem
  · rw [expire_untimed ht] at h
    cases h

namespace Lawful

theorem start (ttl : Nat) : Lawful { ttl } := ⟨List.nodup_nil, List.nodup_nil, nofun⟩

theorem eq_of_id (h : q.Lawful) {x y : Entry} (hx : x ∈ q.entries) (hy : y ∈ q.entries)
    (hid : x.id = y.id) : x = y :=
  List.inj_on_of_nodup_map h.distinct hx hy hid

theorem mem_due (h : q.Lawful) (he : e ∈ q.entries) :
    e.id ∈ q.due now ↔ e.arrival + q.ttl ≤ now := by
  constructor
  · intro hm
    obtain ⟨x, hx, hid⟩ := List.mem_map.mp hm
    obtain ⟨hx, hdue⟩ := List.mem_filter.mp hx
    exact h.eq_of_id hx he hid ▸ of_decide_eq_true hdue
  · intro hdue
    exact List.mem_map_of_mem (List.mem_filter.mpr ⟨he, decide_eq_true hdue⟩)

theorem expire_timed (h : q.Lawful) (ht : q.Timed) (now : Nat) :
    q.expire now = .ok (q.due now, q.keep fun a => now < a.arrival + q.ttl) := by
  rw [expire_eq ht]
  congr 3
  refine List.filter_congr fun e he => ?_
  rw [decide_eq_decide, h.mem_due he, Nat.not_le]
  rfl

/-- What an expiry that does not break off takes out and leaves. -/
theorem expire_ok (h : q.Lawful) {ids : List String} {rest : Queue}
    (he : q.expire now = .ok (ids, rest)) :
    q.Timed ∧ ids = q.due now ∧ rest = q.keep fun a => now < a.arrival + q.ttl := by
  by_cases ht : q.Timed
  · rw [h.expire_timed ht] at he
    cases he
    exact ⟨ht, rfl, rfl⟩
  · rw [expire_untimed ht] at he
    cases he

theorem find?_eq_some (h : q.Lawful) : q.find? id = some e ↔ e ∈ q.entries ∧ e.id = id := by
  constructor
  · intro hf
    exact ⟨List.mem_of_find?_eq_some hf, by simpa using List.find?_some hf⟩
  · rintro ⟨hm, hid⟩
    cases hf : q.find? id with
    | none => exact absurd hid (by simpa using List.find?_eq_none.mp hf e hm)
    | some x =>
      have hx : x.id = id := by simpa using List.find?_some hf
      rw [h.eq_of_id (List.mem_of_find?_eq_some hf) hm (hx.trans hid.symm)]

theorem enqueue (h : q.Lawful) (n : Notification) (arrival : Nat) :
    (q.enqueue n arrival).2.Lawful := by
  cases hc : q.contains n.id with
  | true => rwa [enqueue_present hc]
  | false =>
    rw [enqueue_absent hc]
    refine ⟨List.nodup_cons.mpr ⟨fun hm => ?_, h.distinct⟩,
      List.nodup_cons.mpr ⟨fun hm => ?_, h.numbers⟩, fun e he => ?_⟩
    · obtain ⟨e, he, hid⟩ := List.mem_map.mp hm
      exact contains_eq_false.mp hc e he hid
    · obtain ⟨e, he, hseq⟩ := List.mem_map.mp hm
      exact Nat.lt_irrefl _ (hseq ▸ h.fresh e he)
    · rcases List.mem_cons.mp he with rfl | he
      · exact Nat.lt_succ_self _
      · exact Nat.lt_succ_of_lt (h.fresh e he)

theorem keep (h : q.Lawful) (stays : Alert → Bool) : (q.keep stays).Lawful where
  distinct := (List.filter_sublist.map Entry.id).nodup h.distinct
  numbers := (List.filter_sublist.map Entry.seq).nodup h.numbers
  fresh e he := h.fresh e (List.mem_of_mem_filter he)

theorem nodup_due (h : q.Lawful) (now : Nat) : (q.due now).Nodup :=
  (List.filter_sublist.map Entry.id).nodup h.distinct

end Lawful

theorem dismiss_absent {id : String} (h : q.contains id = false) : (q.dismiss id).2 = q := by
  have hall : q.entries.filter (fun e => e.id ≠ id) = q.entries :=
    List.filter_eq_self.mpr fun e he => by simpa using contains_eq_false.mp h e he
  simp only [dismiss, hall]

theorem due_eq_nil : q.due now = [] ↔ ∀ e ∈ q.entries, now < e.arrival + q.ttl := by
  simp [due]

theorem keep_eq_self {stays : Alert → Bool} (h : ∀ e ∈ q.entries, stays e.alert = true) :
    q.keep stays = q := by
  simp only [keep, List.filter_eq_self.mpr h]

theorem nextDeadline_eq_none : q.nextDeadline = .ok none ↔ q.entries = [] := by
  by_cases ht : q.Timed
  · simp [nextDeadline_timed ht]
  · rw [nextDeadline_untimed ht]
    refine ⟨nofun, fun hnil => absurd (fun e he => ?_) ht⟩
    rw [hnil] at he
    cases he

theorem nextDeadline_eq_some {deadline : Nat} :
    q.nextDeadline = .ok (some deadline) ↔ q.Timed ∧
      (∃ e ∈ q.entries, e.arrival + q.ttl = deadline) ∧
        ∀ e ∈ q.entries, deadline ≤ e.arrival + q.ttl := by
  by_cases ht : q.Timed
  · simp [nextDeadline_timed ht, List.min?_eq_some_iff, ht]
  · simp [nextDeadline_untimed ht, ht]

/-- Where the next deadline is still to come, all deadlines are. -/
theorem lt_deadline {first : Option Nat} (h : q.nextDeadline = .ok first)
    (hlater : ∀ t ∈ first, now < t) {e : Entry} (he : e ∈ q.entries) : now < e.arrival + q.ttl := by
  cases first with
  | none => exact absurd (nextDeadline_eq_none.mp h ▸ he) List.not_mem_nil
  | some t => exact Nat.lt_of_lt_of_le (hlater t rfl) ((nextDeadline_eq_some.mp h).2.2 e he)

/-- What an expiry leaves has its time still to come. -/
theorem lt_nextDeadline_keep {deadline : Nat}
    (h : (q.keep fun a => now < a.arrival + q.ttl).nextDeadline = .ok (some deadline)) :
    now < deadline := by
  obtain ⟨-, ⟨e, he, rfl⟩, -⟩ := nextDeadline_eq_some.mp h
  exact of_decide_eq_true (mem_keep.mp he).2

theorem displayOrder_perm (q : Queue) : q.displayOrder.Perm q.entries := List.mergeSort_perm _ _

theorem sorted_mergeSort (listing : List Entry) :
    (listing.mergeSort fun x y => (x.order y).isLE).Pairwise fun x y => (x.order y).isLE = true := by
  refine List.pairwise_mergeSort (fun x y z hxy hyz => ?_) (fun x y => ?_) listing
  · rw [Entry.isLE_order] at *
    omega
  · rw [Bool.or_eq_true, Entry.isLE_order, Entry.isLE_order]
    omega

theorem displayOrder_sorted (q : Queue) :
    q.displayOrder.Pairwise fun x y => (x.order y).isLE = true := sorted_mergeSort q.entries

theorem mem_displayOrder : e ∈ q.displayOrder ↔ e ∈ q.entries := q.displayOrder_perm.mem_iff

namespace Lawful

/-- Only one order of the entries is that of the display. -/
theorem eq_displayOrder (h : q.Lawful) {listing : List Entry} (hp : listing.Perm q.entries)
    (hs : listing.Pairwise fun x y => (x.order y).isLE = true) : listing = q.displayOrder := by
  refine (hp.trans q.displayOrder_perm.symm).eq_of_pairwise (fun x y hx hy hxy hyx => ?_) hs q.displayOrder_sorted
  -- Two entries that tie in the comparison have one number, and a number has one entry.
  rw [Entry.isLE_order] at hxy hyx
  exact List.inj_on_of_nodup_map h.numbers (hp.mem_iff.mp hx) (mem_displayOrder.mp hy) (by omega)

theorem displayOrder_above (h : q.Lawful) : q.displayOrder.Pairwise Entry.Above := by
  have hnumbers : q.displayOrder.Pairwise fun x y => x.seq ≠ y.seq :=
    List.pairwise_map.mp ((q.displayOrder_perm.map Entry.seq).nodup_iff.mpr h.numbers)
  refine (q.displayOrder_sorted.and hnumbers).imp fun {x y} ⟨hle, hne⟩ => ?_
  rw [Entry.isLE_order] at hle
  unfold Entry.Above
  omega

end Lawful

/-- The alerts as they are shown. -/
def alerts (q : Queue) : List Alert := q.displayOrder.map Entry.alert

theorem mem_alerts {a : Alert} : a ∈ q.alerts ↔ ∃ e ∈ q.entries, e.alert = a := by
  simp only [alerts, List.mem_map, mem_displayOrder]

theorem alert_mem (h : e ∈ q.entries) : e.alert ∈ q.alerts := mem_alerts.mpr ⟨e, h, rfl⟩

theorem contains_eq_known (q : Queue) (id : String) : q.contains id = Alert.known id q.alerts := by
  rw [Bool.eq_iff_iff, contains_iff, Alert.known_iff]
  constructor
  · rintro ⟨e, he, hid⟩
    exact ⟨e.alert, alert_mem he, hid⟩
  · rintro ⟨a, ha, hid⟩
    obtain ⟨e, he, rfl⟩ := mem_alerts.mp ha
    exact ⟨e, he, hid⟩

theorem timed_iff : q.Timed ↔ ∀ a ∈ q.alerts, Told a.arrival q.ttl := by
  constructor
  · intro h a ha
    obtain ⟨e, he, rfl⟩ := mem_alerts.mp ha
    exact h e he
  · exact fun h e he => h e.alert (alert_mem he)

theorem length_alerts (q : Queue) : q.alerts.length = q.entries.length := by
  rw [alerts, List.length_map, q.displayOrder_perm.length_eq]

/-- The place that a new entry takes is the one that its arrival and its number give it. -/
theorem sorted_insert {new : Entry} {shown : List Entry}
    (h : shown.Pairwise fun x y => (x.order y).isLE = true) (hnew : ∀ e ∈ shown, e.seq < new.seq) :
    (shown.orderedInsert (fun x y => y.arrival ≤ x.arrival) new).Pairwise
      fun x y => (x.order y).isLE = true := by
  induction shown with
  | nil => exact List.pairwise_singleton _ _
  | cons x rest ih =>
    obtain ⟨hx, hrest⟩ := List.pairwise_cons.mp h
    by_cases harrival : x.arrival ≤ new.arrival
    · rw [List.orderedInsert_cons, if_pos harrival]
      refine List.pairwise_cons.mpr ⟨fun y hy => Entry.isLE_order.mpr ?_, h⟩
      have hseq := hnew y hy
      rcases List.mem_cons.mp hy with rfl | hy
      · omega
      · have := Entry.isLE_order.mp (hx y hy)
        omega
    · rw [List.orderedInsert_cons, if_neg harrival]
      refine List.pairwise_cons.mpr ⟨fun y hy => ?_, ih hrest fun y hy => hnew y (.tail _ hy)⟩
      rcases (List.mem_orderedInsert _).mp hy with rfl | hy
      · exact Entry.isLE_order.mpr (.inl (Nat.lt_of_not_le harrival))
      · exact hx y hy

namespace Lawful

theorem find?_alert (h : q.Lawful) {id : String} {a : Alert} :
    (q.find? id).map Entry.alert = some a ↔ a ∈ q.alerts ∧ a.id = id := by
  rw [Option.map_eq_some_iff, mem_alerts]
  simp only [h.find?_eq_some]
  constructor
  · rintro ⟨e, ⟨he, hid⟩, rfl⟩
    exact ⟨⟨e, he, rfl⟩, hid⟩
  · rintro ⟨⟨e, he, rfl⟩, hid⟩
    exact ⟨e, ⟨he, hid⟩, rfl⟩

theorem displayOrder_keep (h : q.Lawful) (stays : Alert → Bool) :
    (q.keep stays).displayOrder = q.displayOrder.filter fun e => stays e.alert :=
  ((h.keep stays).eq_displayOrder (q.displayOrder_perm.filter _) (q.displayOrder_sorted.filter _)).symm

theorem alerts_keep (h : q.Lawful) (stays : Alert → Bool) :
    (q.keep stays).alerts = q.alerts.filter stays := by
  rw [alerts, h.displayOrder_keep, alerts, List.filter_map]
  rfl

theorem alerts_enqueue (h : q.Lawful) {n : Notification} (hc : q.contains n.id = false)
    (arrival : Nat) : (q.enqueue n arrival).2.alerts = Alert.place ⟨n, arrival⟩ q.alerts := by
  have hlawful := h.enqueue n arrival
  rw [enqueue_absent hc] at hlawful ⊢
  have hlisting := hlawful.eq_displayOrder
    ((List.perm_orderedInsert (fun x y : Entry => y.arrival ≤ x.arrival) _ _).trans
      (q.displayOrder_perm.cons _))
    (sorted_insert q.displayOrder_sorted fun e he => h.fresh e (mem_displayOrder.mp he))
  rw [alerts, ← hlisting]
  exact List.map_orderedInsert _ _ _ _ _ (fun _ _ => Iff.rfl) (fun _ _ => Iff.rfl)

/-- What an expiry that does not break off leaves. -/
theorem act_expire (h : q.Lawful) (ha : q.act (.expire now) = .ok r) :
    q.Timed ∧ r = q.keep fun a => now < a.arrival + q.ttl := by
  by_cases ht : q.Timed
  · rw [Queue.act, h.expire_timed ht] at ha
    cases ha
    exact ⟨ht, rfl⟩
  · rw [Queue.act, expire_untimed ht] at ha
    cases ha

/-- The display after an action follows from the display before it. -/
theorem act (h : q.Lawful) {a : Action} (ha : q.act a = .ok r) :
    r.Lawful ∧ r.ttl = q.ttl ∧ r.alerts = a.onDisplay q.ttl q.alerts := by
  cases a with
  | enqueue n arrival =>
    cases ha
    refine ⟨h.enqueue n arrival, ?_⟩
    rw [Action.onDisplay, ← contains_eq_known]
    cases hc : q.contains n.id with
    | true => exact ⟨by rw [enqueue_present hc], by rw [enqueue_present hc, if_pos rfl]⟩
    | false => exact ⟨by rw [enqueue_absent hc], by rw [h.alerts_enqueue hc, if_neg Bool.false_ne_true]⟩
  | dismiss id =>
    cases ha
    exact ⟨h.keep fun a => a.id ≠ id, rfl, h.alerts_keep fun a => a.id ≠ id⟩
  | expire now =>
    obtain ⟨-, rfl⟩ := h.act_expire ha
    exact ⟨h.keep fun a => now < a.arrival + q.ttl, rfl,
      h.alerts_keep fun a => now < a.arrival + q.ttl⟩

/-- What is newly there was enqueued. -/
theorem mem_act (h : q.Lawful) {a : Action} (ha : q.act a = .ok r) (he : e ∈ r.entries) :
    e ∈ q.entries ∨ a = .enqueue e.notification e.arrival := by
  cases a with
  | enqueue n arrival =>
    cases ha
    cases hc : q.contains n.id with
    | true =>
      rw [enqueue_present hc] at he
      exact .inl he
    | false =>
      rw [enqueue_absent hc] at he
      rcases List.mem_cons.mp he with rfl | he
      · exact .inr rfl
      · exact .inl he
  | dismiss id =>
    cases ha
    exact .inl (List.mem_of_mem_filter he)
  | expire now =>
    obtain ⟨-, rfl⟩ := h.act_expire ha
    exact .inl (List.mem_of_mem_filter he)

/-- Only an expiry breaks off, and only when it meets an entry whose deadline the clock cannot tell. -/
theorem act_breaks (h : q.Lawful) {a : Action} :
    (∀ r, q.act a ≠ .ok r) ↔ (∃ now, a = .expire now) ∧ ¬ q.Timed := by
  cases a with
  | enqueue n arrival => simp [Queue.act, pure, Except.pure]
  | dismiss id => simp [Queue.act, pure, Except.pure]
  | expire now =>
    by_cases ht : q.Timed
    · simp [Queue.act, h.expire_timed ht, ht, pure, Except.pure, bind, Except.bind]
    · simp [Queue.act, expire_untimed ht, ht, bind, Except.bind]

end Lawful

end Queue

end Alerts

end VoiceAdmin
