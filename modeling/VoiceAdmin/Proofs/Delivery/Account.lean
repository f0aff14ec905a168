import Mathlib.Data.List.TakeWhile
import VoiceAdmin.Proofs.Delivery.Continuity
import VoiceAdmin.Proofs.Recording

namespace VoiceAdmin.Delivery

/-- Something that happened to a registry. -/
inductive Fact where
  | subscribed (topic : Topic) (id : Nat)
  | published (topic : Topic) (payload : Json)
  | received (id : Nat) (payload : Json)
  | released (id : Nat)
  | closed (topic : Topic)

namespace Fact

/-- Whether it ends the delivery to a subscription on a topic. -/
def ends (topic : Topic) (id : Nat) : Fact → Bool
  | .released i => i == id
  | .closed t => t == topic
  | _ => false

def payloadOn (topic : Topic) : Fact → Option Json
  | .published t payload => if t = topic then some payload else none
  | _ => none

def receivedBy (id : Nat) : Fact → Option Json
  | .received i payload => if i = id then some payload else none
  | _ => none

/-- The subscription that is made. -/
def made : Fact → Option Nat
  | .subscribed _ id => some id
  | _ => none

/-- The subscription that is made on a topic. -/
def madeOn (topic : Topic) : Fact → Option Nat
  | .subscribed t id => if t = topic then some id else none
  | _ => none

end Fact

/-- What is published on a topic up to the end of a subscription. -/
def due (topic : Topic) (id : Nat) (later : List Fact) : List Json :=
  (later.takeWhile fun f => !f.ends topic id).filterMap (Fact.payloadOn topic)

/-- What the owner of a subscription took out of it. -/
def received (id : Nat) (later : List Fact) : List Json :=
  later.filterMap (Fact.receivedBy id)

/-- The subscriptions on a topic that have not come to their end, in the order in which they were made. -/
def standing (topic : Topic) : List Fact → List Nat
  | [] => []
  | f :: later =>
    (f.madeOn topic).toList.filter (fun id => !later.any (Fact.ends topic id)) ++ standing topic later

section Account

variable {topic : Topic} {id : Nat} {later : List Fact} {f : Fact}

theorem due_append_open (h : later.any (Fact.ends topic id) = false) :
    due topic id (later ++ [f]) = due topic id later ++ (f.payloadOn topic).toList := by
  have hall : ∀ g ∈ later, (!g.ends topic id) = true := by simpa using h
  rw [due, due, List.takeWhile_append_of_pos hall, List.takeWhile_eq_self_iff.mpr hall,
    List.filterMap_append]
  congr 1
  cases f with
  | published t payload =>
    by_cases ht : t = topic <;> simp [Fact.ends, Fact.payloadOn, ht]
  | released i => cases hi : i == id <;> simp [Fact.ends, Fact.payloadOn, hi]
  | closed t => cases ht : t == topic <;> simp [Fact.ends, Fact.payloadOn, ht]
  | _ => rfl

/-- Nothing is due any more once a subscription has come to its end. -/
theorem due_append_ended (h : later.any (Fact.ends topic id) = true) :
    due topic id (later ++ [f]) = due topic id later := by
  obtain ⟨g, hg, hends⟩ := List.any_eq_true.mp h
  have hshort : ¬ (later.takeWhile fun f => !f.ends topic id).length = later.length := by
    intro hlength
    have hself := (List.takeWhile_prefix _).eq_of_length hlength
    have hnot := List.takeWhile_eq_self_iff.mp hself g hg
    simp [hends] at hnot
  rw [due, due, List.takeWhile_append, if_neg hshort]

/-- Only a publication on the topic can add to what is due. -/
theorem due_append_of_payloadOn (h : f.payloadOn topic = none) :
    due topic id (later ++ [f]) = due topic id later := by
  cases hends : later.any (Fact.ends topic id) with
  | true => exact due_append_ended hends
  | false => rw [due_append_open hends, h, Option.toList_none, List.append_nil]

theorem received_append : received id (later ++ [f]) = received id later ++ (f.receivedBy id).toList :=
  filterMap_concat _ later f

/-- A subscription joins the others, or some of them come to their end. -/
theorem standing_append (topic : Topic) (facts : List Fact) (f : Fact) :
    standing topic (facts ++ [f]) =
      ((standing topic facts).filter fun id => !f.ends topic id) ++ (f.madeOn topic).toList := by
  induction facts with
  | nil =>
    cases f <;> simp [standing]
  | cons g later ih =>
    rw [List.cons_append, standing, ih, standing, List.filter_append, List.append_assoc, List.filter_filter]
    congr 1
    apply List.filter_congr
    intro id _
    simp [Bool.and_comm]

end Account

namespace Registry

/-- What a fact makes of a registry. -/
inductive Step : Registry → Fact → Registry → Prop where
  | subscribed (r : Registry) (topic : Topic) :
    Step r (.subscribed topic r.nextId) (r.subscribe topic).2
  | published (r : Registry) (topic : Topic) (payload : Json) :
    Step r (.published topic payload) (r.emit topic payload)
  | received {r next : Registry} {id : Nat} {payload : Json}
      (given : r.receive id = (.payload payload, next)) : Step r (.received id payload) next
  | released (r : Registry) (id : Nat) : Step r (.released id) (r.release id)
  | closed (r : Registry) (topic : Topic) : Step r (.closed topic) (r.closeTopic topic).2

/-- A registry with all that happened to it since it was empty. -/
inductive Reached : List Fact → Registry → Prop where
  | empty : Reached [] {}
  | step {facts : List Fact} {r next : Registry} {f : Fact} (h : Reached facts r)
      (hs : Step r f next) : Reached (facts ++ [f]) next

/-- The ids of the subscriptions registered on a topic, in the order in which they were made. -/
def registered (r : Registry) (topic : Topic) : List Nat :=
  (r.members.filter (registeredOn topic)).map Member.id

/-- What holds of a registry at any time. -/
structure Tidy (r : Registry) : Prop extends r.Lawful where
  /-- Whoever is registered still has its owner, -/
  held : ∀ m ∈ r.members, m.subscription.senderOpen = true → m.subscription.held = true
  /-- and its topic was not closed since. -/
  opened : ∀ m ∈ r.members, m.subscription.senderOpen = true → m.subscription.topic ∈ r.opened

variable {r next : Registry} {f : Fact} {id : Nat} {topic : Topic} {facts : List Fact}

theorem count_eq_length (r : Registry) (topic : Topic) : r.count topic = (r.registered topic).length := by
  rw [count, registered, List.length_map, List.countP_eq_length_filter]

/-- A payload that is taken was the first in the queue. -/
theorem receive_payload {payload : Json} (h : r.receive id = (.payload payload, next)) :
    ∃ s rest, r.find? id = some s ∧ s.held = true ∧ s.pending = payload :: rest ∧
      next = r.update id fun _ => { s with pending := rest } := by
  unfold receive at h
  cases hf : r.find? id with
  | none => simp [hf] at h
  | some s =>
    simp only [hf] at h
    cases hheld : s.held with
    | false => simp [Subscription.receive_gone hheld] at h
    | true =>
      cases hp : s.pending with
      | nil =>
        rw [Subscription.receive_nil hheld hp] at h
        cases ho : s.senderOpen <;> simp [ho] at h
      | cons first rest =>
        rw [Subscription.receive_cons hheld hp] at h
        cases h
        exact ⟨s, rest, rfl, hheld, hp, rfl⟩

namespace Tidy

theorem empty : ({} : Registry).Tidy := ⟨⟨.empty, .nil⟩, nofun, nofun⟩

theorem mem_of_find? {s : Subscription} (hf : r.find? id = some s) :
    ∃ m ∈ r.members, m.id = id ∧ m.subscription = s := by
  obtain ⟨m, hm, hs⟩ := Option.map_eq_some_iff.mp hf
  exact ⟨m, List.mem_of_find?_eq_some hm, by simpa using List.find?_some hm, hs⟩

/-- The members may change, as long as those that stay registered keep their owner. -/
theorem map (h : r.Tidy) {change : Member → Member} {opened : List Topic}
    (hid : ∀ m, (change m).id = m.id)
    (hopen : ∀ m ∈ r.members, (change m).subscription.senderOpen = true →
      (change m).subscription.held = true ∧ (change m).subscription.topic ∈ opened) :
    Tidy { r with opened, members := r.members.map change } where
  fresh := by
    intro m hm
    obtain ⟨n, hn, rfl⟩ := List.mem_map.mp hm
    rw [hid]
    exact h.fresh n hn
  distinct := by
    rw [List.map_map]
    exact (List.map_congr_left fun m _ => hid m) ▸ h.distinct
  held := by
    intro m hm ho
    obtain ⟨n, hn, rfl⟩ := List.mem_map.mp hm
    exact (hopen n hn ho).1
  opened := by
    intro m hm ho
    obtain ⟨n, hn, rfl⟩ := List.mem_map.mp hm
    exact (hopen n hn ho).2

theorem update (h : r.Tidy) {change : Subscription → Subscription}
    (hopen : ∀ s, r.find? id = some s → (change s).senderOpen = true →
      (change s).held = true ∧ (change s).topic ∈ r.opened) : (r.update id change).Tidy := by
  refine h.map (fun m => by split <;> rfl) fun m hm => ?_
  split
  · rename_i hid
    exact hopen _ (hid ▸ find?_of_mem h.distinct hm)
  · exact fun ho => ⟨h.held m hm ho, h.opened m hm ho⟩

theorem subscribe (h : r.Tidy) (topic : Topic) : (r.subscribe topic).2.Tidy where
  toLawful := (Continues.subscribe r topic).lawful h.toLawful
  held := by
    intro m hm ho
    rcases List.mem_append.mp hm with hm | hm
    · exact h.held m hm ho
    · rw [List.mem_singleton.mp hm]
  opened := by
    intro m hm ho
    have hgrows : ∀ t ∈ topic :: r.opened, t ∈ (r.subscribe topic).2.opened := by
      intro t ht
      simp only [Registry.subscribe]
      split
      · rename_i hc
        rcases List.mem_cons.mp ht with rfl | ht
        · simpa using hc
        · exact ht
      · exact ht
    rcases List.mem_append.mp hm with hm | hm
    · exact hgrows _ (.tail _ (h.opened m hm ho))
    · rw [List.mem_singleton.mp hm]
      exact hgrows _ (.head _)

theorem emit (h : r.Tidy) (topic : Topic) (payload : Json) : (r.emit topic payload).Tidy := by
  refine h.map (fun m => by split <;> [split <;> rfl; rfl]) fun m hm => ?_
  cases ho : m.subscription.senderOpen with
  | false => simp [registeredOn, ho]
  | true =>
    have hheld := h.held m hm ho
    have hopened := h.opened m hm ho
    intro _
    split
    · simp only [Subscription.send, ho, hheld, Bool.and_self, if_true]
      exact ⟨trivial, hopened⟩
    · exact ⟨hheld, hopened⟩

theorem closeTopic (h : r.Tidy) (topic : Topic) : (r.closeTopic topic).2.Tidy := by
  unfold Registry.closeTopic
  split
  · refine h.map (fun m => by split <;> rfl) fun m hm => ?_
    split
    · intro ho
      cases ho
    · rename_i hr
      refine fun ho => ⟨h.held m hm ho, List.mem_filter.mpr ⟨h.opened m hm ho, ?_⟩⟩
      simpa [registeredOn, ho] using hr
  · exact h

theorem step (h : r.Tidy) (hs : Step r f next) : next.Tidy := by
  cases hs with
  | subscribed topic => exact h.subscribe topic
  | published topic payload => exact h.emit topic payload
  | received given =>
    obtain ⟨s, rest, hf, -, -, rfl⟩ := receive_payload given
    obtain ⟨m, hm, -, rfl⟩ := mem_of_find? hf
    exact h.update fun t _ ho => ⟨h.held m hm ho, h.opened m hm ho⟩
  | released id => exact h.update fun s _ ho => by simp [Subscription.close] at ho
  | closed topic => exact h.closeTopic topic

/-- Closing a topic reaches everybody who is registered on it. -/
theorem find?_closeTopic (h : r.Tidy) {s : Subscription} (hf : r.find? id = some s) (topic : Topic) :
    (r.closeTopic topic).2.find? id =
      some (if s.senderOpen && s.topic == topic then s.close else s) := by
  unfold Registry.closeTopic
  obtain ⟨m, hm, -, hs⟩ := mem_of_find? hf
  split
  · rw [find?_map { r with opened := r.opened.filter (· != topic) } id
      (fun m => if registeredOn topic m then { m with subscription := m.subscription.close } else m)
      (by intro m; split <;> rfl)]
    obtain ⟨n, hn, rfl⟩ := Option.map_eq_some_iff.mp hf
    simp only [hn, Option.map_some, registeredOn]
    split <;> simp [*]
  · rename_i hc
    -- The topic is not among those opened, and whoever is registered keeps its topic there.
    have hnot : (s.senderOpen && s.topic == topic) = false := by
      by_contra hr
      simp only [Bool.not_eq_false, Bool.and_eq_true, beq_iff_eq] at hr
      have hmem := h.opened m hm (hs ▸ hr.1)
      rw [hs, hr.2] at hmem
      exact hc (by simpa using hmem)
    simp [hnot, hf]

end Tidy

theorem registered_map {change : Member → Member} {opened : List Topic} {stays : Nat → Bool}
    (hid : ∀ m, (change m).id = m.id)
    (h : ∀ m ∈ r.members, registeredOn topic (change m) = (stays m.id && registeredOn topic m)) :
    registered { r with opened, members := r.members.map change } topic =
      (r.registered topic).filter stays := by
  have hleft : r.members.filter (registeredOn topic ∘ change) =
      (r.members.filter (registeredOn topic)).filter (stays ∘ Member.id) := by
    rw [List.filter_filter]
    exact List.filter_congr h
  rw [registered, registered, List.filter_map, List.map_map, List.filter_map, hleft]
  exact List.map_congr_left fun m _ => hid m

theorem registered_update {i : Nat} {change : Subscription → Subscription} {stays : Nat → Bool}
    (h : r.Tidy) (hother : ∀ j, j ≠ i → stays j = true)
    (hself : ∀ s, r.find? i = some s → (change s).topic = s.topic ∧
      (change s).senderOpen = (stays i && s.senderOpen)) :
    (r.update i change).registered topic = (r.registered topic).filter stays := by
  refine registered_map (fun m => by split <;> rfl) fun m hm => ?_
  split
  · rename_i hid
    subst hid
    obtain ⟨ht, ho⟩ := hself _ (find?_of_mem h.distinct hm)
    simp [registeredOn, ht, ho, Bool.and_assoc]
  · rename_i hid
    simp [hother m.id hid]

/-- Releasing a subscription strikes it off, and nobody else. -/
theorem registered_release (r : Registry) (id : Nat) (topic : Topic) :
    (r.release id).registered topic = (r.registered topic).filter fun i => !(id == i) := by
  refine registered_map (fun m => by split <;> rfl) fun m _ => ?_
  split
  · rename_i hid
    simp [registeredOn, Subscription.close, hid]
  · rename_i hid
    simp [Ne.symm hid]

theorem registered_closeTopic (h : r.Tidy) (closing topic : Topic) :
    (r.closeTopic closing).2.registered topic =
      (r.registered topic).filter fun _ => !(closing == topic) := by
  unfold closeTopic
  split
  · refine registered_map (fun m => by split <;> rfl) fun m _ => ?_
    by_cases hr : registeredOn closing m = true
    · have ht : m.subscription.topic = closing := by
        simpa using (Bool.and_eq_true_iff.mp hr).2
      have hnot : (!(closing == topic) && registeredOn topic m) = false := by
        simp only [registeredOn, ht]
        cases closing == topic <;> simp
      rw [if_pos hr, hnot]
      rfl
    · simp only [hr]
      by_cases ht : closing = topic
      · subst ht
        simpa using hr
      · simp [ht]
  · rename_i hc
    refine (List.filter_eq_self.mpr fun id hid => ?_).symm
    obtain ⟨m, hm, -⟩ := List.mem_map.mp hid
    obtain ⟨hmember, hr⟩ : m ∈ r.members ∧ registeredOn topic m = true := List.mem_filter.mp hm
    simp only [registeredOn, Bool.and_eq_true, beq_iff_eq] at hr
    simp only [Bool.not_eq_true', beq_eq_false_iff_ne]
    rintro rfl
    have hopened := h.opened m hmember hr.1
    rw [hr.2] at hopened
    exact hc (by simpa using hopened)

theorem registered_emit (h : r.Tidy) (on topic : Topic) (payload : Json) :
    (r.emit on payload).registered topic = r.registered topic := by
  have hall : (r.emit on payload).registered topic = (r.registered topic).filter fun _ => true := by
    refine registered_map (fun m => by split <;> [split <;> rfl; rfl]) fun m hm => ?_
    cases ho : m.subscription.senderOpen with
    | false => simp [registeredOn, ho]
    | true =>
      have hheld := h.held m hm ho
      split
      · simp [registeredOn, Subscription.send, ho, hheld]
      · rfl
  rw [hall, List.filter_true]

/-- A fact brings in the subscription that it makes, and strikes off those whose delivery it ends. -/
theorem registered_step (h : r.Tidy) (hs : Step r f next) (topic : Topic) :
    next.registered topic =
      ((r.registered topic).filter fun id => !f.ends topic id) ++ (f.madeOn topic).toList := by
  have hall : ∀ l : List Nat, (l.filter fun _ => !false) = l := by simp
  cases hs with
  | subscribed on =>
    simp only [Fact.ends, Fact.madeOn, hall]
    by_cases ht : on = topic <;>
      simp [registered, subscribe, List.filter_append, registeredOn, ht]
  | published on payload => simp [Fact.ends, Fact.madeOn, registered_emit h on topic payload]
  | @received _ i payload given =>
    simp only [Fact.ends, Fact.madeOn, Option.toList_none, List.append_nil]
    obtain ⟨s, rest, hf, -, -, rfl⟩ := receive_payload given
    refine registered_update h (fun _ _ => rfl) fun t ht => ?_
    obtain rfl : s = t := Option.some.inj (hf.symm.trans ht)
    exact ⟨rfl, rfl⟩
  | released id => simpa [Fact.ends, Fact.madeOn] using registered_release r id topic
  | closed on => simpa [Fact.ends, Fact.madeOn] using registered_closeTopic h on topic

end Registry

/-- What a subscription has, given what happened since it was made. -/
structure Served (topic : Topic) (id : Nat) (later : List Fact) (s : Subscription) : Prop where
  on : s.topic = topic
  held : s.held = true ↔ .released id ∉ later
  isOpen : s.senderOpen = !later.any (Fact.ends topic id)
  /-- What the owner took and what still waits is what was due, in order. -/
  queue : s.held = true → received id later ++ s.pending = due topic id later
  taken : received id later <+: due topic id later

namespace Served

open Registry

variable {topic : Topic} {id : Nat} {later : List Fact} {s : Subscription} {f : Fact}
variable {r next : Registry}

theorem new (topic : Topic) (id : Nat) : Served topic id [] { topic } :=
  ⟨rfl, by simp, rfl, fun _ => rfl, List.prefix_refl _⟩

/-- A fact that has nothing to do with a subscription leaves it as it was. -/
theorem pass (h : Served topic id later s) (hr : f ≠ .released id) (hends : f.ends topic id = false)
    (hpayload : later.any (Fact.ends topic id) = false → f.payloadOn topic = none)
    (hreceived : f.receivedBy id = none) : Served topic id (later ++ [f]) s := by
  have hdue : due topic id (later ++ [f]) = due topic id later := by
    cases hl : later.any (Fact.ends topic id) with
    | true => exact due_append_ended hl
    | false => exact due_append_of_payloadOn (hpayload hl)
  refine ⟨h.on, ?_, ?_, ?_, ?_⟩
  · simpa [hr.symm] using h.held
  · simpa [hends] using h.isOpen
  · rw [hdue, received_append, hreceived]
    simpa using h.queue
  · rw [hdue, received_append, hreceived]
    simpa using h.taken

theorem published (h : Served topic id later s) (hheld : s.senderOpen = true → s.held = true)
    (on : Topic) (payload : Json) :
    Served topic id (later ++ [.published on payload]) (s.offer on payload) := by
  have hon := h.on
  cases ho : s.senderOpen with
  | false =>
    rw [Subscription.offer_closed ho]
    refine h.pass nofun rfl (fun hl => ?_) rfl
    rw [h.isOpen, hl] at ho
    cases ho
  | true =>
    by_cases ht : on = topic
    · have hlater : later.any (Fact.ends topic id) = false := by simpa [h.isOpen] using ho
      have hdue : due topic id (later ++ [.published on payload]) = due topic id later ++ [payload] := by
        rw [due_append_open hlater]
        simp [Fact.payloadOn, ht]
      have hreceived : received id (later ++ [.published on payload]) = received id later := by
        simp [received_append, Fact.receivedBy]
      have hoffer : s.offer on payload = { s with pending := s.pending ++ [payload] } := by
        rw [show on = s.topic from ht.trans hon.symm]
        exact Subscription.offer_open ho (hheld ho) payload
      rw [hoffer]
      refine ⟨hon, by simpa using h.held, by simpa [Fact.ends] using h.isOpen, fun hh => ?_, ?_⟩
      · rw [hdue, hreceived, ← h.queue hh, List.append_assoc]
      · rw [hdue, hreceived]
        exact h.taken.trans (List.prefix_append ..)
    · rw [Subscription.offer_other (hon ▸ Ne.symm ht)]
      exact h.pass nofun rfl (fun _ => by simp [Fact.payloadOn, ht]) rfl

theorem received {payload : Json} {rest : List Json} (h : Served topic id later s)
    (hheld : s.held = true) (hp : s.pending = payload :: rest) :
    Served topic id (later ++ [.received id payload]) { s with pending := rest } := by
  have hdue : due topic id (later ++ [.received id payload]) = due topic id later :=
    due_append_of_payloadOn rfl
  have hreceived : Delivery.received id (later ++ [.received id payload]) =
      Delivery.received id later ++ [payload] := by simp [received_append, Fact.receivedBy]
  have hqueue := h.queue hheld
  rw [hp] at hqueue
  refine ⟨h.on, by simpa using h.held, by simpa [Fact.ends] using h.isOpen, fun _ => ?_, ?_⟩
  · rw [hdue, hreceived, ← hqueue, List.append_assoc]
    rfl
  · rw [hdue, hreceived, ← hqueue]
    exact ⟨rest, by simp⟩

theorem released (h : Served topic id later s) :
    Served topic id (later ++ [.released id]) s.release.close := by
  have hgone : s.release.held = false := by
    unfold Subscription.release
    split
    · rfl
    · simpa using ‹¬s.held = true›
  have hon : s.release.topic = s.topic := by
    unfold Subscription.release
    split <;> rfl
  refine ⟨hon.trans h.on, by simp [Subscription.close, hgone], by simp [Subscription.close, Fact.ends],
    fun hh => ?_, ?_⟩
  · simp [Subscription.close, hgone] at hh
  · rw [due_append_of_payloadOn rfl, received_append]
    simpa [Fact.receivedBy] using h.taken

theorem closed (h : Served topic id later s) (on : Topic) :
    Served topic id (later ++ [.closed on]) (if s.senderOpen && s.topic == on then s.close else s) := by
  by_cases ht : on = topic
  · have hdue : due topic id (later ++ [.closed on]) = due topic id later := due_append_of_payloadOn rfl
    have hreceived : Delivery.received id (later ++ [.closed on]) = Delivery.received id later := by
      simp [received_append, Fact.receivedBy]
    have hclose : (if s.senderOpen && s.topic == on then s.close else s) = s.close := by
      cases ho : s.senderOpen with
      | true => simp [h.on, ht]
      | false => simp [Subscription.close, ← ho]
    rw [hclose]
    refine ⟨h.on, ?_, by simp [Subscription.close, Fact.ends, ht], ?_, ?_⟩
    · simpa [Subscription.close] using h.held
    · rw [hdue, hreceived]
      exact h.queue
    · rw [hdue, hreceived]
      exact h.taken
  · rw [if_neg (by simp [h.on, Ne.symm ht])]
    exact h.pass nofun (by simpa [Fact.ends] using ht) (fun _ => rfl) rfl

/-- Whatever happens next, a subscription goes on as its account says. -/
theorem step (h : Served topic id later s) (ht : r.Tidy) (hf : r.find? id = some s)
    (hs : Step r f next) :
    ∃ s', next.find? id = some s' ∧ Served topic id (later ++ [f]) s' := by
  cases hs with
  | subscribed on => exact ⟨s, find?_subscribe_known hf on, h.pass nofun rfl (fun _ => rfl) rfl⟩
  | published on payload =>
    refine ⟨s.offer on payload, by rw [find?_emit, hf]; rfl, h.published (fun ho => ?_) on payload⟩
    obtain ⟨m, hm, -, rfl⟩ := Tidy.mem_of_find? hf
    exact ht.held m hm ho
  | @received _ i payload given =>
    obtain ⟨t, rest, hi, hheld, hp, rfl⟩ := receive_payload given
    by_cases he : i = id
    · subst he
      obtain rfl : s = t := Option.some.inj (hf.symm.trans hi)
      exact ⟨{ s with pending := rest }, by rw [find?_update, hf]; rfl, h.received hheld hp⟩
    · exact ⟨s, (find?_update_other he _).trans hf,
        h.pass nofun rfl (fun _ => rfl) (by simp [Fact.receivedBy, he])⟩
  | released i =>
    by_cases he : i = id
    · subst he
      exact ⟨s.release.close, by rw [release, find?_update, hf]; rfl, h.released⟩
    · exact ⟨s, (find?_update_other he _).trans hf,
        h.pass (by simpa using he) (by simpa [Fact.ends] using he) (fun _ => rfl) rfl⟩
  | closed on => exact ⟨_, ht.find?_closeTopic hf on, h.closed on⟩

end Served

namespace Registry.Reached

variable {facts : List Fact} {r : Registry} {topic : Topic} {id : Nat}

theorem tidy (h : Reached facts r) : r.Tidy := by
  induction h with
  | empty => exact .empty
  | step _ hs ih => exact ih.step hs

theorem registered (h : Reached facts r) (topic : Topic) :
    r.registered topic = standing topic facts := by
  induction h with
  | empty => rfl
  | step h hs ih => rw [registered_step h.tidy hs, ih, standing_append]

/-- An id is given out once. -/
theorem made (h : Reached facts r) :
    (∀ id ∈ facts.filterMap Fact.made, id < r.nextId) ∧ (facts.filterMap Fact.made).Nodup := by
  induction h with
  | empty => exact ⟨nofun, .nil⟩
  | @step facts r next f h hs ih =>
    have hold : f.made = none → next.nextId = r.nextId →
        (∀ id ∈ (facts ++ [f]).filterMap Fact.made, id < next.nextId) ∧
          ((facts ++ [f]).filterMap Fact.made).Nodup := by
      intro hm hn
      simpa [List.filterMap_append, hm, hn] using ih
    cases hs with
    | subscribed topic =>
      have hm : (facts ++ [Fact.subscribed topic r.nextId]).filterMap Fact.made =
          facts.filterMap Fact.made ++ [r.nextId] := by simp [Fact.made]
      rw [hm]
      refine ⟨fun id hid => ?_, ?_⟩
      · rcases List.mem_append.mp hid with hid | hid
        · exact Nat.lt_succ_of_lt (ih.1 id hid)
        · rw [List.mem_singleton.mp hid]
          exact Nat.lt_succ_self _
      · refine List.nodup_append.mpr ⟨ih.2, List.nodup_singleton _, ?_⟩
        intro id hid other hother
        rw [List.mem_singleton.mp hother]
        exact Nat.ne_of_lt (ih.1 id hid)
    | published topic payload => exact hold rfl rfl
    | received given =>
      obtain ⟨s, rest, -, -, -, rfl⟩ := receive_payload given
      exact hold rfl rfl
    | released id => exact hold rfl rfl
    | closed topic =>
      refine hold rfl ?_
      unfold closeTopic
      split <;> rfl

theorem serves (h : Reached facts r) {earlier later : List Fact}
    (hf : facts = earlier ++ .subscribed topic id :: later) :
    ∃ s, r.find? id = some s ∧ Served topic id later s := by
  induction h generalizing later with
  | empty => simp at hf
  | @step facts r next f h hs ih =>
    -- Either the subscription is what just happened, or it was there and goes on.
    rcases List.eq_nil_or_concat later with rfl | ⟨later, g, rfl⟩
    · obtain ⟨-, hlast⟩ := List.append_inj' hf rfl
      obtain rfl : f = .subscribed topic id := by simpa using hlast
      cases hs with
      | subscribed => exact ⟨_, find?_subscribe h.tidy.fresh topic, .new topic r.nextId⟩
    · rw [List.concat_eq_append, ← List.cons_append, ← List.append_assoc] at hf
      obtain ⟨rfl, hlast⟩ := List.append_inj' hf rfl
      obtain rfl : f = g := by simpa using hlast
      obtain ⟨s, hfound, hserves⟩ := ih rfl
      rw [List.concat_eq_append]
      exact hserves.step h.tidy hfound hs

end Registry.Reached

end VoiceAdmin.Delivery
