import VoiceAdmin.Delivery.Registry

namespace VoiceAdmin.Delivery

namespace Subscription

/-- What a payload published on a topic does to a subscription that the registry knows. -/
def offer (s : Subscription) (topic : Topic) (payload : Json) : Subscription :=
  if s.senderOpen && s.topic == topic then
    if s.held then { s with pending := s.pending ++ [payload] } else s.close
  else s

theorem offer_open {s : Subscription} (hopen : s.senderOpen = true) (hheld : s.held = true)
    (payload : Json) : s.offer s.topic payload = { s with pending := s.pending ++ [payload] } := by
  simp [offer, hopen, hheld]

theorem offer_closed {s : Subscription} (h : s.senderOpen = false) (topic : Topic) (payload : Json) :
    s.offer topic payload = s := by
  simp [offer, h]

theorem offer_other {s : Subscription} {topic : Topic} (h : s.topic ≠ topic) (payload : Json) :
    s.offer topic payload = s := by
  simp [offer, h]

theorem receive_cons {s : Subscription} {payload : Json} {rest : List Json} (hheld : s.held = true)
    (h : s.pending = payload :: rest) :
    s.receive = (.payload payload, { s with pending := rest }) := by
  simp only [receive, hheld, if_true, h]

theorem receive_nil {s : Subscription} (hheld : s.held = true) (h : s.pending = []) :
    s.receive = (if s.senderOpen then .waiting else .closed, s) := by
  simp only [receive, hheld, if_true, h]

theorem receive_gone {s : Subscription} (h : s.held = false) : s.receive = (.gone, s) := by
  simp [receive, h]

theorem pending_of_payload {s next : Subscription} {payload : Json}
    (h : s.receive = (.payload payload, next)) : s.pending = payload :: next.pending := by
  unfold receive at h
  split at h
  · split at h
    · cases h
      assumption
    · split at h <;> cases h
  · cases h

theorem pending_of_waiting {s : Subscription} (h : s.receive.1 = .waiting) : s.pending = [] := by
  unfold receive at h
  split at h
  · split at h
    · cases h
    · assumption
  · cases h

theorem release_senderOpen (s : Subscription) : s.release.senderOpen = s.senderOpen := by
  unfold release
  split <;> rfl

theorem release_pending {s : Subscription} (h : s.pending = []) : s.release.pending = [] := by
  unfold release
  split
  · rfl
  · exact h

end Subscription

namespace Registry

/-- No id that is still to be given out is taken. -/
def Fresh (r : Registry) : Prop := ∀ m ∈ r.members, m.id < r.nextId

namespace Fresh

variable {r : Registry}

theorem empty : ({} : Registry).Fresh := nofun

theorem map (h : r.Fresh) {change : Member → Member} (hid : ∀ m, (change m).id = m.id) :
    { r with members := r.members.map change }.Fresh := by
  intro m hm
  obtain ⟨n, hn, rfl⟩ := List.mem_map.mp hm
  rw [hid]
  exact h n hn

theorem update (h : r.Fresh) (id : Nat) (change : Subscription → Subscription) :
    (r.update id change).Fresh :=
  h.map fun m => by split <;> rfl

theorem emit (h : r.Fresh) (topic : Topic) (payload : Json) : (r.emit topic payload).Fresh :=
  h.map fun m => by
    split
    · split <;> rfl
    · rfl

theorem closeTopic (h : r.Fresh) (topic : Topic) : (r.closeTopic topic).2.Fresh := by
  unfold Registry.closeTopic
  split
  · exact h.map fun m => by split <;> rfl
  · exact h

theorem subscribe (h : r.Fresh) (topic : Topic) : (r.subscribe topic).2.Fresh := by
  intro m hm
  rcases List.mem_append.mp hm with hm | hm
  · exact Nat.lt_succ_of_lt (h m hm)
  · rw [List.mem_singleton.mp hm]
    exact Nat.lt_succ_self r.nextId

end Fresh

theorem find?_map (r : Registry) (id : Nat) (change : Member → Member)
    (hid : ∀ m, (change m).id = m.id) :
    find? { r with members := r.members.map change } id =
      (r.members.find? fun m => m.id = id).map fun m => (change m).subscription := by
  have hp : (fun m : Member => decide ((change m).id = id)) = fun m => decide (m.id = id) := by
    funext m
    rw [hid]
  simp only [find?, List.find?_map, Function.comp_def, hp, Option.map_map]

theorem find?_emit (r : Registry) (topic : Topic) (payload : Json) (id : Nat) :
    (r.emit topic payload).find? id = (r.find? id).map fun s => s.offer topic payload := by
  unfold emit
  rw [find?_map]
  · simp only [find?, Option.map_map, Function.comp_def]
    congr 1
    funext m
    cases hopen : m.subscription.senderOpen
    · simp [registeredOn, Subscription.offer, hopen]
    · cases hheld : m.subscription.held
      · simp only [registeredOn, Subscription.offer, Subscription.send, hopen, hheld]
        split <;> simp_all
      · simp only [registeredOn, Subscription.offer, Subscription.send, hopen, hheld]
        split <;> simp_all
  · intro m
    split
    · split <;> rfl
    · rfl

theorem find?_update (r : Registry) (id : Nat) (change : Subscription → Subscription) :
    (r.update id change).find? id = (r.find? id).map change := by
  unfold update
  rw [find?_map]
  · cases hm : r.members.find? fun m => m.id = id with
    | none => simp [find?, hm]
    | some m =>
      have hid : m.id = id := by simpa using List.find?_some hm
      simp [find?, hm, hid]
  · intro m
    split <;> rfl

/-- Closing a topic takes nothing out of a queue, and leaves the other topics alone. -/
theorem receive_pending {r : Registry} {id : Nat} {s : Subscription} {payload : Json} {rest : List Json}
    (h : r.find? id = some s) (hheld : s.held = true) (hp : s.pending = payload :: rest) :
    r.receive id = (.payload payload, r.update id fun _ => { s with pending := rest }) := by
  simp only [receive, h, Subscription.receive_cons hheld hp]

theorem find?_closeTopic {r : Registry} {id : Nat} {s : Subscription} (h : r.find? id = some s)
    (topic : Topic) :
    (r.closeTopic topic).2.find? id = some s ∨
      s.topic = topic ∧ (r.closeTopic topic).2.find? id = some s.close := by
  unfold closeTopic
  split
  · have hm := h
    simp only [find?, Option.map_eq_some_iff] at hm
    obtain ⟨m, hm, rfl⟩ := hm
    have hf := find?_map { r with opened := r.opened.filter (· != topic) } id
      (fun m => if registeredOn topic m then { m with subscription := m.subscription.close } else m)
      (by intro m; split <;> rfl)
    rw [hf]
    simp only [hm, Option.map_some]
    by_cases hr : registeredOn topic m
    · right
      have ht : m.subscription.topic = topic := by
        simp only [registeredOn, Bool.and_eq_true, beq_iff_eq] at hr
        exact hr.2
      simp [hr, ht]
    · left
      simp [hr]
  · exact .inl h

theorem find?_subscribe {r : Registry} (h : r.Fresh) (topic : Topic) :
    (r.subscribe topic).2.find? r.nextId = some { topic } := by
  have hnone : (r.members.find? fun m => decide (m.id = r.nextId)) = none := by
    apply List.find?_eq_none.mpr
    intro m hm
    have := h m hm
    simp only [decide_eq_true_eq]
    omega
  simp [subscribe, find?, List.find?_append, hnone]

end Registry

end VoiceAdmin.Delivery
