import Mathlib.Data.List.Nodup
import VoiceAdmin.Proofs.Delivery.Lookup

namespace VoiceAdmin.Delivery

namespace Subscription

/-- What can happen to a subscription while its owner keeps it: payloads come and go, and its stream may
be closed, but it is not given back, and a closed stream stays closed. -/
structure Continues (s s' : Subscription) : Prop where
  topic : s'.topic = s.topic
  held : s'.held = s.held
  releases : s'.releases = s.releases
  closed : s.senderOpen = false → s'.senderOpen = false

namespace Continues

variable {s s' s'' : Subscription}

theorem refl (s : Subscription) : s.Continues s := ⟨rfl, rfl, rfl, id⟩

theorem trans (h : s.Continues s') (h' : s'.Continues s'') : s.Continues s'' :=
  ⟨h'.topic.trans h.topic, h'.held.trans h.held, h'.releases.trans h.releases,
    fun hc => h'.closed (h.closed hc)⟩

theorem pending (s : Subscription) (pending : List Json) : s.Continues { s with pending } :=
  ⟨rfl, rfl, rfl, id⟩

theorem close (s : Subscription) : s.Continues s.close := ⟨rfl, rfl, rfl, fun _ => rfl⟩

theorem receive (s : Subscription) : s.Continues s.receive.2 := by
  unfold Subscription.receive
  split
  · split
    · exact pending s _
    · exact refl s
  · exact refl s

theorem offer (s : Subscription) (topic : Topic) (payload : Json) :
    s.Continues (s.offer topic payload) := by
  unfold Subscription.offer
  split
  · split
    · exact pending s _
    · exact close s
  · exact refl s

end Continues

end Subscription

namespace Registry

/-- Ids tell the members apart, and those still to be given out are free. -/
structure Lawful (r : Registry) : Prop where
  fresh : r.Fresh
  distinct : (r.members.map Member.id).Nodup

variable {r r' r'' : Registry} {id : Nat} {s : Subscription}

theorem find?_of_mem (h : (r.members.map Member.id).Nodup) {m : Member} (hm : m ∈ r.members) :
    r.find? m.id = some m.subscription := by
  cases hf : r.members.find? fun n => n.id = m.id with
  | none =>
    have hnot := List.find?_eq_none.mp hf m hm
    simp at hnot
  | some n =>
    have hid : n.id = m.id := by simpa using List.find?_some hf
    have hn := List.mem_of_find?_eq_some hf
    rw [find?, hf, List.inj_on_of_nodup_map h hn hm hid]
    rfl

theorem find?_update_other {i : Nat} (h : i ≠ id) (change : Subscription → Subscription) :
    (r.update i change).find? id = r.find? id := by
  unfold update
  rw [find?_map]
  · cases hm : r.members.find? fun m => m.id = id with
    | none => simp [find?, hm]
    | some m =>
      have hid : m.id = id := by simpa using List.find?_some hm
      simp [find?, hm, hid, h.symm]
  · intro m
    split <;> rfl

theorem find?_subscribe_known (h : r.find? id = some s) (topic : Topic) :
    (r.subscribe topic).2.find? id = some s := by
  obtain ⟨m, hm, rfl⟩ := Option.map_eq_some_iff.mp h
  simp [subscribe, find?, List.find?_append, hm]

theorem update_ids (r : Registry) (id : Nat) (change : Subscription → Subscription) :
    (r.update id change).members.map Member.id = r.members.map Member.id := by
  rw [update, List.map_map]
  refine List.map_congr_left fun m _ => ?_
  rw [Function.comp_apply]
  split <;> rfl

theorem Lawful.update (h : r.Lawful) (id : Nat) (change : Subscription → Subscription) :
    (r.update id change).Lawful :=
  ⟨h.fresh.update id change, update_ids r id change ▸ h.distinct⟩

theorem Lawful.release (h : r.Lawful) (id : Nat) : (r.release id).Lawful := h.update id _

structure Continues (r r' : Registry) : Prop where
  nextId : r.nextId ≤ r'.nextId
  lawful : r.Lawful → r'.Lawful
  find? : ∀ {id s}, r.find? id = some s → ∃ s', r'.find? id = some s' ∧ s.Continues s'

namespace Continues

theorem refl (r : Registry) : r.Continues r := ⟨Nat.le_refl _, id, fun {_ s} h => ⟨s, h, .refl s⟩⟩

theorem trans (h : r.Continues r') (h' : r'.Continues r'') : r.Continues r'' where
  nextId := Nat.le_trans h.nextId h'.nextId
  lawful hl := h'.lawful (h.lawful hl)
  find? hf := by
    obtain ⟨s', hf', hs⟩ := h.find? hf
    obtain ⟨s'', hf'', hs'⟩ := h'.find? hf'
    exact ⟨s'', hf'', hs.trans hs'⟩

theorem emit (r : Registry) (topic : Topic) (payload : Json) : r.Continues (r.emit topic payload) where
  nextId := Nat.le_refl _
  lawful h := by
    refine ⟨h.fresh.emit topic payload, ?_⟩
    rw [Registry.emit, List.map_map]
    refine (List.map_congr_left fun m _ => ?_) ▸ h.distinct
    rw [Function.comp_apply]
    split
    · split <;> rfl
    · rfl
  find? {id s} hf := ⟨s.offer topic payload, by rw [find?_emit, hf]; rfl, .offer s topic payload⟩

theorem closeTopic (r : Registry) (topic : Topic) : r.Continues (r.closeTopic topic).2 where
  nextId := by
    unfold Registry.closeTopic
    split <;> exact Nat.le_refl _
  lawful h := by
    refine ⟨h.fresh.closeTopic topic, ?_⟩
    unfold Registry.closeTopic
    split
    · rw [List.map_map]
      refine (List.map_congr_left fun m _ => ?_) ▸ h.distinct
      rw [Function.comp_apply]
      split <;> rfl
    · exact h.distinct
  find? {id s} hf := by
    rcases find?_closeTopic hf topic with hf' | ⟨-, hf'⟩
    · exact ⟨s, hf', .refl s⟩
    · exact ⟨s.close, hf', .close s⟩

theorem update {change : Subscription → Subscription}
    (h : ∀ s, r.find? id = some s → s.Continues (change s)) : r.Continues (r.update id change) where
  nextId := Nat.le_refl _
  lawful hl := hl.update id change
  find? {i s} hf := by
    by_cases hi : id = i
    · subst hi
      exact ⟨change s, by rw [find?_update, hf]; rfl, h s hf⟩
    · exact ⟨s, (find?_update_other hi change).trans hf, .refl s⟩

theorem subscribe (r : Registry) (topic : Topic) : r.Continues (r.subscribe topic).2 where
  nextId := Nat.le_succ _
  lawful h := by
    refine ⟨h.fresh.subscribe topic, ?_⟩
    have hnew : r.nextId ∉ r.members.map Member.id := by
      intro hm
      obtain ⟨m, hm, he⟩ := List.mem_map.mp hm
      exact Nat.ne_of_lt (h.fresh m hm) he
    simpa [Registry.subscribe, List.nodup_append] using ⟨h.distinct, fun m hm he =>
      hnew (List.mem_map.mpr ⟨m, hm, he⟩)⟩
  find? {_ s} hf := ⟨s, find?_subscribe_known hf topic, .refl s⟩

end Continues

end Registry

end VoiceAdmin.Delivery
