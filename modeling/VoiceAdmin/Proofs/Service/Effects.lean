import VoiceAdmin.Proofs.Service.Pushes

namespace VoiceAdmin.Service

namespace Outcome

variable {o : Outcome} {before : AdminState} {notices : List Notification}

/-- The payloads pushed on a topic, before they get an envelope. -/
def on (o : Outcome) (topic : Topic) : List Json :=
  (o.pushes.filter fun p => p.topic == topic).map Push.payload

theorem on_wrap (o : Outcome) (topic : Topic) (style : Envelope) :
    (o.on topic).map style.wrap =
      (o.pushes.filter fun p => p.topic == topic).map fun p => style.wrap p.payload :=
  List.map_map

theorem Touches.on_domain {touched : List Domain} (h : o.Touches before touched) (d : Domain) :
    o.on d.topic = if d ∈ touched then [d.toJson (o.state.value d)] else [] := by
  rw [on, h.pushes_on]
  split <;> rfl

theorem Settles.on_notification {touched : List Domain} (h : o.Settles before touched notices) :
    o.on .notification = notices.map Notification.toJson := by
  have hdomains : ((touched.map o.state.push).filter fun p => p.topic == .notification) = [] := by
    refine List.filter_eq_nil_iff.mpr fun p hp => ?_
    obtain ⟨d, -, rfl⟩ := List.mem_map.mp hp
    simpa [AdminState.push, Push.snapshot] using d.topic_ne_notification
  have hnotices : ((notices.map Push.announce).filter fun p => p.topic == .notification) =
      notices.map Push.announce := by
    refine List.filter_eq_self.mpr fun p hp => ?_
    obtain ⟨n, -, rfl⟩ := List.mem_map.mp hp
    rfl
  rw [on, h.pushes, List.filter_append, hdomains, hnotices, List.nil_append, List.map_map]
  rfl

end Outcome

namespace AdminState

variable (s : AdminState) (op : Operation) (d : Domain)

/-- The new value once, or nothing of a domain that keeps its value. -/
theorem perform_on_domain :
    (s.perform op).on d.topic = [d.toJson ((s.perform op).state.value d)] ∨
      (s.perform op).on d.topic = [] ∧ (s.perform op).state.value d = s.value d := by
  rcases s.perform_pushes_on op d with hp | ⟨hp, hv⟩
  · left
    rw [Outcome.on, hp]
    rfl
  · exact .inr ⟨by rw [Outcome.on, hp]; rfl, hv⟩

theorem perform_others (h : d ∉ op.targets) : (s.perform op).state.value d = s.value d := by
  rcases s.perform_touches op with ht | ⟨hs, -⟩
  · exact ht.others d h
  · rw [hs]

theorem perform_refused (h : s.Refuses op) :
    (s.perform op).state = s ∧ ∀ d : Domain, (s.perform op).on d.topic = [] := by
  obtain ⟨notices, hl⟩ := s.perform_leaves h
  refine ⟨hl.state, fun d => ?_⟩
  rw [(hl.settles.touches List.nodup_nil).on_domain]
  rfl

/-- Unless it is a notification itself, or a coalition to remove is not there: a command is answered by
one notification, and by an error exactly if it did not find what it is for. -/
theorem execute_announces (id : String) {command : Command} (hn : ∀ n, command ≠ .notify n)
    (hr : ∀ coalition, command = .removeCoalition coalition → coalition ∈ s.coalitions) :
    ∃ n : Notification, (s.execute id command).on .notification = [n.toJson] ∧
      (n.level = .error ↔ s.Lacks command) := by
  by_cases h : s.Lacks command
  · have hfound : ∀ coalition, command ≠ .removeCoalition coalition := by
      rintro coalition rfl
      exact h (hr coalition rfl)
    obtain ⟨n, hl, he⟩ := s.execute_leaves id h hfound
    exact ⟨n, hl.settles.on_notification, by simp [he, h]⟩
  · obtain ⟨n, hs, he⟩ := s.execute_settles id h
    exact ⟨n, hs.on_notification, fun hl => absurd (he hl) (hn n), fun hl => absurd hl h⟩

end AdminState

namespace Server

/-- No change is silent, and what fails leaves no trace. Of each domain that an operation changed, the
value after the whole operation is pushed, once; the other domains keep theirs. An operation that does
not find what it is for leaves the whole state as it was. A command is answered by one notification.
What is pushed on a topic reaches its open subscriptions, in order. -/
theorem perform_accounted (s : Server) (op : Operation) :
    let after := (s.perform op).state
    let emitted := (s.state.perform op).on
    (∀ d, after.value d ≠ s.state.value d → emitted d.topic = [d.toJson (after.value d)]) ∧
    (∀ d : Domain, ∀ payload ∈ emitted d.topic, payload = d.toJson (after.value d)) ∧
    (∀ d, d ∉ op.targets → after.value d = s.state.value d) ∧
    (s.state.Refuses op → after = s.state ∧ ∀ d : Domain, emitted d.topic = []) ∧
    (∀ id command, op = .execute id command → (∀ n, command ≠ .notify n) →
      (∀ coalition, command = .removeCoalition coalition → coalition ∈ s.state.coalitions) →
      ∃ n : Notification, emitted .notification = [n.toJson] ∧
        (n.level = .error ↔ s.state.Lacks command)) ∧
    (∀ id coalition, op = .execute id (.removeCoalition coalition) →
      coalition ∉ s.state.coalitions → emitted .notification = []) ∧
    (∀ id n, op = .execute id (.notify n) → emitted .notification = [n.toJson]) ∧
    (∀ id sub, s.registry.find? id = some sub → sub.senderOpen = true → sub.held = true →
      (s.perform op).registry.find? id =
        some { sub with pending := sub.pending ++ (emitted sub.topic).map s.envelope.wrap }) := by
  intro after emitted
  have hafter : after = (s.state.perform op).state := s.adopt_state _
  rw [hafter]
  refine ⟨fun d hne => ?_, fun d payload hp => ?_, s.state.perform_others op,
    s.state.perform_refused op, ?_, ?_, ?_, fun id sub hf hopen hheld => ?_⟩
  · exact (s.state.perform_on_domain op d).resolve_right fun h => hne h.2
  · rcases s.state.perform_on_domain op d with he | ⟨he, -⟩
    · exact List.mem_singleton.mp (by rwa [← he])
    · exact absurd (by rwa [← he]) (List.not_mem_nil (a := payload))
  · rintro id command rfl hn hr
    exact s.state.execute_announces id hn hr
  · rintro id coalition rfl hc
    exact (s.state.removeCoalition_leaves id hc).settles.on_notification
  · rintro id n rfl
    rfl
  · rw [perform, find?_adopt_open hf hopen hheld, ← Outcome.on_wrap]

end Server

end VoiceAdmin.Service
