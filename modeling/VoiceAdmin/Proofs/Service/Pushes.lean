import Mathlib.Data.List.Nodup
import VoiceAdmin.Proofs.Delivery.Lookup
import VoiceAdmin.Proofs.Domain.Codec
import VoiceAdmin.Proofs.Service.Presence
import VoiceAdmin.Service.Server

namespace VoiceAdmin

theorem Domain.topic_inj {d e : Domain} : d.topic = e.topic ↔ d = e := by
  constructor
  · intro h
    cases d <;> cases e <;> first | rfl | cases h
  · rintro rfl
    rfl

theorem Domain.topic_ne_notification (d : Domain) : d.topic ≠ .notification := by
  cases d <;> nofun

namespace Service

/-- What is done with the service from outside. A command comes with the id for what it announces. -/
inductive Operation where
  | connect (client : Client)
  | setStatus (status : Status)
  | execute (id : String) (command : Command)

/-- The domains that a command is meant to change. -/
def commandTargets : Command → List Domain
  | .startServer | .stopServer => [.status]
  | .kick _ _ | .mute _ | .unmute _ => [.roster]
  | .ban _ _ => [.roster, .bans]
  | .unban _ => [.bans]
  | .addCoalition _ | .updateCoalition _ | .removeCoalition _ => [.coalitions]
  | .saveSettings _ | .saveFrequencies _ => [.settings]
  | .notify _ => []

def Operation.targets : Operation → List Domain
  | .connect _ => [.roster]
  | .setStatus _ => [.status]
  | .execute _ command => commandTargets command

def AdminState.perform (s : AdminState) : Operation → Outcome
  | .connect client => (s.connect client).2
  | .setStatus status => s.setStatus status
  | .execute id command => s.execute id command

/-- The domains listed are pushed once each, with their new values; the others keep theirs. -/
structure Outcome.Touches (o : Outcome) (before : AdminState) (touched : List Domain) : Prop where
  nodup : touched.Nodup
  pushes : ∃ notices, o.pushes = touched.map o.state.push ++ List.map Push.announce notices
  others : ∀ d, d ∉ touched → o.state.value d = before.value d

/-- An operation that was carried out: what it touches is pushed, and then the notifications are. -/
structure Outcome.Settles (o : Outcome) (before : AdminState) (touched : List Domain)
    (notices : List Notification) : Prop where
  pushes : o.pushes = touched.map o.state.push ++ notices.map .announce
  others : ∀ d, d ∉ touched → o.state.value d = before.value d

/-- An operation that was not carried out: it can only say so. -/
structure Outcome.Leaves (o : Outcome) (before : AdminState) (notices : List Notification) : Prop where
  state : o.state = before
  pushes : o.pushes = notices.map .announce

namespace Outcome

variable {o : Outcome} {before : AdminState} {notices : List Notification}

theorem settles_one {d : Domain} (hp : o.pushes = o.state.push d :: notices.map .announce)
    (others : ∀ e, e ≠ d → o.state.value e = before.value e) : o.Settles before [d] notices :=
  ⟨hp, fun e he => others e (by simpa using he)⟩

theorem Settles.touches {touched : List Domain} (h : o.Settles before touched notices)
    (hn : touched.Nodup) : o.Touches before touched :=
  ⟨hn, ⟨notices, h.pushes⟩, h.others⟩

theorem Leaves.settles (h : o.Leaves before notices) : o.Settles before [] notices :=
  ⟨h.pushes, fun d _ => by rw [h.state]⟩

/-- One push for a domain that was touched, and none for another. -/
theorem Touches.pushes_on {touched : List Domain} (h : o.Touches before touched) (d : Domain) :
    (o.pushes.filter fun p => p.topic == d.topic) = if d ∈ touched then [o.state.push d] else [] := by
  obtain ⟨notices, hp⟩ := h.pushes
  have hnotices : ((notices.map Push.announce).filter fun p => p.topic == d.topic) = [] := by
    refine List.filter_eq_nil_iff.mpr fun p hm => ?_
    obtain ⟨n, -, rfl⟩ := List.mem_map.mp hm
    simpa [Push.announce] using d.topic_ne_notification.symm
  have hdomains : ((fun p : Push => p.topic == d.topic) ∘ o.state.push) = fun e => decide (e = d) := by
    funext e
    rw [Bool.eq_iff_iff]
    simp [AdminState.push, Push.snapshot, Domain.topic_inj]
  rw [hp, List.filter_append, hnotices, List.append_nil, List.filter_map, hdomains, List.filter_eq,
    h.nodup.count]
  split <;> rfl

end Outcome

namespace AdminState

variable (s : AdminState) {d : Domain}

theorem value_status (status : Status) (h : d ≠ .status) :
    { s with status }.value d = s.value d := by
  cases d <;> first | rfl | contradiction

theorem value_settings (settings : Settings) (h : d ≠ .settings) :
    { s with settings }.value d = s.value d := by
  cases d <;> first | rfl | contradiction

theorem value_clients (clients : ClientTable) (h : d ≠ .roster) :
    { s with clients }.value d = s.value d := by
  cases d <;> first | rfl | contradiction

theorem value_coalitions (coalitions : List Coalition) (h : d ≠ .coalitions) :
    { s with coalitions }.value d = s.value d := by
  cases d <;> first | rfl | contradiction

theorem value_bans (bans : List Ban) (h : d ≠ .bans) : { s with bans }.value d = s.value d := by
  cases d <;> first | rfl | contradiction

theorem connect_room (h : s.clients.size < s.clients.capacity) (client : Client) :
    (s.connect client).2.Settles s [.roster] [] := by
  simp only [connect, ClientTable.add_room h]
  exact Outcome.settles_one rfl fun _ => s.value_clients _

theorem connect_full (h : s.clients.capacity ≤ s.clients.size) (client : Client) :
    s.connect client = (none, { state := s }) := by
  simp only [connect, ClientTable.add_full h]

theorem setStatus_settles (status : Status) : (s.setStatus status).Settles s [.status] [] :=
  Outcome.settles_one rfl fun _ => s.value_status status

theorem notFound_leaves (id title client : String) :
    ∃ n, (s.notFound id title client).Leaves s [n] ∧ n.level = .error :=
  ⟨_, ⟨rfl, rfl⟩, rfl⟩

theorem mute_present {client : String} (h : client ∈ s.clients.roster.ids) (id : String)
    (muted : Bool) : ∃ n, (s.mute id client muted).Settles s [.roster] [n] ∧ n.level ≠ .error := by
  simp only [mute, ClientTable.setMuted_present h]
  exact ⟨_, Outcome.settles_one rfl fun _ => s.value_clients _, nofun⟩

theorem mute_absent {client : String} (h : client ∉ s.clients.roster.ids) (id : String)
    (muted : Bool) : ∃ n, (s.mute id client muted).Leaves s [n] ∧ n.level = .error := by
  simp only [mute, ClientTable.setMuted_absent h]
  exact s.notFound_leaves ..

theorem coalitionsChanged_settles (coalitions : List Coalition) (id verb name : String) :
    ∃ n, (coalitionsChanged { s with coalitions } id verb name).Settles s [.coalitions] [n] ∧
      n.level ≠ .error :=
  ⟨_, Outcome.settles_one rfl fun _ => s.value_coalitions coalitions, nofun⟩

/-- A command that has what it is for touches its targets and ends with one notification, which is no
error. A notification sent as a command is passed on as it is. -/
theorem execute_settles (id : String) {command : Command} (h : ¬ s.Lacks command) :
    ∃ n, (s.execute id command).Settles s (commandTargets command) [n] ∧
      (n.level = .error → command = .notify n) := by
  suffices hs : (∃ n, command = .notify n) ∨
      ∃ n, (s.execute id command).Settles s (commandTargets command) [n] ∧ n.level ≠ .error by
    rcases hs with ⟨n, rfl⟩ | ⟨n, hn, hl⟩
    · exact ⟨n, ⟨rfl, fun _ _ => rfl⟩, fun _ => rfl⟩
    · exact ⟨n, hn, fun he => absurd he hl⟩
  cases command with
  | notify n => exact .inl ⟨n, rfl⟩
  | startServer => exact .inr ⟨_, Outcome.settles_one rfl fun _ => s.value_status _, nofun⟩
  | stopServer => exact .inr ⟨_, Outcome.settles_one rfl fun _ => s.value_status _, nofun⟩
  | saveSettings servers =>
    exact .inr ⟨_, Outcome.settles_one rfl fun _ => s.value_settings _, nofun⟩
  | saveFrequencies frequencies =>
    exact .inr ⟨_, Outcome.settles_one rfl fun _ => s.value_settings _, nofun⟩
  | kick client reason =>
    obtain ⟨kicked, hr⟩ := ClientTable.remove_present (Decidable.not_not.mp h)
    simp only [execute, hr]
    exact .inr ⟨_, Outcome.settles_one rfl fun _ => s.value_clients _, nofun⟩
  | ban client reason =>
    obtain ⟨banned, hr⟩ := ClientTable.remove_present (Decidable.not_not.mp h)
    simp only [execute, hr]
    refine .inr ⟨_, ⟨rfl, fun d hd => ?_⟩, nofun⟩
    cases d <;> first | rfl | simp [commandTargets] at hd
  | unban banned =>
    obtain ⟨ban, before, after, -, -, hr⟩ := removeBan_present (Decidable.not_not.mp h)
    simp only [execute, hr]
    exact .inr ⟨_, Outcome.settles_one rfl fun _ => s.value_bans _, nofun⟩
  | mute client => exact .inr (s.mute_present (Decidable.not_not.mp h) id true)
  | unmute client => exact .inr (s.mute_present (Decidable.not_not.mp h) id false)
  | addCoalition coalition => exact .inr (s.coalitionsChanged_settles ..)
  | updateCoalition coalition =>
    simp only [execute, updateCoalition_present (Decidable.not_not.mp h)]
    exact .inr (s.coalitionsChanged_settles ..)
  | removeCoalition coalition =>
    simp only [execute, removeCoalition_present (Decidable.not_not.mp h)]
    exact .inr (s.coalitionsChanged_settles ..)

/-- A command that lacks what it is for leaves the state alone and says so. -/
theorem execute_leaves (id : String) {command : Command} (h : s.Lacks command)
    (hr : ∀ coalition, command ≠ .removeCoalition coalition) :
    ∃ n, (s.execute id command).Leaves s [n] ∧ n.level = .error := by
  cases command with
  | startServer | stopServer | addCoalition | saveSettings | saveFrequencies | notify => exact h.elim
  | kick client reason =>
    simp only [execute, ClientTable.remove_absent h]
    exact s.notFound_leaves ..
  | ban client reason =>
    simp only [execute, ClientTable.remove_absent h]
    exact s.notFound_leaves ..
  | unban banned =>
    simp only [execute, removeBan_absent h]
    exact s.notFound_leaves ..
  | mute client => exact s.mute_absent h id true
  | unmute client => exact s.mute_absent h id false
  | updateCoalition coalition =>
    simp only [execute, updateCoalition_absent h]
    exact ⟨_, ⟨rfl, rfl⟩, rfl⟩
  | removeCoalition coalition => exact absurd rfl (hr coalition)

/-- To remove a coalition that is not there does nothing and says nothing. -/
theorem removeCoalition_leaves (id : String) {coalition : Coalition} (h : coalition ∉ s.coalitions) :
    (s.execute id (.removeCoalition coalition)).Leaves s [] := by
  simp only [execute, removeCoalition_absent h]
  exact ⟨rfl, rfl⟩

theorem targets_nodup (op : Operation) : op.targets.Nodup := by
  cases op with
  | connect | setStatus => exact List.nodup_singleton _
  | execute id command => cases command <;> simp [Operation.targets, commandTargets]

/-- The operation does not find what it is for. A new client wants room in the table. -/
def Refuses (s : AdminState) : Operation → Prop
  | .connect _ => s.clients.capacity ≤ s.clients.size
  | .setStatus _ => False
  | .execute _ command => s.Lacks command

theorem perform_settles {op : Operation} (h : ¬ s.Refuses op) :
    ∃ notices, (s.perform op).Settles s op.targets notices := by
  cases op with
  | connect client => exact ⟨_, s.connect_room (Nat.not_le.mp h) client⟩
  | setStatus status => exact ⟨_, s.setStatus_settles status⟩
  | execute id command =>
    obtain ⟨n, hs, -⟩ := s.execute_settles id h
    exact ⟨_, hs⟩

theorem perform_leaves {op : Operation} (h : s.Refuses op) :
    ∃ notices, (s.perform op).Leaves s notices := by
  cases op with
  | connect client =>
    simp only [perform, s.connect_full h]
    exact ⟨[], rfl, rfl⟩
  | setStatus status => exact h.elim
  | execute id command =>
    by_cases hr : ∃ coalition, command = .removeCoalition coalition
    · obtain ⟨coalition, rfl⟩ := hr
      exact ⟨_, s.removeCoalition_leaves id h⟩
    · obtain ⟨n, hl, -⟩ := s.execute_leaves id h fun coalition hc => hr ⟨coalition, hc⟩
      exact ⟨_, hl⟩

/-- An operation touches its targets, or nothing at all. -/
theorem perform_touches (op : Operation) :
    (s.perform op).Touches s op.targets ∨
      (s.perform op).state = s ∧ (s.perform op).Touches s [] := by
  by_cases h : s.Refuses op
  · obtain ⟨notices, hl⟩ := s.perform_leaves h
    exact .inr ⟨hl.state, hl.settles.touches List.nodup_nil⟩
  · obtain ⟨notices, hs⟩ := s.perform_settles h
    exact .inl (hs.touches (targets_nodup op))

/-- For each domain: its new value is pushed once, or nothing is pushed and it keeps its value. -/
theorem perform_pushes_on (op : Operation) (d : Domain) :
    ((s.perform op).pushes.filter fun p => p.topic == d.topic) = [(s.perform op).state.push d] ∨
      ((s.perform op).pushes.filter fun p => p.topic == d.topic) = [] ∧
        (s.perform op).state.value d = s.value d := by
  obtain ⟨touched, ht⟩ : ∃ touched, (s.perform op).Touches s touched := by
    rcases s.perform_touches op with ht | ⟨-, ht⟩
    · exact ⟨_, ht⟩
    · exact ⟨_, ht⟩
  rw [ht.pushes_on]
  split
  · exact .inl rfl
  · exact .inr ⟨rfl, ht.others d ‹_›⟩

end AdminState

/-- A state that holds no number but finite ones. -/
def AdminState.Finite (s : AdminState) : Prop := s.settings.frequencies.Finite

/-- No frequencies are saved but finite ones. -/
def Operation.Finite : Operation → Prop
  | .execute _ (.saveFrequencies frequencies) => frequencies.Finite
  | _ => True

namespace AdminState

variable {s : AdminState}

theorem Finite.value (h : s.Finite) (d : Domain) : d.Finite (s.value d) := by
  cases d with
  | settings => exact h
  | _ => trivial

/-- An operation leaves the frequencies alone unless it saves new ones. -/
theorem perform_frequencies (op : Operation) :
    (s.perform op).state.settings.frequencies = s.settings.frequencies ∨
      ∃ id frequencies, op = .execute id (.saveFrequencies frequencies) ∧
        (s.perform op).state.settings.frequencies = frequencies := by
  rcases s.perform_touches op with ht | ⟨hs, -⟩
  · by_cases hm : .settings ∈ op.targets
    · cases op with
      | connect | setStatus => simp [Operation.targets] at hm
      | execute id command =>
        cases command with
        | saveSettings servers => exact .inl rfl
        | saveFrequencies frequencies => exact .inr ⟨id, frequencies, rfl, rfl⟩
        | _ => simp [Operation.targets, commandTargets] at hm
    · have hs : (s.perform op).state.settings = s.settings := ht.others .settings hm
      exact .inl (by rw [hs])
  · exact .inl (by rw [hs])

theorem Finite.perform (h : s.Finite) {op : Operation} (hop : op.Finite) :
    (s.perform op).state.Finite := by
  rcases perform_frequencies (s := s) op with hf | ⟨id, frequencies, rfl, hf⟩
  · rw [AdminState.Finite, hf]
    exact h
  · rw [AdminState.Finite, hf]
    exact hop

end AdminState

namespace Server

open Delivery Delivery.Registry

def perform (s : Server) (op : Operation) : Server := s.adopt (s.state.perform op)

theorem perform_connect (s : Server) (client : Client) :
    s.perform (.connect client) = (s.connect client).2.1 := rfl

theorem perform_setStatus (s : Server) (status : Status) :
    s.perform (.setStatus status) = s.setStatus status := rfl

theorem perform_execute (s : Server) (id : String) (command : Command) :
    s.perform (.execute id command) = (s.execute id command).1 := rfl

theorem foldl_emit (pushes : List Push) (s : Server) :
    pushes.foldl emit s =
      { s with
        registry :=
          pushes.foldl (fun r p => r.emit p.topic (s.envelope.wrap p.payload)) s.registry } := by
  induction pushes generalizing s with
  | nil => rfl
  | cons p rest ih => exact ih (s.emit p)

theorem adopt_state (s : Server) (o : Outcome) : (s.adopt o).state = o.state := by
  simp only [adopt, foldl_emit]

variable {s : Server} {id : Nat} {sub : Subscription}

/-- What is pushed on the topic of an open subscription joins its queue, in order. -/
theorem find?_adopt_open (h : s.registry.find? id = some sub) (hopen : sub.senderOpen = true)
    (hheld : sub.held = true) (o : Outcome) :
    (s.adopt o).registry.find? id =
      some { sub with
        pending := sub.pending ++
          (o.pushes.filter fun p => p.topic == sub.topic).map fun p => s.envelope.wrap p.payload } := by
  simp only [adopt, foldl_emit]
  generalize s.registry = r at h
  induction o.pushes generalizing r sub with
  | nil => simpa using h
  | cons p rest ih =>
    rw [List.foldl_cons, List.filter_cons]
    by_cases ht : p.topic = sub.topic
    · have hp : (r.emit p.topic (s.envelope.wrap p.payload)).find? id =
          some { sub with pending := sub.pending ++ [s.envelope.wrap p.payload] } := by
        rw [find?_emit, h, ht]
        exact congrArg some (Subscription.offer_open hopen hheld _)
      rw [ih (by exact hopen) (by exact hheld) _ hp]
      simp [ht]
    · have hp : (r.emit p.topic (s.envelope.wrap p.payload)).find? id = some sub := by
        rw [find?_emit, h]
        exact congrArg some (Subscription.offer_other (Ne.symm ht) _)
      rw [ih (by exact hopen) (by exact hheld) _ hp]
      simp [ht]

theorem find?_adopt_closed (h : s.registry.find? id = some sub) (hclosed : sub.senderOpen = false)
    (o : Outcome) : (s.adopt o).registry.find? id = some sub := by
  simp only [adopt, foldl_emit]
  generalize s.registry = r at h
  induction o.pushes generalizing r with
  | nil => exact h
  | cons p rest ih =>
    refine ih _ ?_
    rw [find?_emit, h]
    exact congrArg some (Subscription.offer_closed hclosed _ _)

/-- An open subscription to a domain gets the new value, or nothing where there is none. -/
theorem find?_perform {d : Domain} (h : s.registry.find? id = some sub) (htopic : sub.topic = d.topic)
    (hopen : sub.senderOpen = true) (hheld : sub.held = true) (op : Operation) :
    (s.perform op).registry.find? id =
        some { sub with
          pending := sub.pending ++ [s.envelope.wrap (d.toJson ((s.perform op).state.value d))] } ∨
      (s.perform op).registry.find? id = some sub ∧
        (s.perform op).state.value d = s.state.value d := by
  have hpushes := s.state.perform_pushes_on op d
  rw [← htopic] at hpushes
  rw [perform, find?_adopt_open h hopen hheld, adopt_state]
  rcases hpushes with hp | ⟨hp, hv⟩
  · left
    rw [hp]
    rfl
  · right
    rw [hp, hv]
    simp

/-- Closing a topic concerns the subscriptions only. -/
theorem closeTopic_registry (s : Server) (topic : Topic) :
    (s.closeTopic topic).1 = { s with registry := (s.registry.closeTopic topic).2 } := by
  unfold closeTopic
  split <;> simp [*]

end Server

end Service

end VoiceAdmin
