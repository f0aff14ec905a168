import VoiceAdmin.Proofs.Payload.RoundTrip
import VoiceAdmin.Proofs.Service.Pushes
import VoiceAdmin.Proofs.Sync.Numbering

namespace VoiceAdmin.Sync

open Delivery Service

/-- The admin service together with the session of one mounted view. A pull is sent out by the session,
taken up by the service, which settles the answer, and comes back; anything else may happen in between. -/
structure Mirror (d : Domain) where
  server : Server
  /-- The id of the session's subscription. -/
  id : Nat
  chronicle : Chronicle d

namespace Mirror

inductive Event where
  | operate (op : Operation)
  | setAvailable (available : Bool)
  | setLatency (latency : Nat)
  | setEnvelope (envelope : Envelope)
  | closeTopic (topic : Topic)
  | refresh
  | tick
  | start (pull : Nat)
  | complete (pull : Nat)
  | turn

/-- No frequencies are saved but finite ones. -/
def Event.Finite : Event → Prop
  | .operate op => op.Finite
  | _ => True

variable {d : Domain}

def mount (server : Server) (d : Domain) : Except RemoteError (Mirror d) := do
  let (id, server) ← server.subscribe d.topic
  return { server, id, chronicle := { history := [server.state.value d] } }

/-- How many payloads wait in a subscription. -/
def waiting (server : Server) (id : Nat) : Nat :=
  ((server.registry.find? id).map fun s => s.pending.length).getD 0

/-- What a pull brings that the service takes up in this state. -/
def answer (server : Server) (d : Domain) : Answer d :=
  match server.snapshot d with
  | .ok value => .value value
  | .error e => .failure e

/-- An operation of the service. Its payloads get the number of the value after it. -/
def operate (m : Mirror d) (op : Operation) : Mirror d :=
  let server := m.server.perform op
  { m with
    server
    chronicle := m.chronicle.operate (server.state.value d)
      (waiting server m.id - waiting m.server m.id) }

def turn (m : Mirror d) : Mirror d :=
  match m.server.registry.find? m.id with
  | some s =>
    let (chronicle, left) := m.chronicle.turn s
    { m with
      chronicle
      server := { m.server with registry := m.server.registry.update m.id fun _ => left } }
  | none => m

def apply (m : Mirror d) : Event → Mirror d
  | .operate op => m.operate op
  | .setAvailable available => { m with server := (m.server.setAvailable available).1 }
  | .setLatency latency => { m with server := { m.server with latency } }
  | .setEnvelope envelope => { m with server := { m.server with envelope } }
  | .closeTopic topic => { m with server := (m.server.closeTopic topic).1 }
  | .refresh =>
    { m with chronicle.loop.controls := m.chronicle.loop.controls ++ [.refresh] }
  | .tick => { m with chronicle.loop.tickDue := true }
  | .start pull => { m with chronicle := m.chronicle.start pull (answer m.server d) }
  | .complete pull => { m with chronicle := m.chronicle.complete pull }
  | .turn => m.turn

def run (m : Mirror d) (events : List Event) : Mirror d := events.foldl apply m

/-- The session holds a subscription of the service, and the history ends with the current value. -/
structure Linked (m : Mirror d) (s : Subscription) : Prop where
  found : m.server.registry.find? m.id = some s
  topic : s.topic = d.topic
  current : m.chronicle.history.getLast? = some (m.server.state.value d)
  finite : m.server.state.Finite
  runs : m.chronicle.Runs s
  numbered : m.chronicle.Numbered s

variable {m : Mirror d} {s : Subscription}

theorem answer_value {server : Server} {value : d.Value} (h : answer server d = .value value) :
    server.state.value d = value := by
  unfold answer Server.snapshot Server.check at h
  cases ha : server.isAvailable with
  | true => simpa [ha, bind, Except.bind, pure, Except.pure] using h
  | false => simp [ha, bind, Except.bind] at h

theorem mount_available {server : Server} (h : server.isAvailable = true) (d : Domain) :
    mount server d = .ok
      { server := { server with registry := (server.registry.subscribe d.topic).2 }
        id := server.registry.nextId
        chronicle := { history := [server.state.value d] } } := by
  simp [mount, Server.subscribe, Server.check, h, bind, Except.bind, pure, Except.pure,
    Registry.subscribe]

theorem linked_mount {server : Server} (hf : server.registry.Fresh) (hs : server.state.Finite)
    (h : mount server d = .ok m) :
    m.Linked { topic := d.topic } ∧ m.chronicle = { history := [m.server.state.value d] } := by
  cases ha : server.isAvailable with
  | false => simp [mount, Server.subscribe, Server.check, ha, bind, Except.bind] at h
  | true =>
    rw [mount_available ha, Except.ok.injEq] at h
    subst h
    refine ⟨⟨Registry.find?_subscribe hf d.topic, rfl, rfl, hs, ?_, ?_⟩, rfl⟩
    · exact ⟨.init rfl, rfl, by simp⟩
    · exact ⟨by simp, .nil, nofun, nofun, nofun, rfl⟩

namespace Linked

/-- Only the service's side of a step is left to see to. -/
theorem of_step (h : m.Linked s) {m' : Mirror d} {s' : Subscription}
    (hstep : Chronicle.Step m.chronicle s m'.chronicle s')
    (found : m'.server.registry.find? m'.id = some s') (topic : s'.topic = s.topic)
    (current : m'.chronicle.history.getLast? = some (m'.server.state.value d))
    (finite : m'.server.state.Finite) : m'.Linked s' :=
  ⟨found, topic.trans h.topic, current, finite, h.runs.step hstep, h.numbered.step h.runs hstep⟩

theorem operate (h : m.Linked s) {op : Operation} (hop : op.Finite) :
    ∃ s', (m.operate op).Linked s' ∧ Chronicle.Step m.chronicle s (m.operate op).chronicle s' ∧
      s'.senderOpen = s.senderOpen := by
  have hfinite : (m.server.perform op).state.Finite := by
    rw [Server.perform, Server.adopt_state]
    exact h.finite.perform hop
  -- However many payloads arrived, the new value stands at the end of the history.
  have linked {s' : Subscription} {sent : Nat}
      (hsent : waiting (m.server.perform op) m.id - waiting m.server m.id = sent)
      (hfound : (m.server.perform op).registry.find? m.id = some s') (htopic : s'.topic = s.topic)
      (hopen : s'.senderOpen = s.senderOpen)
      (hstep : Chronicle.Step m.chronicle s
        (m.chronicle.operate ((m.server.perform op).state.value d) sent) s') :
      ∃ s', (m.operate op).Linked s' ∧ Chronicle.Step m.chronicle s (m.operate op).chronicle s' ∧
        s'.senderOpen = s.senderOpen := by
    subst hsent
    exact ⟨s', h.of_step hstep hfound htopic (by simp [Mirror.operate, Chronicle.operate]) hfinite,
      hstep, hopen⟩
  by_cases hopen : s.senderOpen = true
  · have hheld := h.runs.sound.held h.runs.running
    rcases Server.find?_perform h.found h.topic hopen hheld op with hp | ⟨hp, hv⟩
    · have reads := d.decodePayload_wrap (hfinite.value d) m.server.envelope
      exact linked (by simp [waiting, hp, h.found]) hp rfl rfl (.pushed reads hopen)
    · refine linked (by simp [waiting, hp, h.found]) hp rfl rfl (.silent fun _ => ?_)
      rw [h.current, hv]
  · have hp := Server.find?_adopt_closed h.found (Bool.eq_false_iff.mpr hopen)
      (m.server.state.perform op)
    exact linked (by simp [waiting, Server.perform, hp, h.found]) hp rfl rfl
      (.silent fun ho => absurd ho hopen)

theorem turn (h : m.Linked s) :
    ∃ s', m.turn.Linked s' ∧ Chronicle.Step m.chronicle s m.turn.chronicle s' ∧
      s'.senderOpen = s.senderOpen := by
  obtain ⟨hhistory, htopic, hopen⟩ := h.runs.turn_frame
  have hstep : Chronicle.Step m.chronicle s m.turn.chronicle (m.chronicle.turn s).2 := by
    simp only [Mirror.turn, h.found]
    exact .turned
  refine ⟨_, h.of_step hstep ?_ htopic ?_ ?_, hstep, hopen⟩
  · simp only [Mirror.turn, h.found, Registry.find?_update, Option.map_some]
  · simp only [Mirror.turn, h.found, hhistory]
    exact h.current
  · simp only [Mirror.turn, h.found]
    exact h.finite

theorem apply (h : m.Linked s) {e : Event} (he : e.Finite) :
    ∃ s', (m.apply e).Linked s' ∧
      Chronicle.Step m.chronicle s (m.apply e).chronicle s' ∧
      (e ≠ .closeTopic d.topic → s'.senderOpen = s.senderOpen) := by
  cases e with
  | operate op =>
    obtain ⟨s', hl, hstep, hopen⟩ := h.operate he
    exact ⟨s', hl, hstep, fun _ => hopen⟩
  | setAvailable available => exact ⟨s, { h with }, .idle, fun _ => rfl⟩
  | setLatency latency => exact ⟨s, { h with }, .idle, fun _ => rfl⟩
  | setEnvelope envelope => exact ⟨s, { h with }, .idle, fun _ => rfl⟩
  | closeTopic topic =>
    have hserver := m.server.closeTopic_registry topic
    rcases Registry.find?_closeTopic h.found topic with hf | ⟨ht, hf⟩
    · refine ⟨s, h.of_step .idle ?_ rfl ?_ ?_, .idle, fun _ => rfl⟩
      all_goals simp only [Mirror.apply, hserver]
      exacts [hf, h.current, h.finite]
    · refine ⟨s.close, h.of_step .closed ?_ rfl ?_ ?_, .closed, fun hn => ?_⟩
      on_goal 4 => exact absurd (by rw [← ht, h.topic]) hn
      all_goals simp only [Mirror.apply, hserver]
      exacts [hf, h.current, h.finite]
  | refresh =>
    have hstep : Chronicle.Step m.chronicle s (m.apply .refresh).chronicle s :=
      .waits (by simpa using h.runs.goes)
    exact ⟨s, h.of_step hstep h.found rfl h.current h.finite, hstep, fun _ => rfl⟩
  | tick =>
    have hstep : Chronicle.Step m.chronicle s (m.apply .tick).chronicle s := .waits h.runs.goes
    exact ⟨s, h.of_step hstep h.found rfl h.current h.finite, hstep, fun _ => rfl⟩
  | start pull =>
    have hstep : Chronicle.Step m.chronicle s (m.apply (.start pull)).chronicle s :=
      .started fun value ha => by rw [h.current, answer_value ha]
    refine ⟨s, h.of_step hstep h.found rfl ?_ h.finite, hstep, fun _ => rfl⟩
    exact (congrArg List.getLast? (m.chronicle.start_history ..)).trans h.current
  | complete pull =>
    have hstep : Chronicle.Step m.chronicle s (m.apply (.complete pull)).chronicle s := .completed
    refine ⟨s, h.of_step hstep h.found rfl ?_ h.finite, hstep, fun _ => rfl⟩
    exact (congrArg List.getLast? (m.chronicle.complete_history pull)).trans h.current
  | turn =>
    obtain ⟨s', hl, hstep, hopen⟩ := h.turn
    exact ⟨s', hl, hstep, fun _ => hopen⟩

end Linked

end Mirror

end VoiceAdmin.Sync
