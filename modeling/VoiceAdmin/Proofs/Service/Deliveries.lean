import Mathlib.Data.List.Induction
import VoiceAdmin.Proofs.Delivery.Account
import VoiceAdmin.Proofs.Service.Pushes

namespace VoiceAdmin.Service

open Delivery

/-- What is done with a service and its subscriptions, from either end. -/
inductive Act where
  | subscribe (topic : Topic)
  | emit (push : Push)
  | operate (op : Operation)
  | setEnvelope (envelope : Envelope)
  | setAvailable (available : Bool)
  | closeTopic (topic : Topic)
  /-- The owner takes the next payload. -/
  | receive (id : Nat)
  /-- The owner gives its subscription back, or drops it. -/
  | release (id : Nat)

/-- A service with all that happened to its registry, in order. -/
structure Post where
  server : Server
  facts : List Fact := []

namespace Post

/-- A payload goes out in the envelope of the moment. -/
def published (s : Server) (push : Push) : Fact :=
  .published push.topic (s.envelope.wrap push.payload)

def act (p : Post) : Act → Post
  | .subscribe topic =>
    match p.server.subscribe topic with
    | .ok (id, server) => ⟨server, p.facts ++ [.subscribed topic id]⟩
    | .error _ => p
  | .emit push => ⟨p.server.emit push, p.facts ++ [published p.server push]⟩
  | .operate op =>
    ⟨p.server.perform op, p.facts ++ (p.server.state.perform op).pushes.map (published p.server)⟩
  | .setEnvelope envelope => { p with server := { p.server with envelope } }
  | .setAvailable available => { p with server := (p.server.setAvailable available).1 }
  | .closeTopic topic => ⟨(p.server.closeTopic topic).1, p.facts ++ [.closed topic]⟩
  | .receive id =>
    match p.server.registry.receive id with
    | (.payload payload, registry) =>
      ⟨{ p.server with registry }, p.facts ++ [.received id payload]⟩
    | _ => p
  | .release id =>
    ⟨{ p.server with registry := p.server.registry.release id }, p.facts ++ [.released id]⟩

/-- Starts with a service that nobody subscribed to yet. -/
def run (s : Server) (acts : List Act) : Post :=
  acts.foldl act { server := { s with registry := {} } }

theorem run_append (s : Server) (acts more : List Act) :
    run s (acts ++ more) = more.foldl act (run s acts) :=
  List.foldl_append

theorem reached_emits {s : Server} {facts : List Fact} (h : s.registry.Reached facts)
    (pushes : List Push) :
    (pushes.foldl Server.emit s).registry.Reached (facts ++ pushes.map (published s)) := by
  induction pushes generalizing s facts with
  | nil => simpa using h
  | cons p rest ih =>
    have hp : (s.emit p).registry.Reached (facts ++ [published s p]) := h.step (.published ..)
    have hrest := ih hp
    rwa [List.append_assoc] at hrest

theorem act_reached {p : Post} (h : p.server.registry.Reached p.facts) (a : Act) :
    (p.act a).server.registry.Reached (p.act a).facts := by
  cases a with
  | subscribe topic =>
    unfold act Server.subscribe Server.check
    cases p.server.isAvailable with
    | false => exact h
    | true => exact h.step (.subscribed ..)
  | emit push => exact h.step (.published ..)
  | operate op =>
    have hstate : Registry.Reached p.facts
        { p.server with state := (p.server.state.perform op).state }.registry := h
    exact reached_emits hstate _
  | setEnvelope envelope => exact h
  | setAvailable available => exact h
  | closeTopic topic =>
    simp only [act, Server.closeTopic_registry]
    exact h.step (.closed ..)
  | receive id =>
    simp only [act]
    split
    · exact h.step (.received ‹_›)
    · exact h
  | release id => exact h.step (.released ..)

theorem run_reached (s : Server) (acts : List Act) :
    (run s acts).server.registry.Reached (run s acts).facts := by
  induction acts using List.reverseRecOn with
  | nil => exact .empty
  | append_singleton acts a ih =>
    rw [run_append]
    exact act_reached ih a

/-- The service takes a subscriber whenever it is available. -/
theorem act_subscribe {p : Post} (h : p.server.isAvailable = true) (topic : Topic) :
    (p.act (.subscribe topic)).facts = p.facts ++ [.subscribed topic p.server.registry.nextId] := by
  unfold act Server.subscribe Server.check
  rw [h]
  rfl

theorem act_receive {p : Post} {id : Nat} {s : Subscription} {payload : Json} {rest : List Json}
    (hf : p.server.registry.find? id = some s) (hheld : s.held = true)
    (hp : s.pending = payload :: rest) :
    (p.act (.receive id)).facts = p.facts ++ [.received id payload] ∧
      (p.act (.receive id)).server.registry.find? id = some { s with pending := rest } := by
  simp only [act, Registry.receive_pending hf hheld hp]
  exact ⟨trivial, by rw [Registry.find?_update, hf]; rfl⟩

/-- An owner that asks as often as something waits for it gets all of it, in order. -/
theorem receive_all {p : Post} {id : Nat} {s : Subscription}
    (hf : p.server.registry.find? id = some s) (hheld : s.held = true) :
    ((List.replicate s.pending.length (.receive id)).foldl act p).facts =
      p.facts ++ s.pending.map (.received id) := by
  obtain ⟨topic, pending, senderOpen, held, releases⟩ := s
  induction pending generalizing p with
  | nil => simp
  | cons payload rest ih =>
    obtain ⟨hfacts, hnext⟩ := act_receive hf hheld rfl
    have hrest := ih hnext hheld
    simp only [List.length_cons, List.replicate_succ, List.foldl_cons, List.map_cons]
    rw [hrest, hfacts, List.append_assoc]
    rfl

/-- Every subscription gets exactly what was published on its own topic between its start and its end,
in order: what its owner took, and what still waits for it. What waits is handed over when the owner asks
for it, the oldest first and all of it if the owner goes on asking. To release a subscription strikes it
off the register, whatever happened before, and leaves all others as they are. No id is given out twice,
and those are counted on a topic that were made on it and neither given back nor closed. An available
service takes every subscriber. -/
theorem run_delivers_exactly (s : Server) (acts : List Act) :
    let facts := (run s acts).facts
    let registry := (run s acts).server.registry
    (∀ earlier topic id later, facts = earlier ++ .subscribed topic id :: later →
      ∃ sub, registry.find? id = some sub ∧ Served topic id later sub) ∧
    (∀ id sub, registry.find? id = some sub → sub.held = true →
      (∀ payload rest, sub.pending = payload :: rest →
        (registry.receive id).1 = .payload payload ∧
          (registry.receive id).2.find? id = some { sub with pending := rest }) ∧
      (run s (acts ++ List.replicate sub.pending.length (.receive id))).facts =
        facts ++ sub.pending.map (.received id)) ∧
    (facts.filterMap Fact.made).Nodup ∧
    (∀ topic, registry.registered topic = standing topic facts ∧
      registry.count topic = (standing topic facts).length) ∧
    (∀ id, (∀ other, other ≠ id → (registry.release id).find? other = registry.find? other) ∧
      ∀ topic, (registry.release id).registered topic =
        (registry.registered topic).filter fun other => !(id == other)) ∧
    ((run s acts).server.isAvailable = true → ∀ topic,
      (run s (acts ++ [.subscribe topic])).facts = facts ++ [.subscribed topic registry.nextId]) := by
  intro facts registry
  have h : registry.Reached facts := run_reached s acts
  refine ⟨fun earlier topic id later hf => h.serves hf, fun id sub hf hheld => ⟨?_, ?_⟩, h.made.2,
    fun topic => ⟨h.registered topic, ?_⟩, fun id => ⟨fun other ho => ?_, fun topic => ?_⟩,
    fun havailable topic => ?_⟩
  · intro payload rest hp
    rw [Registry.receive_pending hf hheld hp]
    exact ⟨rfl, by rw [Registry.find?_update, hf]; rfl⟩
  · rw [run_append]
    exact receive_all hf hheld
  · rw [Registry.count_eq_length, h.registered]
  · exact Registry.find?_update_other ho.symm _
  · exact Registry.registered_release _ id topic
  · rw [run_append]
    exact act_subscribe havailable topic

/-- Two listen on one topic, and one is given back between two payloads: the other takes both. -/
theorem run_delivers_exactly_to_two :
    let ban name : Push := ⟨.bans, .array [.text name]⟩
    let acts : List Act := [.subscribe .bans, .subscribe .bans, .emit (ban "a"), .release 1,
      .emit (ban "b")]
    (run {} (acts ++ [.receive 2, .receive 2])).facts = (run {} acts).facts ++
      [.received 2 (.array [.text "a"]), .received 2 (.array [.text "b"])] := by
  intro ban acts
  exact (((run_delivers_exactly {} acts).2.1 2
    { topic := .bans, pending := [.array [.text "a"], .array [.text "b"]] } rfl rfl).2)

end Post

end VoiceAdmin.Service
