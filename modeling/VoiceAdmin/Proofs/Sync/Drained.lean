import VoiceAdmin.Proofs.Domain.Equality
import VoiceAdmin.Proofs.Sync.Mirror

namespace VoiceAdmin.Sync

open Delivery

namespace Chronicle

variable {d : Domain} {c c' : Chronicle d} {s s' : Subscription}
variable {t : Turn d (Nat × Answer d)} {rest : Inbox d}

/-- The stream is open, and ends with the current value. Once it is drained, the value held is the
current one, and so is any that a pull with a good ticket will bring. -/
structure Current (c : Chronicle d) (s : Subscription) : Prop where
  isOpen : s.senderOpen = true
  last : ∀ payload, s.pending.getLast? = some payload →
    ∃ value, c.history.getLast? = some value ∧ decodePayload d.topic d.read payload = .ok value
  held : s.pending = [] → ∀ held, c.loop.session.cache.value = some held →
    ∃ value, c.history.getLast? = some value ∧ (held == value) = true
  noted : s.pending = [] → ∀ fetch ∈ c.loop.pulls,
    fetch.ticket.pushes = c.loop.session.cache.pushes →
      ∀ k value, fetch.note = some (k, .value value) → c.history.getLast? = some value

namespace Current

theorem pushed (h : c.Current s) {value : d.Value} {payload : Json}
    (reads : decodePayload d.topic d.read payload = .ok value) :
    (c.operate value 1).Current { s with pending := s.pending ++ [payload] } where
  isOpen := h.isOpen
  last := by
    intro p hp
    obtain rfl : payload = p := by simpa using hp
    exact ⟨value, by simp [operate], reads⟩
  held := fun hp => absurd hp (by simp)
  noted := fun hp => absurd hp (by simp)

theorem silent (h : c.Current s) {value : d.Value} (same : c.history.getLast? = some value) :
    (c.operate value 0).Current s := by
  have hlast : (c.operate value 0).history.getLast? = c.history.getLast? := by
    rw [same]
    simp [operate]
  refine ⟨h.isOpen, ?_, ?_, ?_⟩
  · rw [hlast]
    exact h.last
  · rw [hlast]
    exact h.held
  · rw [hlast]
    exact h.noted

theorem start (h : c.Current s) (pull : Nat) {answer : Answer d}
    (current : ∀ value, answer = .value value → c.history.getLast? = some value) :
    (c.start pull answer).Current s := by
  unfold Chronicle.start
  split
  · refine { h with noted := ?_ }
    intro hp fetch hf hfresh k value hnote
    obtain ⟨noted, hn, rfl | rfl⟩ := Loop.mem_pulls_annotate hf
    · exact h.noted hp fetch hn hfresh k value hnote
    · obtain ⟨-, ha⟩ : c.history.length - 1 = k ∧ answer = .value value := by simpa using hnote
      exact current value ha
  · exact h

theorem complete (h : c.Current s) (pull : Nat) : (c.complete pull).Current s := by
  unfold Chronicle.complete
  split
  · rename_i answer _
    obtain ⟨hsession, -, -, -⟩ := c.loop.finish_frame pull answer
    refine { h with held := ?_, noted := ?_ }
    · dsimp only
      rw [hsession]
      exact h.held
    · intro hp fetch hf hfresh
      dsimp only at hfresh
      rw [hsession] at hfresh
      exact h.noted hp fetch (Loop.mem_pulls_finish hf) hfresh
  · exact h

/-- A value that is taken over when it is the current one. -/
theorem held_of_taken (n : c.loop.Next s t rest) {value : d.Value} (taken : t.taken = some value)
    (current : c.history.getLast? = some value) (hself : (value == value) = true) {held : d.Value}
    (hheld : t.after.cache.value = some held) :
    ∃ value, c.history.getLast? = some value ∧ (held == value) = true := by
  rw [n.taken] at taken
  have hholds := (Session.handle_takesOver taken).holds
  rw [← n.after, hheld] at hholds
  refine ⟨value, current, ?_⟩
  rcases hholds with rfl | hbeq
  · exact hself
  · exact hbeq

theorem record (h : c.Current s) (hn : c.Numbered s) (hr : c.Runs s) (n : c.loop.Next s t rest)
    (hself : ∀ value, c.history.getLast? = some value → (value == value) = true) :
    (c.record t rest).Current rest.subscription := by
  cases hn.handles hr n with
  | @push payload pending k queued value first number known reads taken left newer queue accepted =>
    rw [left]
    refine ⟨h.isOpen, ?_, ?_, ?_⟩
    · intro p hp
      refine h.last p ?_
      rw [first, List.getLast?_cons, hp]
      rfl
    · -- The payload handled was the last one, so its value is the current one.
      intro hp held hheld
      have hp : pending = [] := hp
      obtain ⟨v, current, hv⟩ := h.last payload (by rw [first, hp]; rfl)
      obtain rfl : value = v := by simpa [reads] using hv
      exact held_of_taken n taken current (hself value current) hheld
    · intro _ fetch hf hfresh k value hnote
      exact absurd hfresh (hr.outdated newer (Loop.noted_mem_pulls hf hnote))
  | pull pulled note fresh drained taken left last queue accepted =>
    have current := h.noted drained _ pulled fresh _ _ note
    rw [left]
    refine ⟨h.isOpen, h.last, fun _ held hheld => ?_, fun _ fetch hf => ?_⟩
    · exact held_of_taken n taken current (hself _ current) hheld
    · rw [last] at hf
      cases hf
  | nothing taken left keeps queue accepted =>
    rw [left]
    refine ⟨h.isOpen, h.last, ?_, ?_⟩
    · intro hp held hheld
      have hheld : t.after.cache.value = some held := hheld
      rw [keeps] at hheld
      exact h.held hp held hheld
    · intro hp fetch hf hfresh k value hnote
      have hfresh : fetch.ticket.pushes = t.after.cache.pushes := hfresh
      rw [keeps] at hfresh
      exact h.noted hp fetch (Loop.noted_mem_pulls hf hnote) hfresh k value hnote

theorem step (h : c.Current s) (hn : c.Numbered s) (hr : c.Runs s) (hstep : Step c s c' s')
    (hopen : s'.senderOpen = s.senderOpen)
    (hself : ∀ value, c.history.getLast? = some value → (value == value) = true) :
    c'.Current s' := by
  cases hstep with
  | pushed reads _ => exact h.pushed reads
  | silent same => exact h.silent (same h.isOpen)
  | closed => exact absurd (hopen.trans h.isOpen) (by simp [Subscription.close])
  | waits _ => exact { h with }
  | started current => exact h.start _ current
  | completed => exact h.complete _
  | turned =>
    rcases hr.turn_cases with he | ⟨t, rest, n, he⟩
    · rw [he]
      exact h
    · rw [he]
      exact h.record hn hr n hself
  | idle => exact h

end Current

end Chronicle

namespace Mirror

open Service

variable {d : Domain} {m : Mirror d} {s : Subscription}

theorem run_current (hl : m.Linked s) (hc : m.chronicle.Current s) {events : List Event}
    (he : ∀ e ∈ events, e.Finite) (hopen : .closeTopic d.topic ∉ events) :
    ∃ s', (m.run events).Linked s' ∧ (m.run events).chronicle.Current s' := by
  induction events using List.reverseRecOn with
  | nil => exact ⟨s, hl, hc⟩
  | append_singleton events e ih =>
    obtain ⟨s', hl', hc'⟩ := ih (fun x hx => he x (by simp [hx])) fun hm => hopen (by simp [hm])
    obtain ⟨s'', hl'', hstep, hstays⟩ := hl'.apply (he e (by simp))
    have hself : ∀ value, (m.run events).chronicle.history.getLast? = some value →
        (value == value) = true := by
      intro value hv
      rw [hl'.current] at hv
      cases hv
      exact d.beq_self (hl'.finite.value d)
    rw [run, List.foldl_append]
    refine ⟨s'', hl'', hc'.step hl'.numbered hl'.runs hstep (hstays fun h => ?_) hself⟩
    exact hopen (by simp [h])

/-- As long as its topic is not closed: a view whose stream is drained shows nothing yet, or the current
value of the service. -/
theorem drained_shows_current {server : Server} (hfresh : server.registry.Fresh)
    (hfinite : server.state.Finite) (hmount : mount server d = .ok m) {events : List Event}
    (he : ∀ e ∈ events, e.Finite) (hopen : .closeTopic d.topic ∉ events) :
    ∃ s, (m.run events).server.registry.find? (m.run events).id = some s ∧
      (s.pending = [] → ∀ value, (m.run events).chronicle.loop.session.shown = some value →
        (value == (m.run events).server.state.value d) = true) := by
  obtain ⟨hl, hc⟩ := linked_mount hfresh hfinite hmount
  have hcurrent : m.chronicle.Current { topic := d.topic } := by
    rw [hc]
    exact ⟨rfl, nofun, nofun, nofun⟩
  obtain ⟨s, hl', hc'⟩ := run_current hl hcurrent he hopen
  refine ⟨s, hl'.found, fun hp value hv => ?_⟩
  rw [hl'.runs.sound.shown] at hv
  obtain ⟨current, hlast, hbeq⟩ := hc'.held hp value hv
  rw [hl'.current] at hlast
  cases hlast
  exact hbeq

/-- New frequencies reach a view by a push while the answer to its pull is on its way. -/
theorem drained_shows_saved_frequencies :
    let server : Server := { state := .seeded 4 }
    let m : Mirror .settings :=
      { server := { server with registry := (server.registry.subscribe .settings).2 }
        id := 1
        chronicle := { history := [server.state.value .settings] } }
    let events : List Event :=
      [.turn, .start 0, .operate (.execute "1" (.saveFrequencies { global := [251.0] })), .turn,
        .complete 0, .turn]
    mount server .settings = .ok m ∧
      ∃ value, (m.run events).chronicle.loop.session.shown = some value ∧
        (value == (m.run events).server.state.value .settings) = true := by
  intro server m events
  have hfresh : server.registry.Fresh := .empty
  have hfinite : server.state.Finite := by
    simp only [AdminState.Finite, Frequencies.Finite, server]
    decide
  have hmount : mount server .settings = .ok m := mount_available rfl .settings
  have hsaved : Frequencies.Finite { global := [251.0] } := by
    simp only [Frequencies.Finite]
    decide
  have he : ∀ e ∈ events, e.Finite := by
    simpa [events, Event.Finite, Operation.Finite] using hsaved
  obtain ⟨s, hfound, hcurrent⟩ := drained_shows_current hfresh hfinite hmount he (by simp [events])
  have hdrained : ((m.run events).server.registry.find? (m.run events).id).map
      (fun s => s.pending.isEmpty) = some true := by decide +kernel
  have hshown : (m.run events).chronicle.loop.session.shown.isSome = true := by decide +kernel
  obtain ⟨value, hvalue⟩ := Option.isSome_iff_exists.mp hshown
  refine ⟨hmount, value, hvalue, hcurrent ?_ value hvalue⟩
  simpa [hfound] using hdrained

end Mirror

end VoiceAdmin.Sync
