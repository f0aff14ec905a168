import VoiceAdmin.Proofs.Sync.Mirror

namespace VoiceAdmin.Sync

open Delivery

namespace Chronicle

variable {d : Domain} {c c' : Chronicle d} {s s' : Subscription}
variable {t : Turn d (Nat × Answer d)} {rest : Inbox d}

/-- What was accepted and what still waits is in order, and a pull whose ticket is still good brings
nothing older. -/
structure Ordered (c : Chronicle d) : Prop where
  sorted : (c.accepted.map Prod.fst ++ c.queued).Pairwise (· ≤ ·)
  fresh : ∀ fetch ∈ c.loop.pulls, ∀ k answer, fetch.note = some (k, answer) →
    fetch.ticket.pushes = c.loop.session.cache.pushes → ∀ e ∈ c.accepted, e.1 ≤ k

namespace Ordered

theorem operate (h : c.Ordered) (hn : c.Numbered s) (value : d.Value) (sent : Nat) :
    (c.operate value sent).Ordered := by
  refine ⟨?_, h.fresh⟩
  rw [Chronicle.operate, ← List.append_assoc]
  refine List.pairwise_append.mpr ⟨h.sorted, List.pairwise_replicate.mpr (.inr le_rfl), ?_⟩
  intro k hk m hm
  rw [(List.mem_replicate.mp hm).2]
  rcases List.mem_append.mp hk with hk | hk
  · obtain ⟨e, he, rfl⟩ := List.mem_map.mp hk
    exact (hn.accepted_lt he).le
  · exact (hn.queued_lt k hk).le

/-- A pull that is taken up now brings nothing older than what was accepted. -/
theorem start (h : c.Ordered) (hn : c.Numbered s) (pull : Nat) (answer : Answer d) :
    (c.start pull answer).Ordered := by
  unfold Chronicle.start
  split
  · refine ⟨h.sorted, ?_⟩
    intro fetch hf k a hnote hfresh e he
    obtain ⟨noted, hn', rfl | rfl⟩ := Loop.mem_pulls_annotate hf
    · exact h.fresh fetch hn' k a hnote hfresh e he
    · obtain ⟨rfl, rfl⟩ : c.history.length - 1 = k ∧ answer = a := by simpa using hnote
      exact Nat.le_sub_one_of_lt (hn.accepted_lt he)
  · exact h

theorem complete (h : c.Ordered) (pull : Nat) : (c.complete pull).Ordered := by
  unfold Chronicle.complete
  split
  · rename_i answer _
    refine ⟨h.sorted, ?_⟩
    intro fetch hf k a hnote hfresh
    obtain ⟨hsession, -, -, -⟩ := c.loop.finish_frame pull answer
    dsimp only at hfresh
    rw [hsession] at hfresh
    exact h.fresh fetch (Loop.mem_pulls_finish hf) k a hnote hfresh
  · exact h

theorem record (h : c.Ordered) (hn : c.Numbered s) (hr : c.Runs s) (n : c.loop.Next s t rest) :
    (c.record t rest).Ordered := by
  cases hn.handles hr n with
  | push first number known reads taken left newer queue accepted =>
    refine ⟨?_, ?_⟩
    · have hs := h.sorted
      rw [number] at hs
      rw [accepted, queue]
      simpa using hs
    · intro fetch hf k answer hnote hfresh
      exact absurd hfresh (hr.outdated newer (Loop.noted_mem_pulls hf hnote))
  | pull pulled note fresh drained taken left last queue accepted =>
    refine ⟨?_, ?_⟩
    · have hs := h.sorted
      rw [hn.queued_nil drained, List.append_nil] at hs
      rw [accepted, queue, hn.queued_nil drained, List.append_nil, List.map_append]
      refine List.pairwise_append.mpr ⟨hs, List.pairwise_singleton _ _, ?_⟩
      intro m hm j hj
      obtain ⟨e, he, rfl⟩ := List.mem_map.mp hm
      obtain rfl : j = _ := List.mem_singleton.mp hj
      exact h.fresh _ pulled _ _ note fresh e he
    · intro fetch hf
      rw [last] at hf
      cases hf
  | nothing taken left keeps queue accepted =>
    refine ⟨?_, ?_⟩
    · rw [accepted, queue]
      exact h.sorted
    · intro fetch hf k answer hnote hfresh
      rw [accepted]
      have hnow : fetch.ticket.pushes = t.after.cache.pushes := hfresh
      rw [keeps] at hnow
      exact h.fresh fetch (Loop.noted_mem_pulls hf hnote) k answer hnote hnow

theorem step (h : c.Ordered) (hn : c.Numbered s) (hr : c.Runs s) (hstep : Step c s c' s') :
    c'.Ordered := by
  cases hstep with
  | pushed _ _ => exact h.operate hn _ 1
  | silent _ => exact h.operate hn _ 0
  | closed => exact h
  | waits _ => exact ⟨h.sorted, h.fresh⟩
  | started _ => exact h.start hn _ _
  | completed => exact h.complete _
  | turned =>
    rcases hr.turn_cases with he | ⟨t, rest, n, he⟩
    · rw [he]
      exact h
    · rw [he]
      exact h.record hn hr n
  | idle => exact h

end Ordered

end Chronicle

namespace Mirror

open Service

variable {d : Domain} {m : Mirror d} {s : Subscription}

theorem run_ordered (hl : m.Linked s) (ho : m.chronicle.Ordered) {events : List Event}
    (he : ∀ e ∈ events, e.Finite) :
    ∃ s', (m.run events).Linked s' ∧ (m.run events).chronicle.Ordered := by
  induction events using List.reverseRecOn with
  | nil => exact ⟨s, hl, ho⟩
  | append_singleton events e ih =>
    obtain ⟨s', hl', ho'⟩ := ih fun x hx => he x (by simp [hx])
    obtain ⟨s'', hl'', hstep, -⟩ := hl'.apply (he e (by simp))
    rw [run, List.foldl_append]
    exact ⟨s'', hl'', ho'.step hl'.numbered hl'.runs hstep⟩

/-- The values that a view accepts are values that the service had, in the order in which it had them:
the number of one is never below that of another accepted before it. -/
theorem accepted_in_order {server : Server} (hfresh : server.registry.Fresh)
    (hfinite : server.state.Finite) (hmount : mount server d = .ok m) {events : List Event}
    (he : ∀ e ∈ events, e.Finite) :
    let c := (m.run events).chronicle
    (c.accepted.map Prod.fst).Pairwise (· ≤ ·) ∧
      c.accepted.map Prod.snd = c.loop.turns.filterMap Turn.taken ∧
      (∀ e ∈ c.accepted, c.history[e.1]? = some e.2) ∧
      c.history.getLast? = some ((m.run events).server.state.value d) := by
  obtain ⟨hl, hc⟩ := linked_mount hfresh hfinite hmount
  have ho : m.chronicle.Ordered := by
    rw [hc]
    exact ⟨.nil, nofun⟩
  obtain ⟨s, hl', ho'⟩ := run_ordered hl ho he
  exact ⟨(List.pairwise_append.mp ho'.sorted).1, hl'.numbered.recorded, hl'.numbered.accepted,
    hl'.current⟩

/-- The first push overtakes the answer to the first pull; the second one still comes out of a stream
that is closed already, before the answer to the second pull. -/
theorem accepted_in_order_of_closed_stream :
    let m : Mirror .status :=
      { server := { registry := ⟨2, [.status], [⟨1, { topic := .status }⟩]⟩ }
        id := 1
        chronicle := { history := [{}] } }
    let events : List Event :=
      [.turn, .start 0, .operate (.setStatus (.all .running)), .complete 0, .turn, .turn,
        .tick, .turn, .operate (.execute "1" .stopServer), .start 0, .closeTopic .status, .complete 0,
        .turn, .turn, .turn]
    mount {} .status = .ok m ∧
      (m.run events).chronicle.accepted.map Prod.fst = [1, 2] ∧
      ((m.run events).chronicle.accepted.map Prod.fst).Pairwise (· ≤ ·) := by
  intro m events
  have hfresh : ({} : Server).registry.Fresh := .empty
  have hfinite : ({} : Server).state.Finite := nofun
  have hmount : mount {} .status = .ok m := rfl
  have he : ∀ e ∈ events, e.Finite := by
    simp [events, Event.Finite, Operation.Finite]
  exact ⟨hmount, by decide +kernel, (accepted_in_order hfresh hfinite hmount he).1⟩

end Mirror

end VoiceAdmin.Sync
