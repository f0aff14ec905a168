import Mathlib.Data.List.Forall2
import VoiceAdmin.Proofs.Sync.Chronicle

namespace VoiceAdmin.Sync

open Delivery

variable {d : Domain} {α : Type}

namespace Loop

variable {l : Loop d α} {s : Subscription} {t : Turn d α} {rest : Inbox d} {fetch : Fetch α}

/-- A pull about which something is noted was not sent out just now. -/
theorem noted_mem_pulls {note : α} (h : fetch ∈ (l.record t rest).pulls)
    (hnote : fetch.note = some note) : fetch ∈ l.pulls := by
  rcases mem_pulls_record h with h | ⟨ticket, -, rfl⟩
  · exact h
  · cases hnote

/-- There is never more than one pull, so none is left when the end of one is handled. -/
theorem Next.pulls_after_pulled (n : l.Next s t rest) (hs : l.Sound s)
    (h : t.input.isPulled = true) : (l.record t rest).pulls = [] := by
  have hcount := n.outstanding hs
  have hsingle := hs.single
  have hrequest : t.input.isRequest = false := by
    cases hi : t.input <;> simp_all [Input.isPulled, Input.isRequest]
  rw [n.after, Session.handle_outstanding, Session.handle_issued] at hcount
  simp only [h, hrequest, Bool.false_eq_true, false_and, if_true, if_false, List.length_nil] at hcount
  apply List.eq_nil_of_length_eq_zero
  simp only [pulls, List.length_append, List.length_map]
  omega

/-- Only a push takes something out of the subscription. -/
theorem Next.left (n : l.Next s t rest) (h : t.input.isPush = false) : rest.subscription = s := by
  have ht := n.takes
  generalize t.input = input at ht h
  cases ht with
  | push => cases h
  | _ => rfl

end Loop

namespace Chronicle

/-- A payload is that of the value with the given number. -/
def Carries (c : Chronicle d) (payload : Json) (k : Nat) : Prop :=
  ∃ value, c.history[k]? = some value ∧ decodePayload d.topic d.read payload = .ok value

/-- Every number stands for the value that goes with it. -/
structure Numbered (c : Chronicle d) (s : Subscription) : Prop where
  started : c.history ≠ []
  queued : List.Forall₂ c.Carries s.pending c.queued
  noted : ∀ fetch ∈ c.loop.pulls, ∀ k answer, fetch.note = some (k, answer) →
    k < c.history.length ∧ ∀ value, answer = .value value → c.history[k]? = some value
  ended : ∀ e ∈ c.loop.ended, ∃ k answer,
    e.1.note = some (k, answer) ∧ e.2 = answer.pullEnd e.1.ticket
  accepted : ∀ e ∈ c.accepted, c.history[e.1]? = some e.2
  recorded : c.accepted.map Prod.snd = c.loop.turns.filterMap Turn.taken

/-- What a turn does to the numbers. -/
inductive Handles (c : Chronicle d) (s : Subscription) (t : Turn d (Nat × Answer d))
    (rest : Inbox d) : Prop where
  | push {payload : Json} {pending : List Json} {k : Nat} {queued : List Nat} {value : d.Value}
      (first : s.pending = payload :: pending) (number : c.queued = k :: queued)
      (known : c.history[k]? = some value)
      (reads : decodePayload d.topic d.read payload = .ok value)
      (taken : t.taken = some value)
      (left : rest.subscription = { s with pending })
      (newer : t.after.cache.pushes = c.loop.session.cache.pushes + 1)
      (queue : (c.record t rest).queued = queued)
      (accepted : (c.record t rest).accepted = c.accepted ++ [(k, value)])
  | pull {fetch : Fetch (Nat × Answer d)} {k : Nat} {value : d.Value}
      (pulled : fetch ∈ c.loop.pulls) (note : fetch.note = some (k, .value value))
      (fresh : fetch.ticket.pushes = c.loop.session.cache.pushes)
      (drained : s.pending = [])
      (taken : t.taken = some value)
      (left : rest.subscription = s)
      (last : (c.record t rest).loop.pulls = [])
      (queue : (c.record t rest).queued = c.queued)
      (accepted : (c.record t rest).accepted = c.accepted ++ [(k, value)])
  | nothing (taken : t.taken = none) (left : rest.subscription = s)
      (keeps : t.after.cache = c.loop.session.cache)
      (queue : (c.record t rest).queued = c.queued)
      (accepted : (c.record t rest).accepted = c.accepted)

variable {c c' : Chronicle d} {s s' : Subscription} {t : Turn d (Nat × Answer d)} {rest : Inbox d}

theorem handles_nothing (n : c.loop.Next s t rest) (hp : t.input.isPush = false)
    (ha : c.loop.session.accepts t.input = none) : c.Handles s t rest := by
  have htaken : t.taken = none := n.taken.trans ha
  refine .nothing htaken (n.left hp) ?_ ?_ ?_
  · rw [n.after]
    exact (Session.handle_keeps ha).cache
  · simp [record, hp]
  · simp [record, htaken]

theorem Numbered.handles (h : c.Numbered s) (hr : c.Runs s) (n : c.loop.Next s t rest) :
    c.Handles s t rest := by
  cases hi : t.input with
  | push payload =>
    have ht := n.takes
    rw [hi] at ht
    cases ht with
    | @push _ pending _ _ _ first =>
      have first : s.pending = payload :: pending := first
      have hq := h.queued
      rw [first] at hq
      obtain ⟨k, queued, ⟨value, known, reads⟩, -, number⟩ := List.forall₂_cons_left_iff.mp hq
      have hpushed : t.input.pushed = some value := by
        simp [hi, Input.pushed, reads, Except.toOption]
      have htaken : t.taken = some value := by
        rw [n.taken, ← hpushed, hi]
        rfl
      refine .push first number known reads htaken rfl ?_ ?_ ?_
      · rw [n.after, Session.handle_pushes, hpushed]
        rfl
      · simp [record, hi, Input.isPush, number]
      · simp [record, Chronicle.number, hi, number, htaken]
  | pulled result =>
    obtain ⟨fetch, more, he, hf⟩ := n.fetched hi
    obtain ⟨k, answer, hnote, ha⟩ : ∃ k answer,
        fetch.note = some (k, answer) ∧ result = answer.pullEnd fetch.ticket :=
      h.ended (fetch, result) (by simp [he])
    have hmem : fetch ∈ c.loop.pulls := List.mem_append_right _ (by simp [he])
    have hp : t.input.isPush = false := by rw [hi]; rfl
    cases hacc : c.loop.session.accepts t.input with
    | none => exact handles_nothing n hp hacc
    | some value =>
      rw [hi] at hacc
      obtain ⟨ticket, rfl, fresh⟩ := Session.accepts_pulled hacc
      obtain ⟨rfl, rfl⟩ : answer = .value value ∧ fetch.ticket = ticket := by
        cases answer with
        | value v =>
          simp only [Answer.pullEnd, PullEnd.fetched.injEq] at ha
          exact ⟨by rw [ha.2], ha.1.symm⟩
        | _ => cases ha
      have htaken : t.taken = some value := by rw [n.taken, hi, hacc]
      refine .pull hmem hnote fresh (n.drained hr.sound hi) htaken (n.left hp)
        (n.pulls_after_pulled hr.sound (by rw [hi]; rfl)) ?_ ?_
      · simp [record, hp]
      · simp [record, number, hi, hf, hnote, htaken]
  | _ => exact handles_nothing n (by rw [hi]; rfl) (by rw [hi]; rfl)

/-- A push makes every ticket out of date. -/
theorem Runs.outdated (hr : c.Runs s)
    (newer : t.after.cache.pushes = c.loop.session.cache.pushes + 1)
    {fetch : Fetch (Nat × Answer d)} (hf : fetch ∈ c.loop.pulls) :
    fetch.ticket.pushes ≠ (c.record t rest).loop.session.cache.pushes := by
  have hle := (hr.sound.sent fetch hf).ticket_le
  rw [← hr.sound.counted] at hle
  have hnow : (c.record t rest).loop.session.cache.pushes = t.after.cache.pushes := rfl
  omega

theorem history_operate {k : Nat} {value : d.Value} (h : c.history[k]? = some value)
    (next : d.Value) (sent : Nat) : (c.operate next sent).history[k]? = some value := by
  have hk : k < c.history.length := (List.getElem?_eq_some_iff.mp h).1
  rw [operate, List.getElem?_append_left hk]
  exact h

namespace Numbered

theorem carries_operate (h : c.Numbered s) (value : d.Value) (sent : Nat) :
    List.Forall₂ (c.operate value sent).Carries s.pending c.queued :=
  h.queued.imp fun _ _ ⟨v, known, reads⟩ => ⟨v, history_operate known value sent, reads⟩

theorem operate (h : c.Numbered s) (value : d.Value) (sent : Nat)
    (hq : List.Forall₂ (c.operate value sent).Carries s'.pending (c.operate value sent).queued) :
    (c.operate value sent).Numbered s' where
  started := by simp [Chronicle.operate]
  queued := hq
  noted := by
    intro fetch hf k answer hnote
    obtain ⟨hk, hv⟩ := h.noted fetch hf k answer hnote
    refine ⟨?_, fun v ha => history_operate (hv v ha) value sent⟩
    simp only [Chronicle.operate, List.length_append]
    omega
  ended := h.ended
  accepted := fun e he => history_operate (h.accepted e he) value sent
  recorded := h.recorded

theorem start (h : c.Numbered s) (pull : Nat) {answer : Answer d}
    (current : ∀ value, answer = .value value → c.history.getLast? = some value) :
    (c.start pull answer).Numbered s := by
  unfold Chronicle.start
  split
  · refine { h with noted := ?_ }
    intro fetch hf k a hnote
    obtain ⟨noted, hn, rfl | rfl⟩ := Loop.mem_pulls_annotate hf
    · exact h.noted fetch hn k a hnote
    · obtain ⟨rfl, rfl⟩ : c.history.length - 1 = k ∧ answer = a := by simpa using hnote
      have hpos := List.length_pos_of_ne_nil h.started
      refine ⟨Nat.sub_lt hpos Nat.one_pos, fun v hv => ?_⟩
      rw [← List.getLast?_eq_getElem?]
      exact current v hv
  · exact h

theorem complete (h : c.Numbered s) (pull : Nat) : (c.complete pull).Numbered s := by
  unfold Chronicle.complete
  split
  · rename_i issued ticket k answer hfetch
    refine { h with noted := ?_, ended := ?_, recorded := ?_ }
    · exact fun fetch hf => h.noted fetch (Loop.mem_pulls_finish hf)
    · intro e he
      rcases Loop.mem_ended_finish he with he | ⟨fetch, hi, rfl⟩
      · exact h.ended e he
      · obtain rfl : ⟨issued, ticket, some (k, answer)⟩ = fetch := by simpa [hfetch] using hi
        exact ⟨k, answer, rfl, rfl⟩
    · obtain ⟨-, -, -, hturns⟩ := c.loop.finish_frame pull answer
      exact h.recorded.trans (by rw [hturns])
  · exact h

theorem record (h : c.Numbered s) (hr : c.Runs s) (n : c.loop.Next s t rest) :
    (c.record t rest).Numbered rest.subscription := by
  have noted : ∀ fetch ∈ (c.record t rest).loop.pulls, ∀ k answer, fetch.note = some (k, answer) →
      k < c.history.length ∧ ∀ value, answer = .value value → c.history[k]? = some value := by
    intro fetch hf k answer hnote
    exact h.noted fetch (Loop.noted_mem_pulls hf hnote) k answer hnote
  have ended : ∀ e ∈ (c.record t rest).loop.ended, ∃ k answer,
      e.1.note = some (k, answer) ∧ e.2 = answer.pullEnd e.1.ticket := by
    intro e he
    refine h.ended e ?_
    simp only [Chronicle.record, Loop.record] at he
    split at he
    · exact List.mem_of_mem_tail he
    · exact he
  cases h.handles hr n with
  | push first number known reads taken left newer queue accepted =>
    refine ⟨h.started, ?_, noted, ended, ?_, ?_⟩
    · have hq := h.queued
      rw [first, number] at hq
      rw [left, queue]
      exact (List.forall₂_cons.mp hq).2
    · intro e he
      rw [accepted, List.mem_append, List.mem_singleton] at he
      rcases he with he | rfl
      · exact h.accepted e he
      · exact known
    · rw [accepted]
      simp [h.recorded, Chronicle.record, Loop.record, taken]
  | pull pulled note fresh drained taken left last queue accepted =>
    refine ⟨h.started, ?_, noted, ended, ?_, ?_⟩
    · rw [left, queue]
      exact h.queued
    · intro e he
      rw [accepted, List.mem_append, List.mem_singleton] at he
      rcases he with he | rfl
      · exact h.accepted e he
      · exact (h.noted _ pulled _ _ note).2 _ rfl
    · rw [accepted]
      simp [h.recorded, Chronicle.record, Loop.record, taken]
  | nothing taken left keeps queue accepted =>
    refine ⟨h.started, ?_, noted, ended, ?_, ?_⟩
    · rw [left, queue]
      exact h.queued
    · rw [accepted]
      exact h.accepted
    · rw [accepted]
      simp [h.recorded, Chronicle.record, Loop.record, taken]

theorem step (h : c.Numbered s) (hr : c.Runs s) (hstep : Step c s c' s') : c'.Numbered s' := by
  cases hstep with
  | pushed reads isOpen =>
    refine h.operate _ 1 (List.rel_append (h.carries_operate _ 1) (.cons ⟨_, ?_, reads⟩ .nil))
    simp [Chronicle.operate]
  | silent same =>
    refine h.operate _ 0 ?_
    simpa [Chronicle.operate] using h.carries_operate _ 0
  | closed => exact { h with }
  | waits goes => exact { h with }
  | started current => exact h.start _ current
  | completed => exact h.complete _
  | turned =>
    rcases hr.turn_cases with he | ⟨t, rest, n, he⟩
    · rw [he]
      exact h
    · rw [he]
      exact h.record hr n
  | idle => exact h

theorem accepted_lt (h : c.Numbered s) {e : Nat × d.Value} (he : e ∈ c.accepted) :
    e.1 < c.history.length :=
  (List.getElem?_eq_some_iff.mp (h.accepted e he)).1

theorem queued_lt (h : c.Numbered s) : ∀ k ∈ c.queued, k < c.history.length := by
  have hq := h.queued
  generalize s.pending = pending, c.queued = queued at hq
  induction hq with
  | nil => simp
  | cons carries _ ih =>
    obtain ⟨value, known, -⟩ := carries
    intro k hk
    rcases List.mem_cons.mp hk with rfl | hk
    · exact (List.getElem?_eq_some_iff.mp known).1
    · exact ih k hk

theorem queued_nil (h : c.Numbered s) (hp : s.pending = []) : c.queued = [] := by
  have hq := h.queued
  rw [hp] at hq
  exact List.forall₂_nil_left_iff.mp hq

end Numbered

end Chronicle

end VoiceAdmin.Sync
