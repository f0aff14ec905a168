import VoiceAdmin.Proofs.Recording
import VoiceAdmin.Proofs.Sync.Numbering

namespace VoiceAdmin.Sync

open Delivery

variable {d : Domain} {α : Type}

/-- The pulls that some turns sent out, in order. -/
def sent (turns : List (Turn d α)) : List (Fetch α) :=
  turns.zipIdx.flatMap fun (t, i) => (issued t.effects).map fun ticket => { issued := i + 1, ticket }

/-- The pulls whose end some turns handled, in order. -/
def handled (turns : List (Turn d α)) : List (Fetch α) := turns.filterMap Turn.fetch

theorem sent_append (turns : List (Turn d α)) (t : Turn d α) :
    sent (turns ++ [t]) =
      sent turns ++ (issued t.effects).map fun ticket => { issued := turns.length + 1, ticket } := by
  simp [sent, List.zipIdx_append]

theorem handled_append (turns : List (Turn d α)) (t : Turn d α) :
    handled (turns ++ [t]) = handled turns ++ t.fetch.toList :=
  filterMap_concat _ turns t

/-- How a turn deals with pulls, given the turns before it. -/
structure Turn.Careful (earlier : List (Turn d α)) (t : Turn d α) : Prop where
  /-- One pull for a refresh or a tick that finds none under way, and none for anything else. -/
  sends : issued t.effects =
    if t.input.isRequest = true ∧ (sent earlier).length = (handled earlier).length then
      [⟨(pushes earlier).length⟩]
    else []
  /-- The end of a pull is that of the one under way, with the ticket taken when it was sent. -/
  ends : ∀ result, t.input = .pulled result → ∃ (fetch : Fetch α) (answer : Answer d),
    t.fetch = some fetch ∧ result = answer.pullEnd fetch.ticket ∧
      sent earlier = handled earlier ++ [fetch]
  others : t.input.isPulled = false → t.fetch = none

namespace Loop

/-- The pulls sent out are those whose end was handled, and then those that the session waits for. -/
structure Accounted (l : Loop d α) : Prop where
  account : sent l.turns = handled l.turns ++ l.pulls
  careful : ∀ earlier t, earlier ++ [t] <+: l.turns → t.Careful earlier

variable {l : Loop d α} {s : Subscription} {t : Turn d α} {rest : Inbox d}

theorem Sound.length_pulls (hs : l.Sound s) : l.pulls.length = l.session.outstanding := by
  rw [hs.outstanding]
  simp [pulls]

theorem Accounted.idle_iff (h : l.Accounted) (hs : l.Sound s) :
    l.session.outstanding = 0 ↔ (sent l.turns).length = (handled l.turns).length := by
  rw [h.account, List.length_append, hs.length_pulls]
  omega

/-- The one pull that a session waits for, when its end is handled. -/
theorem Next.pulls_before_pulled (n : l.Next s t rest) (hs : l.Sound s) {result : PullEnd d}
    (h : t.input = .pulled result) :
    ∃ (fetch : Fetch α) (answer : Answer d),
      t.fetch = some fetch ∧ result = answer.pullEnd fetch.ticket ∧ l.pulls = [fetch] := by
  obtain ⟨fetch, more, he, hf⟩ := n.fetched h
  obtain ⟨answer, ha⟩ := hs.answered (fetch, result) (by simp [he])
  have hmem : fetch ∈ l.pulls := List.mem_append_right _ (by simp [he])
  have hsingle : l.pulls.length ≤ 1 := hs.length_pulls ▸ hs.single
  refine ⟨fetch, answer, hf, ha, ?_⟩
  obtain ⟨only, ho⟩ := List.length_eq_one_iff.mp
    (Nat.le_antisymm hsingle (List.length_pos_of_mem hmem))
  rw [ho, List.mem_singleton] at hmem
  rw [ho, hmem]

theorem Accounted.careful_next (h : l.Accounted) (hs : l.Sound s) (n : l.Next s t rest) :
    t.Careful l.turns where
  sends := by
    rw [n.effects, Session.handle_issued, Cache.ticket, hs.counted]
    simp only [h.idle_iff hs]
  ends := by
    intro result hi
    obtain ⟨fetch, answer, hf, ha, hp⟩ := n.pulls_before_pulled hs hi
    exact ⟨fetch, answer, hf, ha, by rw [h.account, hp]⟩
  others := by
    intro hi
    rw [n.fetch, hi]
    rfl

theorem Accounted.record (h : l.Accounted) (hs : l.Sound s) (n : l.Next s t rest) :
    (l.record t rest).Accounted where
  account := by
    have hturns : (l.record t rest).turns = l.turns ++ [t] := rfl
    have hcareful := h.careful_next hs n
    rw [hturns, sent_append, handled_append]
    cases hi : t.input.isPulled with
    | true =>
      obtain ⟨result, hr⟩ : ∃ result, t.input = .pulled result := by
        cases ht : t.input <;> simp [ht, Input.isPulled] at hi
        exact ⟨_, rfl⟩
      obtain ⟨fetch, answer, hf, -, hsent⟩ := hcareful.ends result hr
      have hnone : issued t.effects = [] := by
        rw [hcareful.sends, hr]
        rfl
      rw [n.pulls_after_pulled hs hi, hnone, hsent, hf]
      simp
    | false =>
      rw [hcareful.others hi, h.account]
      by_cases hidle : issued t.effects = []
      · simp [pulls, Loop.record, hi, hidle]
      -- A pull is sent out only when none is under way, so nothing comes before it in the account.
      · have hempty : l.pulls = [] := by
          rw [hcareful.sends, ite_eq_right_iff] at hidle
          push Not at hidle
          have hlength := hidle.1.2
          rw [h.account, List.length_append] at hlength
          exact List.eq_nil_of_length_eq_zero (by omega)
        obtain ⟨hfetches, hended⟩ := List.append_eq_nil_iff.mp hempty
        simp [pulls, Loop.record, hi, hfetches, hended]
  careful := by
    intro earlier u hp
    rcases List.prefix_concat_iff.mp hp with he | hp
    · obtain ⟨rfl, hu⟩ := List.append_inj' he rfl
      cases hu
      exact h.careful_next hs n
    · exact h.careful earlier u hp

theorem Accounted.turn (h : l.Accounted) (hs : l.Sound s) : (l.turn s).1.Accounted := by
  unfold Loop.turn
  split
  · exact h.record hs (next?_next ‹_›)
  · exact h

/-- There is one pull at most, so it stays where it is in the account. -/
theorem Accounted.finish (h : l.Accounted) (hs : l.Sound s) (i : Nat) (answer : Answer d) :
    (l.finish i answer).Accounted := by
  cases hi : l.fetches[i]? with
  | none => simpa [Loop.finish, hi] using h
  | some fetch =>
    have hturns : (l.finish i answer).turns = l.turns := (l.finish_frame i answer).2.2.2
    have hsingle := hs.single
    rw [← hs.length_pulls] at hsingle
    have hlt : i < l.fetches.length := (List.getElem?_eq_some_iff.mp hi).1
    have hended : l.ended = [] := by
      apply List.eq_nil_of_length_eq_zero
      simp only [pulls, List.length_append, List.length_map] at hsingle
      omega
    obtain ⟨only, ho⟩ : ∃ only, l.fetches = [only] := by
      apply List.length_eq_one_iff.mp
      simp only [pulls, List.length_append, List.length_map] at hsingle
      omega
    have hpulls : (l.finish i answer).pulls = l.pulls := by
      obtain rfl : i = 0 := by simpa [ho] using hlt
      obtain rfl : only = fetch := by simpa [ho] using hi
      simp [Loop.finish, pulls, ho, hended]
    refine ⟨?_, ?_⟩
    · rw [hturns, hpulls]
      exact h.account
    · rw [hturns]
      exact h.careful

end Loop

/-- Pulls are told apart by the turn that sent them. -/
theorem sent_sorted {turns : List (Turn d α)}
    (h : ∀ earlier t, earlier ++ [t] <+: turns → t.Careful earlier) :
    (∀ fetch ∈ sent turns, fetch.issued ≤ turns.length) ∧
      (sent turns).Pairwise fun x y => x.issued < y.issued := by
  induction turns using List.reverseRecOn with
  | nil => exact ⟨nofun, .nil⟩
  | append_singleton turns t ih =>
    obtain ⟨hle, hsorted⟩ := ih fun earlier u hp => h earlier u (hp.trans (List.prefix_append ..))
    have hone := (h turns t (List.prefix_refl _)).sends
    rw [sent_append]
    refine ⟨fun fetch hf => ?_, List.pairwise_append.mpr ⟨hsorted, ?_, ?_⟩⟩
    · rw [List.length_append, List.length_singleton]
      rcases List.mem_append.mp hf with hf | hf
      · exact Nat.le_succ_of_le (hle fetch hf)
      · obtain ⟨ticket, -, rfl⟩ := List.mem_map.mp hf
        exact Nat.le_refl _
    · rw [hone]
      split
      · exact List.pairwise_singleton _ _
      · exact .nil
    · intro x hx y hy
      obtain ⟨ticket, -, rfl⟩ := List.mem_map.mp hy
      exact Nat.lt_succ_of_le (hle x hx)

/-- Without a request, a session that has no pull under way stays so. -/
theorem idle_append {earlier quiet : List (Turn d α)} (hidle : sent earlier = handled earlier)
    (hquiet : ∀ u ∈ quiet, u.input.isRequest = false)
    (h : ∀ before t, before ++ [t] <+: earlier ++ quiet → t.Careful before) :
    sent (earlier ++ quiet) = handled (earlier ++ quiet) := by
  induction quiet using List.reverseRecOn with
  | nil => simpa using hidle
  | append_singleton quiet u ih =>
    rw [← List.append_assoc] at h ⊢
    have hbefore := ih (fun v hv => hquiet v (List.mem_append_left _ hv))
      fun before t hp => h before t (hp.trans (List.prefix_append ..))
    have hu := h _ u (List.prefix_refl _)
    have hnone : issued u.effects = [] := by
      rw [hu.sends, hquiet u (by simp)]
      rfl
    have hfetch : u.fetch = none := by
      refine hu.others ?_
      cases hi : u.input with
      | pulled result =>
        obtain ⟨fetch, answer, -, -, hs⟩ := hu.ends result hi
        rw [hbefore] at hs
        simp at hs
      | _ => rfl
    rw [sent_append, handled_append, hbefore, hnone, hfetch]
    rfl

/-- Once the end of a pull was handled, no pull is under way. -/
theorem idle_of_pulled {earlier : List (Turn d α)} {t : Turn d α} (ht : t.Careful earlier)
    (h : t.input.isPulled = true) : sent (earlier ++ [t]) = handled (earlier ++ [t]) := by
  cases hi : t.input with
  | pulled result =>
    obtain ⟨fetch, answer, hf, -, hs⟩ := ht.ends result hi
    have hnone : issued t.effects = [] := by
      rw [ht.sends, hi]
      rfl
    rw [sent_append, handled_append, hs, hf, hnone]
    simp
  | _ => simp [hi, Input.isPulled] at h

namespace Exchange

theorem run_accounted_pulls (topic : Topic) (events : List (Event d)) :
    (run topic events).loop.Accounted := by
  induction events using List.reverseRecOn with
  | nil => exact ⟨rfl, fun _ _ hp => absurd (List.prefix_nil.mp hp) (by simp)⟩
  | append_singleton events event ih =>
    have hs := run_sound topic events
    rw [run, List.foldl_append]
    cases event with
    | control _ => exact ⟨ih.account, ih.careful⟩
    | push _ => exact ih
    | close => exact ih
    | tick => exact ⟨ih.account, ih.careful⟩
    | finish pull answer => exact ih.finish hs pull answer
    | turn => exact ih.turn hs

/-- Whatever the remote side does, no two pulls of a session are under way at one time. The pulls sent
out are, in order, those whose end was handled and the one that may be under way; each was sent by a
turn of its own, for a refresh or a tick that found none under way, with a ticket for the pushes handled
up to then. After the end of a pull, however it ended, the next refresh or tick sends out a new one. -/
theorem run_one_pull_at_a_time (topic : Topic) (events : List (Event d)) :
    let l := (run topic events).loop
    l.pulls.length ≤ 1 ∧
      sent l.turns = handled l.turns ++ l.pulls ∧
      ((sent l.turns).Pairwise fun x y => x.issued < y.issued) ∧
      (∀ earlier t, earlier ++ [t] <+: l.turns → t.Careful earlier) ∧
      ∀ earlier t quiet next, earlier ++ [t] ++ quiet ++ [next] <+: l.turns →
        t.input.isPulled = true → (∀ u ∈ quiet, u.input.isRequest = false) →
        next.input.isRequest = true →
        issued next.effects = [⟨(pushes (earlier ++ [t] ++ quiet)).length⟩] := by
  intro l
  have hs := run_sound topic events
  have h := run_accounted_pulls topic events
  refine ⟨hs.length_pulls ▸ hs.single, h.account, (sent_sorted h.careful).2, h.careful, ?_⟩
  intro earlier t quiet next hp ended hquiet hrequest
  have hbefore : earlier ++ [t] ++ quiet <+: l.turns := (List.prefix_append ..).trans hp
  have ht := h.careful earlier t ((List.prefix_append ..).trans hbefore)
  have hidle := idle_append (idle_of_pulled ht ended) hquiet fun before u hu =>
    h.careful before u (hu.trans hbefore)
  rw [(h.careful _ next hp).sends, if_pos ⟨hrequest, congrArg List.length hidle⟩]

end Exchange

end VoiceAdmin.Sync
