import Mathlib.Data.List.Induction
import VoiceAdmin.Proofs.Sync.Loop

namespace VoiceAdmin.Sync

open Delivery

variable {d : Domain} {α : Type}

/-- The session after some turns. -/
def sessionAfter (turns : List (Turn d α)) : Session d :=
  (turns.getLast?.map Turn.after).getD {}

/-- A pull was sent out by one of the turns, with a ticket for the pushes handled up to then. -/
structure Fetch.SentBy (fetch : Fetch α) (turns : List (Turn d α)) : Prop where
  before : fetch.issued ≤ turns.length
  sender : ∃ t, turns[fetch.issued - 1]? = some t ∧ .startPull fetch.ticket ∈ t.effects
  counted : fetch.ticket.pushes = (pushes (turns.take fetch.issued)).length

/-- What holds of a turn, given those before it. -/
structure Turn.Lawful (earlier : List (Turn d α)) (t : Turn d α) : Prop where
  follows : t.before = sessionAfter earlier
  /-- It is a step of the session on what waited for it. -/
  stepped : ∃ rest, t.inbox.take t.before.listening = some (t.input, rest) ∧
    t.before.step t.inbox = some (t.after, rest, t.effects)
  accepted : t.taken = t.due earlier
  /-- Malformed pushes and pulls that fail, break off, are cancelled or are stale do nothing. -/
  inert : t.taken = none → t.after.cache = t.before.cache ∧ t.after.shown = t.before.shown
  counted : t.after.cache.pushes = t.before.cache.pushes + t.pushed.toList.length
  told : .publish ∈ t.effects ↔ ∃ value, t.taken = some value ∧
    (t.before.cache.value == some value) = false
  /-- The end of a pull is that of a pull sent out before. -/
  fetched : ∀ result, t.input = .pulled result → ∃ (fetch : Fetch α) (answer : Answer d),
    t.fetch = some fetch ∧ result = answer.pullEnd fetch.ticket ∧ fetch.SentBy earlier
  /-- No push waits when the end of a pull is handled. -/
  drained : ∀ result, t.input = .pulled result → t.inbox.subscription.pending = []
  pushFirst : ∀ payload rest, t.inbox.controls = [] →
    t.inbox.subscription.pending = payload :: rest → t.input = .push payload

namespace Loop

/-- What holds of a session, its surroundings and its subscription at any time. -/
structure Sound (l : Loop d α) (s : Subscription) : Prop where
  follows : l.session = sessionAfter l.turns
  shown : l.session.shown = l.session.cache.value
  holds : Holds l.session.cache.value (l.turns.filterMap Turn.taken).getLast?
  counted : l.session.cache.pushes = (pushes l.turns).length
  outstanding : l.session.outstanding = l.fetches.length + l.ended.length
  single : l.session.outstanding ≤ 1
  answered : ∀ e ∈ l.ended, ∃ answer : Answer d, e.2 = answer.pullEnd e.1.ticket
  sent : ∀ fetch ∈ l.pulls, fetch.SentBy l.turns
  held : l.running = true → s.held = true
  deaf : l.session.listening = false → s.pending = [] ∧ s.senderOpen = false
  lawful : ∀ earlier t, earlier ++ [t] <+: l.turns → t.Lawful earlier

/-- The turn that comes next, taken apart. -/
structure Next (l : Loop d α) (s : Subscription) (t : Turn d α) (rest : Inbox d) : Prop where
  running : l.running = true
  before : t.before = l.session
  inbox : t.inbox = l.inbox s
  take : (l.inbox s).take l.session.listening = some (t.input, rest)
  fetch : t.fetch = if t.input.isPulled then l.ended.head?.map Prod.fst else none
  after : t.after = (l.session.handle t.input).1
  effects : t.effects = (l.session.handle t.input).2

variable {l : Loop d α} {s : Subscription} {t : Turn d α} {rest : Inbox d}

theorem next?_next (h : l.next? s = some (t, rest)) : l.Next s t rest := by
  unfold next? at h
  split at h
  · obtain ⟨⟨input, left⟩, htake, heq⟩ := Option.map_eq_some_iff.mp h
    cases heq
    exact ⟨‹_›, rfl, rfl, htake, rfl, rfl, rfl⟩
  · cases h

namespace Next

theorem takes (n : l.Next s t rest) : (l.inbox s).Takes l.session.listening t.input rest :=
  Inbox.take_takes n.take

/-- What was taken over is what the session accepts. -/
theorem taken (n : l.Next s t rest) : t.taken = l.session.accepts t.input := by
  unfold Turn.taken
  rw [n.before, n.after]
  cases h : l.session.accepts t.input with
  | none => simp [(Session.handle_keeps h).cache]
  | some value =>
    simp [(Session.handle_takesOver h).accepted, Session.accepts_offered h]

/-- The end of a pull that is handled is the first that waits. -/
theorem fetched (n : l.Next s t rest) {result : PullEnd d} (h : t.input = .pulled result) :
    ∃ fetch more, l.ended = (fetch, result) :: more ∧ t.fetch = some fetch := by
  have ht := n.takes
  rw [h] at ht
  cases ht with
  | pulled calm drained first =>
    cases he : l.ended with
    | nil => simp [Loop.inbox, he] at first
    | cons e more =>
      obtain ⟨fetch, ended⟩ := e
      simp only [Loop.inbox, he, List.map_cons, List.cons.injEq] at first
      obtain ⟨rfl, -⟩ := first
      exact ⟨fetch, more, rfl, by simp [n.fetch, h, Input.isPulled, he]⟩

theorem drained (n : l.Next s t rest) (hs : l.Sound s) {result : PullEnd d}
    (h : t.input = .pulled result) : s.pending = [] := by
  have ht := n.takes
  rw [h] at ht
  cases ht with
  | pulled calm drained first =>
    cases hl : l.session.listening with
    | true => exact (drained hl).2.1
    | false => exact (hs.deaf hl).1

theorem pushFirst (n : l.Next s t rest) (hs : l.Sound s) {payload : Json} {queued : List Json}
    (calm : l.controls = []) (hp : s.pending = payload :: queued) : t.input = .push payload := by
  have waiting : s.pending ≠ [] := by simp [hp]
  have hl : l.session.listening = true := by
    cases hl : l.session.listening with
    | true => rfl
    | false => exact (waiting (hs.deaf hl).1).elim
  have ht := n.takes
  generalize t.input = input at ht
  cases ht with
  | control first => simp [Loop.inbox, calm] at first
  | push _ _ _ first =>
    simp only [Loop.inbox, hp, List.cons.injEq] at first
    rw [first.1]
  | streamClosed _ _ ended => exact (waiting (ended (hs.held n.running)).1).elim
  | pulled _ drained _ => exact (waiting (drained hl).2.1).elim
  | tick _ drained _ _ => exact (waiting (drained hl).2.1).elim

end Next

end Loop

theorem pushes_append (earlier later : List (Turn d α)) :
    pushes (earlier ++ later) = pushes earlier ++ pushes later :=
  List.filterMap_append ..

namespace Fetch.SentBy

variable {fetch : Fetch α} {turns : List (Turn d α)}

theorem append (h : fetch.SentBy turns) (t : Turn d α) : fetch.SentBy (turns ++ [t]) := by
  obtain ⟨sender, hat, hsent⟩ := h.sender
  refine ⟨?_, ⟨sender, ?_, hsent⟩, ?_⟩
  · have := h.before
    simp only [List.length_append]
    omega
  · rw [List.getElem?_append_left (List.getElem?_eq_some_iff.mp hat).1]
    exact hat
  · rw [List.take_append_of_le_length h.before]
    exact h.counted

/-- Pushes were handled before the pull was sent, and since then. -/
theorem length_pushes (h : fetch.SentBy turns) :
    (pushes turns).length =
      fetch.ticket.pushes + (pushes (turns.drop fetch.issued)).length := by
  have hsplit := pushes_append (turns.take fetch.issued) (turns.drop fetch.issued)
  rw [List.take_append_drop] at hsplit
  rw [h.counted, hsplit, List.length_append]

/-- No push was handled since the pull was sent if and only if its ticket is still good. -/
theorem fresh (h : fetch.SentBy turns) :
    fetch.ticket.pushes = (pushes turns).length ↔
      (pushes (turns.drop fetch.issued)).isEmpty = true := by
  rw [h.length_pushes, List.isEmpty_iff, ← List.length_eq_zero_iff]
  omega

theorem ticket_le (h : fetch.SentBy turns) : fetch.ticket.pushes ≤ (pushes turns).length := by
  rw [h.length_pushes]
  omega

end Fetch.SentBy

namespace Loop.Sound

variable {l : Loop d α} {s : Subscription} {t : Turn d α} {rest : Inbox d}

/-- What the session accepts is what the rule says. -/
theorem accepts_due (hs : l.Sound s) (n : l.Next s t rest) :
    l.session.accepts t.input = t.due l.turns := by
  cases hi : t.input with
  | push payload => simp only [Session.accepts, Turn.due, hi, Turn.pushed]
  | pulled result =>
    obtain ⟨fetch, more, he, hf⟩ := n.fetched hi
    obtain ⟨answer, ha⟩ := hs.answered (fetch, result) (by simp [he])
    have hfresh := (hs.sent fetch (by simp [Loop.pulls, he])).fresh
    cases answer with
    | value fetched =>
      obtain rfl : result = .fetched fetch.ticket fetched := ha
      simp only [Session.accepts, Turn.due, hi, hf, hs.counted, hfresh]
    | _ =>
      simp only [Answer.pullEnd] at ha
      simp only [Session.accepts, Turn.due, hi, hf, ha]
  | _ => simp only [Session.accepts, Turn.due, hi]

theorem lawful_next (hs : l.Sound s) (n : l.Next s t rest) : t.Lawful l.turns := by
  have hinbox : t.inbox.subscription = s := by rw [n.inbox]; rfl
  refine ⟨n.before.trans hs.follows, ⟨rest, ?_, ?_⟩, n.taken.trans (hs.accepts_due n),
    ?_, ?_, ?_, ?_, ?_, ?_⟩
  · rw [n.inbox, n.before]
    exact n.take
  · rw [n.inbox, n.before, n.after, n.effects]
    simp [Session.step, n.take]
  · intro h
    rw [n.taken] at h
    have hk := Session.handle_keeps h
    rw [n.after, n.before]
    exact ⟨hk.cache, hk.shown⟩
  · rw [n.after, n.before]
    exact l.session.handle_pushes t.input
  · rw [n.effects, n.before, n.taken]
    cases h : l.session.accepts t.input with
    | none => simp [(Session.handle_keeps h).silent]
    | some value => simpa using (Session.handle_takesOver h).told
  · intro result hi
    obtain ⟨fetch, more, he, hf⟩ := n.fetched hi
    obtain ⟨answer, ha⟩ := hs.answered (fetch, result) (by simp [he])
    exact ⟨fetch, answer, hf, ha, hs.sent fetch (by simp [Loop.pulls, he])⟩
  · intro result hi
    rw [hinbox]
    exact n.drained hs hi
  · intro payload queued calm hp
    rw [n.inbox] at calm
    rw [hinbox] at hp
    exact n.pushFirst hs calm hp

end Loop.Sound

namespace Loop.Next

variable {l : Loop d α} {s : Subscription} {t : Turn d α} {rest : Inbox d}

/-- A session that handles its input keeps its subscription. -/
theorem frame (n : l.Next s t rest) :
    rest.subscription.topic = s.topic ∧ rest.subscription.held = s.held ∧
      rest.subscription.senderOpen = s.senderOpen := by
  have ht := n.takes
  generalize t.input = input at ht
  cases ht <;> exact ⟨rfl, rfl, rfl⟩

/-- A session that no longer listens has seen its stream drained and closed. -/
theorem deaf (n : l.Next s t rest) (hs : l.Sound s) (h : t.after.listening = false) :
    rest.subscription.pending = [] ∧ rest.subscription.senderOpen = false := by
  rw [n.after, Session.handle_listening] at h
  have ht := n.takes
  generalize t.input = input at ht h
  cases ht with
  | streamClosed _ _ ended => exact ended (hs.held n.running)
  | push _ hears _ _ => simp [hears] at h
  | control _ => exact hs.deaf h
  | pulled _ _ _ => exact hs.deaf h
  | tick _ _ _ _ => exact hs.deaf h

theorem outstanding (n : l.Next s t rest) (hs : l.Sound s) :
    t.after.outstanding = (l.record t rest).fetches.length + (l.record t rest).ended.length := by
  have ho := hs.outstanding
  rw [n.after, Session.handle_outstanding, ← n.effects]
  simp only [record, List.length_append, List.length_map]
  cases hi : t.input with
  | pulled result =>
    obtain ⟨fetch, more, he, -⟩ := n.fetched hi
    simp only [he, List.length_cons] at ho
    simp only [Input.isPulled, if_true, he, List.tail_cons]
    omega
  | _ =>
    simp only [Input.isPulled, Bool.false_eq_true, if_false]
    omega

theorem single (n : l.Next s t rest) (hs : l.Sound s) : t.after.outstanding ≤ 1 := by
  have ho := hs.single
  rw [n.after, Session.handle_outstanding, Session.handle_issued]
  by_cases hr : t.input.isRequest = true ∧ l.session.outstanding = 0
  · simp [hr]
  · simp only [if_neg hr, List.length_nil]
    split <;> omega

/-- A ticket sent out counts the pushes handled so far, and no push is handled by the turn itself. -/
theorem sent (n : l.Next s t rest) (hs : l.Sound s) {ticket : Ticket}
    (h : ticket ∈ issued t.effects) :
    Fetch.SentBy { issued := l.turns.length + 1, ticket, note := (none : Option α) }
      (l.turns ++ [t]) := by
  have hstart : .startPull ticket ∈ t.effects := by
    obtain ⟨effect, he, ht⟩ := List.mem_filterMap.mp h
    cases effect <;> cases ht
    exact he
  rw [n.effects, Session.handle_issued] at h
  split at h
  · rename_i hr
    have hpushed : t.pushed = none := by
      unfold Turn.pushed
      cases hi : t.input <;> simp [hi, Input.isRequest, Input.pushed] at hr ⊢
    obtain rfl : ticket = l.session.cache.ticket := by simpa using h
    refine ⟨by simp, ⟨t, by simp, hstart⟩, ?_⟩
    rw [List.take_of_length_le (by simp), pushes_append]
    simpa [pushes, hpushed, Cache.ticket] using hs.counted
  · cases h

theorem holds (n : l.Next s t rest) (hs : l.Sound s) :
    Holds t.after.cache.value ((l.turns ++ [t]).filterMap Turn.taken).getLast? := by
  rw [List.filterMap_append, n.after]
  have ht := n.taken
  cases h : l.session.accepts t.input with
  | none =>
    rw [(Session.handle_keeps h).cache]
    simpa [ht, h] using hs.holds
  | some value =>
    have hv := (Session.handle_takesOver h).holds
    simpa [ht, h] using hv

theorem shown (n : l.Next s t rest) (hs : l.Sound s) : t.after.shown = t.after.cache.value := by
  rw [n.after]
  cases h : l.session.accepts t.input with
  | none =>
    have hk := Session.handle_keeps h
    rw [hk.cache, hk.shown]
    exact hs.shown
  | some value => exact (Session.handle_takesOver h).shown hs.shown

end Loop.Next

namespace Loop.Sound

variable {l : Loop d α} {s : Subscription}

theorem record (hs : l.Sound s) {t : Turn d α} {rest : Inbox d} (n : l.Next s t rest) :
    (l.record t rest).Sound
      (if t.effects.contains .stop then rest.subscription.release else rest.subscription) where
  follows := by simp [Loop.record, sessionAfter]
  shown := n.shown hs
  holds := n.holds hs
  counted := by
    have hc := (hs.lawful_next n).counted
    rw [n.before, hs.counted] at hc
    simp only [Loop.record, pushes_append, List.length_append, hc]
    cases hp : t.pushed <;> simp [pushes, hp]
  outstanding := n.outstanding hs
  single := n.single hs
  answered := by
    intro e he
    refine hs.answered e ?_
    simp only [Loop.record] at he
    split at he
    · exact List.mem_of_mem_tail he
    · exact he
  sent := by
    intro fetch hf
    rcases mem_pulls_record hf with hf | ⟨ticket, hticket, rfl⟩
    · exact (hs.sent fetch hf).append t
    · exact n.sent hs hticket
  held := by
    intro hr
    have hgoes : t.effects.contains .stop = false := by simpa [Loop.record] using hr
    rw [hgoes]
    exact n.frame.2.1.trans (hs.held n.running)
  deaf := by
    intro hl
    obtain ⟨hp, ho⟩ := n.deaf hs hl
    split
    · exact ⟨Subscription.release_pending hp, (Subscription.release_senderOpen _).trans ho⟩
    · exact ⟨hp, ho⟩
  lawful := by
    intro earlier u hp
    rcases List.prefix_concat_iff.mp hp with he | hp
    · obtain ⟨rfl, hu⟩ := List.append_inj' he rfl
      cases hu
      exact hs.lawful_next n
    · exact hs.lawful earlier u hp

theorem turn (hs : l.Sound s) : (l.turn s).1.Sound (l.turn s).2 := by
  unfold Loop.turn
  split
  · exact hs.record (next?_next ‹_›)
  · exact hs

/-- Messages and ticks that come do nothing before they are handled. -/
theorem inbox (hs : l.Sound s) (controls : List Control) (tickDue : Bool) :
    { l with controls, tickDue }.Sound s :=
  { hs with }

theorem finish (hs : l.Sound s) (i : Nat) (answer : Answer d) : (l.finish i answer).Sound s := by
  have answered : ∀ e ∈ (l.finish i answer).ended, ∃ answer : Answer d,
      e.2 = answer.pullEnd e.1.ticket := by
    intro e he
    rcases mem_ended_finish he with he | ⟨fetch, -, rfl⟩
    · exact hs.answered e he
    · exact ⟨answer, rfl⟩
  have sent : ∀ fetch ∈ (l.finish i answer).pulls, fetch.SentBy l.turns :=
    fun fetch hf => hs.sent fetch (mem_pulls_finish hf)
  unfold Loop.finish at answered sent ⊢
  cases h : l.fetches[i]? with
  | none => exact hs
  | some fetch =>
    simp only [h] at answered sent
    refine { hs with outstanding := ?_, answered, sent }
    have hi : i < l.fetches.length := (List.getElem?_eq_some_iff.mp h).1
    have := hs.outstanding
    simp only [List.length_eraseIdx, if_pos hi, List.length_append, List.length_singleton]
    omega

theorem annotate (hs : l.Sound s) (i : Nat) (note : α) : (l.annotate i note).Sound s := by
  refine { hs with outstanding := ?_, sent := ?_ }
  · simpa [Loop.annotate] using hs.outstanding
  · intro f hf
    obtain ⟨noted, hn, rfl | rfl⟩ := mem_pulls_annotate hf
    · exact hs.sent f hn
    · have hsent := hs.sent noted hn
      exact ⟨hsent.before, hsent.sender, hsent.counted⟩

/-- A subscription may take more pushes as long as it is open, and may close. -/
theorem subscription (hs : l.Sound s) {next : Subscription} (hheld : next.held = s.held)
    (hclosed : s.senderOpen = false → next.senderOpen = false ∧ next.pending = s.pending) :
    l.Sound next := by
  refine { hs with held := ?_, deaf := ?_ }
  · intro hr
    rw [hheld]
    exact hs.held hr
  · intro hl
    obtain ⟨hp, ho⟩ := hs.deaf hl
    exact ⟨(hclosed ho).2.trans hp, (hclosed ho).1⟩

theorem init {s : Subscription} (h : s.held = true) : ({} : Loop d α).Sound s where
  follows := rfl
  shown := rfl
  holds := trivial
  counted := rfl
  outstanding := rfl
  single := Nat.zero_le 1
  answered := nofun
  sent := nofun
  held := fun _ => h
  deaf := nofun
  lawful := fun _ _ hp => absurd (List.prefix_nil.mp hp) (by simp)

end Loop.Sound

/-- A session with all that waits for it, and its end of a subscription. -/
structure Exchange (d : Domain) where
  loop : Loop d Unit := {}
  subscription : Subscription

namespace Exchange

/-- What may happen. The remote side pushes what it likes, and answers pulls as it likes. -/
inductive Event (d : Domain) where
  | control (control : Control)
  | push (payload : Json)
  | close
  | tick
  | finish (pull : Nat) (answer : Answer d)
  | turn

def apply (x : Exchange d) : Event d → Exchange d
  | .control control => { x with loop := { x.loop with controls := x.loop.controls ++ [control] } }
  | .push payload => { x with subscription := (x.subscription.send payload).2 }
  | .close => { x with subscription := x.subscription.close }
  | .tick => { x with loop := { x.loop with tickDue := true } }
  | .finish pull answer => { x with loop := x.loop.finish pull answer }
  | .turn => ⟨(x.loop.turn x.subscription).1, (x.loop.turn x.subscription).2⟩

def run (topic : Topic) (events : List (Event d)) : Exchange d :=
  events.foldl apply { subscription := { topic } }

theorem apply_sound {x : Exchange d} (h : x.loop.Sound x.subscription) (event : Event d) :
    (x.apply event).loop.Sound (x.apply event).subscription := by
  cases event with
  | control control => exact h.inbox (x.loop.controls ++ [control]) x.loop.tickDue
  | push payload =>
    refine h.subscription ?_ fun hc => ?_
    · unfold apply Subscription.send
      dsimp only
      split <;> rfl
    · simp [apply, Subscription.send, hc]
  | close => exact h.subscription rfl fun _ => ⟨rfl, rfl⟩
  | tick => exact h.inbox x.loop.controls true
  | finish pull answer => exact h.finish pull answer
  | turn => exact h.turn

theorem run_sound (topic : Topic) (events : List (Event d)) :
    (run topic events).loop.Sound (run topic events).subscription := by
  induction events using List.reverseRecOn with
  | nil => exact .init rfl
  | append_singleton events event ih =>
    rw [run, List.foldl_append]
    exact apply_sound ih event

/-- Whatever the remote side does, every turn obeys the rule of acceptance, and the view shows what the
cache holds: the value accepted last. -/
theorem run_accepts_by_rule (topic : Topic) (events : List (Event d)) :
    let l := (run topic events).loop
    l.session = sessionAfter l.turns ∧
      l.session.shown = l.session.cache.value ∧
      Holds l.session.cache.value (l.turns.filterMap Turn.taken).getLast? ∧
      l.session.cache.pushes = (pushes l.turns).length ∧
      ∀ earlier t, earlier ++ [t] <+: l.turns → t.Lawful earlier := by
  have h := run_sound topic events
  exact ⟨h.follows, h.shown, h.holds, h.counted, h.lawful⟩

end Exchange

end VoiceAdmin.Sync
