import Mathlib.Data.List.Infix
import VoiceAdmin.Proofs.Sync.Handling

namespace VoiceAdmin.Sync

/-- A pull that was sent out. -/
structure Fetch (α : Type) where
  /-- The number of turns taken when it was sent, the one that sent it included. -/
  issued : Nat
  ticket : Ticket
  /-- What is noted about it on its way. -/
  note : Option α := none

/-- What comes of a pull. -/
inductive Answer (d : Domain) where
  | value (fetched : d.Value)
  | failure (error : RemoteError)
  | panic (reason : String)
  | cancelled

def Answer.pullEnd {d : Domain} (ticket : Ticket) : Answer d → PullEnd d
  | .value fetched => .fetched ticket fetched
  | .failure error => .failed ticket error
  | .panic reason => .broken reason
  | .cancelled => .cancelled

/-- One input handled. -/
structure Turn (d : Domain) (α : Type) where
  before : Session d
  inbox : Inbox d
  input : Input d
  /-- The pull whose end the input is. -/
  fetch : Option (Fetch α)
  after : Session d
  effects : List Effect

/-- A session at work, whatever reaches it and in whatever order. Messages from the view, pushes and ticks
come at any time, and a pull that was sent out ends at any time and in any way. A turn hands the session
the input that comes first. -/
structure Loop (d : Domain) (α : Type) where
  session : Session d := {}
  running : Bool := true
  controls : List Control := []
  tickDue : Bool := true
  /-- Pulls under way. -/
  fetches : List (Fetch α) := []
  /-- Pulls that ended and wait for the session, the first to end first. -/
  ended : List (Fetch α × PullEnd d) := []
  /-- The turns taken, the first one first. -/
  turns : List (Turn d α) := []

variable {d : Domain} {α : Type}

namespace Turn

def pushed (t : Turn d α) : Option d.Value := t.input.pushed

/-- The value that the cache counted as accepted. -/
def taken (t : Turn d α) : Option d.Value :=
  if t.before.cache.accepted < t.after.cache.accepted then t.input.offered else none

end Turn

/-- The values pushed in some turns. -/
def pushes (turns : List (Turn d α)) : List d.Value := turns.filterMap Turn.pushed

/-- What the rule of acceptance says of a turn, given those before it. A push that can be read is
accepted. A value fetched is accepted if no push that can be read was handled since its pull was
sent. -/
def Turn.due (earlier : List (Turn d α)) (t : Turn d α) : Option d.Value :=
  match t.input, t.fetch with
  | .push _, _ => t.pushed
  | .pulled (.fetched _ value), some fetch =>
    if (pushes (earlier.drop fetch.issued)).isEmpty then some value else none
  | _, _ => none

namespace Loop

def inbox (l : Loop d α) (s : Delivery.Subscription) : Inbox d :=
  { controls := l.controls, subscription := s, finished := l.ended.map Prod.snd, tickDue := l.tickDue }

/-- The pulls that the session waits for. -/
def pulls (l : Loop d α) : List (Fetch α) := l.fetches ++ l.ended.map Prod.fst

/-- The turn that comes next, with what it leaves behind. -/
def next? (l : Loop d α) (s : Delivery.Subscription) : Option (Turn d α × Inbox d) :=
  if l.running then
    ((l.inbox s).take l.session.listening).map fun (input, rest) =>
      ({ before := l.session
         inbox := l.inbox s
         input
         fetch := if input.isPulled then l.ended.head?.map Prod.fst else none
         after := (l.session.handle input).1
         effects := (l.session.handle input).2 }, rest)
  else none

def record (l : Loop d α) (t : Turn d α) (rest : Inbox d) : Loop d α where
  session := t.after
  running := !t.effects.contains .stop
  controls := rest.controls
  tickDue := rest.tickDue
  fetches := l.fetches ++
    (issued t.effects).map fun ticket => { issued := l.turns.length + 1, ticket }
  ended := if t.input.isPulled then l.ended.tail else l.ended
  turns := l.turns ++ [t]

/-- Takes a turn, if an input waits. A session that stops gives its subscription back. -/
def turn (l : Loop d α) (s : Delivery.Subscription) : Loop d α × Delivery.Subscription :=
  match l.next? s with
  | some (t, rest) =>
    (l.record t rest,
      if t.effects.contains .stop then rest.subscription.release else rest.subscription)
  | none => (l, s)

/-- One of the pulls under way ends. -/
def finish (l : Loop d α) (i : Nat) (answer : Answer d) : Loop d α :=
  match l.fetches[i]? with
  | some fetch =>
    { l with
      fetches := l.fetches.eraseIdx i
      ended := l.ended ++ [(fetch, answer.pullEnd fetch.ticket)] }
  | none => l

/-- Notes something about one of the pulls under way. -/
def annotate (l : Loop d α) (i : Nat) (note : α) : Loop d α :=
  { l with fetches := l.fetches.modify i fun fetch => { fetch with note := some note } }

/-- The session does not see yet that a pull ended. -/
theorem finish_frame (l : Loop d α) (i : Nat) (answer : Answer d) :
    (l.finish i answer).session = l.session ∧ (l.finish i answer).running = l.running ∧
      (l.finish i answer).controls = l.controls ∧ (l.finish i answer).turns = l.turns := by
  unfold finish
  split
  · exact ⟨rfl, rfl, rfl, rfl⟩
  · exact ⟨rfl, rfl, rfl, rfl⟩

theorem mem_ended_finish {l : Loop d α} {i : Nat} {answer : Answer d} {e : Fetch α × PullEnd d}
    (h : e ∈ (l.finish i answer).ended) :
    e ∈ l.ended ∨
      ∃ fetch, l.fetches[i]? = some fetch ∧ e = (fetch, answer.pullEnd fetch.ticket) := by
  unfold finish at h
  split at h
  · rename_i fetch hf
    rcases List.mem_append.mp h with h | h
    · exact .inl h
    · exact .inr ⟨fetch, hf, List.mem_singleton.mp h⟩
  · exact .inl h

/-- The pulls after a turn were there before, or it sent them out. -/
theorem mem_pulls_record {l : Loop d α} {t : Turn d α} {rest : Inbox d} {fetch : Fetch α}
    (h : fetch ∈ (l.record t rest).pulls) :
    fetch ∈ l.pulls ∨
      ∃ ticket ∈ issued t.effects, fetch = { issued := l.turns.length + 1, ticket } := by
  simp only [pulls, record, List.mem_append] at h
  rcases h with (h | h) | h
  · exact .inl (List.mem_append_left _ h)
  · obtain ⟨ticket, hticket, rfl⟩ := List.mem_map.mp h
    exact .inr ⟨ticket, hticket, rfl⟩
  · obtain ⟨e, he, rfl⟩ := List.mem_map.mp h
    refine .inl (List.mem_append_right _ (List.mem_map_of_mem ?_))
    split at he
    · exact List.mem_of_mem_tail he
    · exact he

theorem mem_pulls_finish {l : Loop d α} {i : Nat} {answer : Answer d} {fetch : Fetch α}
    (h : fetch ∈ (l.finish i answer).pulls) : fetch ∈ l.pulls := by
  unfold finish at h
  cases hi : l.fetches[i]? with
  | none => simpa [hi] using h
  | some ended =>
    simp only [hi, pulls, List.map_append, List.mem_append, List.map_cons, List.map_nil,
      List.mem_singleton] at h
    rcases h with h | h | rfl
    · exact List.mem_append_left _ (List.mem_of_mem_eraseIdx h)
    · exact List.mem_append_right _ h
    · exact List.mem_append_left _ (List.mem_of_getElem? hi)

/-- Noting something changes nothing else about a pull. -/
theorem mem_pulls_annotate {l : Loop d α} {i : Nat} {note : α} {fetch : Fetch α}
    (h : fetch ∈ (l.annotate i note).pulls) :
    ∃ noted ∈ l.pulls, fetch = noted ∨ fetch = { noted with note := some note } := by
  rcases List.mem_append.mp h with h | h
  · obtain ⟨j, hj⟩ := List.getElem?_of_mem h
    rw [annotate, List.getElem?_modify] at hj
    cases hg : l.fetches[j]? with
    | none => simp [hg] at hj
    | some noted =>
      refine ⟨noted, List.mem_append_left _ (List.mem_of_getElem? hg), ?_⟩
      simp only [hg, Option.map_eq_map, Option.map_some, Option.some.injEq] at hj
      split at hj
      · exact .inr hj.symm
      · exact .inl hj.symm
  · exact ⟨fetch, List.mem_append_right _ h, .inl rfl⟩

end Loop

end VoiceAdmin.Sync
