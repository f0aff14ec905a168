import VoiceAdmin.Proofs.Delivery.Lookup
import VoiceAdmin.Proofs.Sync.Held
import VoiceAdmin.Sync.Session

namespace VoiceAdmin.Sync

variable {d : Domain}

namespace Input

/-- The value that a push brings, where it can be read. -/
def pushed : Input d → Option d.Value
  | .push payload => (decodePayload d.topic d.read payload).toOption
  | _ => none

/-- The value that an input brings. -/
def offered : Input d → Option d.Value
  | .push payload => pushed (.push payload)
  | .pulled (.fetched _ value) => some value
  | _ => none

/-- Asks for a pull. -/
def isRequest : Input d → Bool
  | .control .refresh | .tick => true
  | _ => false

def isPush : Input d → Bool
  | .push _ => true
  | _ => false

def isPulled : Input d → Bool
  | .pulled _ => true
  | _ => false

end Input

/-- Which input comes first, and what is left. -/
inductive Inbox.Takes (inbox : Inbox d) (listening : Bool) : Input d → Inbox d → Prop where
  | control {control : Control} {rest : List Control} (first : inbox.controls = control :: rest) :
    Takes inbox listening (.control control) { inbox with controls := rest }
  | push {payload : Json} {rest : List Json} (calm : inbox.controls = [])
      (hears : listening = true) (held : inbox.subscription.held = true)
      (first : inbox.subscription.pending = payload :: rest) :
    Takes inbox listening (.push payload)
      { inbox with subscription := { inbox.subscription with pending := rest } }
  | streamClosed (calm : inbox.controls = []) (hears : listening = true)
      (ended : inbox.subscription.held = true →
        inbox.subscription.pending = [] ∧ inbox.subscription.senderOpen = false) :
    Takes inbox listening .streamClosed inbox
  | pulled {result : PullEnd d} {rest : List (PullEnd d)} (calm : inbox.controls = [])
      (drained : listening = true →
        inbox.subscription.held = true ∧ inbox.subscription.pending = [] ∧
          inbox.subscription.senderOpen = true)
      (first : inbox.finished = result :: rest) :
    Takes inbox listening (.pulled result) { inbox with finished := rest }
  | tick (calm : inbox.controls = [])
      (drained : listening = true →
        inbox.subscription.held = true ∧ inbox.subscription.pending = [] ∧
          inbox.subscription.senderOpen = true)
      (idle : inbox.finished = []) (due : inbox.tickDue = true) :
    Takes inbox listening .tick { inbox with tickDue := false }

namespace Inbox

open Delivery.Subscription

variable {inbox rest : Inbox d} {listening : Bool} {input : Input d}

theorem takeLocal_takes (calm : inbox.controls = [])
    (drained : listening = true →
      inbox.subscription.held = true ∧ inbox.subscription.pending = [] ∧
        inbox.subscription.senderOpen = true)
    (h : inbox.takeLocal = some (input, rest)) : inbox.Takes listening input rest := by
  unfold takeLocal at h
  split at h
  · cases h
    exact .pulled calm drained ‹_›
  · split at h
    · cases h
      exact .tick calm drained ‹_› ‹_›
    · cases h

theorem take_takes (h : inbox.take listening = some (input, rest)) :
    inbox.Takes listening input rest := by
  unfold take at h
  split at h
  · cases h
    exact .control ‹_›
  · rename_i calm
    cases listening with
    | false => exact takeLocal_takes calm nofun h
    | true =>
      simp only [if_true, takePush] at h
      cases hheld : inbox.subscription.held with
      | false =>
        rw [receive_gone hheld] at h
        cases h
        exact .streamClosed calm rfl fun hh => by simp [hheld] at hh
      | true =>
        cases hpending : inbox.subscription.pending with
        | cons payload queued =>
          rw [receive_cons hheld hpending] at h
          cases h
          exact .push calm rfl hheld hpending
        | nil =>
          rw [receive_nil hheld hpending] at h
          cases hopen : inbox.subscription.senderOpen with
          | true =>
            simp only [hopen, if_true] at h
            exact takeLocal_takes calm (fun _ => ⟨hheld, hpending, hopen⟩) h
          | false =>
            simp only [hopen, Bool.false_eq_true, if_false] at h
            cases h
            exact .streamClosed calm rfl fun _ => ⟨hpending, hopen⟩

theorem Takes.controls (h : inbox.Takes listening input rest) {control : Control}
    (hm : control ∈ rest.controls) : control ∈ inbox.controls := by
  cases h with
  | control first => exact first ▸ .tail _ hm
  | _ => exact hm

theorem Takes.control_or (h : inbox.Takes listening input rest) {control : Control}
    (hm : control ∈ inbox.controls) : input = .control control ∨ control ∈ rest.controls := by
  cases h with
  | control first =>
    rw [first] at hm
    exact (List.mem_cons.mp hm).imp_left (congrArg Input.control ·.symm)
  | _ => exact .inr hm

end Inbox

/-- The tickets of the pulls that are sent out. -/
def issued (effects : List Effect) : List Ticket :=
  effects.filterMap fun
    | .startPull ticket => some ticket
    | _ => none

namespace Session

/-- The value that the cache takes over when an input is handled. -/
def accepts (s : Session d) : Input d → Option d.Value
  | .push payload => (Input.push payload).pushed
  | .pulled (.fetched ticket value) => if ticket.pushes = s.cache.pushes then some value else none
  | _ => none

/-- The end of a pull is accepted for a value fetched with a ticket that is still good. -/
theorem accepts_pulled {s : Session d} {result : PullEnd d} {value : d.Value}
    (h : s.accepts (.pulled result) = some value) :
    ∃ ticket, result = .fetched ticket value ∧ ticket.pushes = s.cache.pushes := by
  cases result with
  | fetched ticket v =>
    simp only [accepts] at h
    split at h
    · cases h
      exact ⟨ticket, rfl, ‹_›⟩
    · cases h
  | _ => cases h

theorem accepts_offered {s : Session d} {input : Input d} {value : d.Value}
    (h : s.accepts input = some value) : input.offered = some value := by
  cases input with
  | push payload => exact h
  | pulled result =>
    obtain ⟨ticket, rfl, -⟩ := accepts_pulled h
    rfl
  | _ => cases h

/-- What is held and shown stays, and nobody is told of anything. -/
structure Keeps (before after : Session d) (effects : List Effect) : Prop where
  cache : after.cache = before.cache
  shown : after.shown = before.shown
  silent : .publish ∉ effects

/-- A value is taken over. The watchers are told of it if it differs from the one held before. -/
structure TakesOver (before after : Session d) (effects : List Effect) (value : d.Value) : Prop where
  holds : Holds after.cache.value (some value)
  accepted : after.cache.accepted = before.cache.accepted + 1
  shown : before.shown = before.cache.value → after.shown = after.cache.value
  told : .publish ∈ effects ↔ (before.cache.value == some value) = false

/-- An update that is taken over, whichever side it came from. -/
theorem update_accept (s : Session d) (c : Cache d.Value) (hc : c.value = s.cache.value)
    (ha : c.accepted = s.cache.accepted) (value : d.Value) :
    s.TakesOver (s.update (c.accept value)).1 (s.update (c.accept value)).2 value := by
  cases h : c.value == some value with
  | true =>
    have hold := c.accept_holds value
    rw [Cache.accept_of_beq h] at hold ⊢
    exact ⟨hold, by simp [update, ha], fun hs => by simp [update, hs, hc], by simp [update, ← hc, h]⟩
  | false =>
    rw [Cache.accept_of_not_beq h]
    exact ⟨.inl rfl, by simp [update, ha], fun _ => rfl, by simp [update, ← hc, h]⟩

theorem update_cache (s : Session d) (offered : Cache d.Value × Applied) :
    (s.update offered).1.cache = offered.1 := by
  rcases offered with ⟨cache, _ | _ | _⟩ <;> rfl

theorem handlePush_ok {s : Session d} {payload : Json} {value : d.Value}
    (h : decodePayload d.topic d.read payload = .ok value) :
    s.handle (.push payload) = s.update (s.cache.push value) := by
  simp [handle, handlePush, h]

/-- A pull that succeeds: the failures before it are over, and that may be written down. -/
theorem handle_fetched (s : Session d) (ticket : Ticket) (value : d.Value) :
    ∃ lines : List Line, s.handle (.pulled (.fetched ticket value)) =
      let next := { s with outstanding := s.outstanding - 1, failing := false }
      ((next.update (s.cache.pull ticket value)).1,
        lines.map .write ++ (next.update (s.cache.pull ticket value)).2) := by
  cases hf : s.failing with
  | true => exact ⟨[.info (d.name ++ " pull recovered")], by simp [handle, handlePull, hf]⟩
  | false => exact ⟨[], by simp [handle, handlePull, hf]⟩

theorem handle_takesOver {s : Session d} {input : Input d} {value : d.Value}
    (h : s.accepts input = some value) :
    s.TakesOver (s.handle input).1 (s.handle input).2 value := by
  cases input with
  | push payload =>
    simp only [accepts, Input.pushed] at h
    cases hd : decodePayload d.topic d.read payload with
    | error e => simp [hd, Except.toOption] at h
    | ok v =>
      obtain rfl : v = value := by simpa [hd, Except.toOption] using h
      rw [handlePush_ok hd]
      exact s.update_accept { s.cache with pushes := s.cache.pushes + 1 } rfl rfl v
  | pulled result =>
    cases result with
    | fetched ticket v =>
      simp only [accepts] at h
      split at h
      · rename_i hfresh
        cases h
        obtain ⟨lines, hl⟩ := s.handle_fetched ticket value
        rw [hl, Cache.pull_fresh hfresh]
        have ht := update_accept { s with outstanding := s.outstanding - 1, failing := false }
          s.cache rfl rfl value
        exact ⟨ht.holds, ht.accepted, ht.shown, by simpa using ht.told⟩
      · cases h
    | _ => cases h
  | _ => cases h

theorem requestPull_keeps (s : Session d) : s.Keeps s.requestPull.1 s.requestPull.2 := by
  unfold requestPull
  split
  · exact ⟨rfl, rfl, by simp⟩
  · exact ⟨rfl, rfl, by simp⟩

theorem handle_keeps {s : Session d} {input : Input d} (h : s.accepts input = none) :
    s.Keeps (s.handle input).1 (s.handle input).2 := by
  cases input with
  | push payload =>
    simp only [accepts, Input.pushed] at h
    cases hd : decodePayload d.topic d.read payload with
    | ok v => simp [hd, Except.toOption] at h
    | error e => simp only [handle, handlePush, hd]; exact ⟨rfl, rfl, by simp⟩
  | pulled result =>
    cases result with
    | fetched ticket v =>
      have hstale : ticket.pushes ≠ s.cache.pushes := by
        intro hfresh
        simp [accepts, hfresh] at h
      obtain ⟨lines, hl⟩ := s.handle_fetched ticket v
      rw [hl, Cache.pull_stale hstale]
      exact ⟨rfl, rfl, by simp [update]⟩
    | failed ticket error =>
      simp only [handle, handlePull]
      split
      · exact ⟨rfl, rfl, by simp⟩
      · exact ⟨rfl, rfl, by simp⟩
    | broken reason => exact ⟨rfl, rfl, by simp [handle, handlePull]⟩
    | cancelled => exact ⟨rfl, rfl, by simp [handle, handlePull]⟩
  | control control =>
    cases control with
    | refresh => exact s.requestPull_keeps
    | unmount => exact ⟨rfl, rfl, by simp [handle]⟩
  | tick => exact s.requestPull_keeps
  | streamClosed => exact ⟨rfl, rfl, by simp [handle]⟩

/-- No pull is sent out, the stream is not given up, and the session goes on. -/
structure Stays (before after : Session d) (effects : List Effect) : Prop where
  outstanding : after.outstanding = before.outstanding
  listening : after.listening = before.listening
  issued : issued effects = []
  goes : .stop ∉ effects

theorem update_stays (s : Session d) (offered : Cache d.Value × Applied) :
    s.Stays (s.update offered).1 (s.update offered).2 := by
  rcases offered with ⟨cache, _ | _ | _⟩
  · exact ⟨rfl, rfl, rfl, by simp [update]⟩
  · exact ⟨rfl, rfl, rfl, by simp [update]⟩
  · exact ⟨rfl, rfl, rfl, by simp [update]⟩

theorem handlePush_stays (s : Session d) (payload : Json) :
    s.Stays (s.handlePush payload).1 (s.handlePush payload).2 := by
  unfold handlePush
  split
  · exact s.update_stays _
  · exact ⟨rfl, rfl, rfl, by simp⟩

theorem handlePull_stays (s : Session d) (result : PullEnd d) :
    s.Stays (s.handlePull result).1 (s.handlePull result).2 := by
  cases result with
  | fetched ticket value =>
    have h := update_stays { s with failing := false } (s.cache.pull ticket value)
    simp only [handlePull]
    split
    · exact ⟨h.outstanding, h.listening, h.issued, by simpa using h.goes⟩
    · exact ⟨h.outstanding, h.listening, h.issued, h.goes⟩
  | failed ticket error =>
    simp only [handlePull]
    split
    · exact ⟨rfl, rfl, rfl, by simp⟩
    · exact ⟨rfl, rfl, rfl, by simp⟩
  | broken reason => exact ⟨rfl, rfl, rfl, by simp [handlePull]⟩
  | cancelled => exact ⟨rfl, rfl, rfl, by simp [handlePull]⟩

theorem requestPull_issued (s : Session d) :
    issued s.requestPull.2 = if s.outstanding = 0 then [s.cache.ticket] else [] := by
  unfold requestPull
  split <;> rfl

theorem requestPull_outstanding (s : Session d) :
    s.requestPull.1.outstanding = s.outstanding + (issued s.requestPull.2).length := by
  unfold requestPull
  split
  · simp [issued, *]
  · rfl

theorem requestPull_listening (s : Session d) : s.requestPull.1.listening = s.listening := by
  unfold requestPull
  split <;> rfl

/-- Every push that can be read counts, and nothing else does. -/
theorem handle_pushes (s : Session d) (input : Input d) :
    (s.handle input).1.cache.pushes = s.cache.pushes + input.pushed.toList.length := by
  have keeps (other : Input d) (ha : s.accepts other = none) :
      (s.handle other).1.cache.pushes = s.cache.pushes := by rw [(handle_keeps ha).cache]
  cases input with
  | push payload =>
    cases hd : decodePayload d.topic d.read payload with
    | ok value =>
      rw [handlePush_ok hd, update_cache, Cache.push_pushes]
      simp [Input.pushed, hd, Except.toOption]
    | error e =>
      have hp : (.push payload : Input d).pushed = none := by simp [Input.pushed, hd, Except.toOption]
      rw [keeps (.push payload) hp, hp]
      rfl
  | pulled result =>
    cases result with
    | fetched ticket value =>
      obtain ⟨lines, hl⟩ := s.handle_fetched ticket value
      rw [hl]
      dsimp only
      rw [update_cache, Cache.pull_pushes]
      rfl
    | _ => exact keeps _ rfl
  | _ => exact keeps _ rfl

/-- A pull is sent out for a request that finds none under way. -/
theorem handle_issued (s : Session d) (input : Input d) :
    issued (s.handle input).2 =
      if input.isRequest = true ∧ s.outstanding = 0 then [s.cache.ticket] else [] := by
  cases input with
  | push payload => exact (s.handlePush_stays payload).issued
  | pulled result => exact (handlePull_stays _ result).issued
  | control control =>
    cases control with
    | refresh => simpa [Input.isRequest, handle] using s.requestPull_issued
    | unmount => rfl
  | tick => simpa [Input.isRequest, handle] using s.requestPull_issued
  | streamClosed => rfl

theorem handle_outstanding (s : Session d) (input : Input d) :
    (s.handle input).1.outstanding =
      (if input.isPulled then s.outstanding - 1 else s.outstanding) +
        (issued (s.handle input).2).length := by
  cases input with
  | push payload =>
    have h := s.handlePush_stays payload
    simp [handle, Input.isPulled, h.outstanding, h.issued]
  | pulled result =>
    have h := handlePull_stays { s with outstanding := s.outstanding - 1 } result
    simp [handle, Input.isPulled, h.outstanding, h.issued]
  | control control =>
    cases control with
    | refresh => exact s.requestPull_outstanding
    | unmount => rfl
  | tick => exact s.requestPull_outstanding
  | streamClosed => rfl

/-- A session listens until it sees its stream closed. -/
theorem handle_listening (s : Session d) (input : Input d) :
    (s.handle input).1.listening = match input with
      | .streamClosed => false
      | _ => s.listening := by
  cases input with
  | push payload => exact (s.handlePush_stays payload).listening
  | pulled result => exact (handlePull_stays _ result).listening
  | control control =>
    cases control with
    | refresh => exact s.requestPull_listening
    | unmount => rfl
  | tick => exact s.requestPull_listening
  | streamClosed => rfl

theorem handle_stop (s : Session d) (input : Input d) :
    .stop ∈ (s.handle input).2 ↔ input = .control .unmount := by
  have hr : .stop ∉ s.requestPull.2 := by
    unfold requestPull
    split <;> simp
  cases input with
  | push payload => simpa [handle] using (s.handlePush_stays payload).goes
  | pulled result => simpa [handle] using (handlePull_stays _ result).goes
  | control control =>
    cases control with
    | refresh => simpa [handle] using hr
    | unmount => simp [handle]
  | tick => simpa [handle] using hr
  | streamClosed => simp [handle]

/-- A session that goes on has handled the input that came first. -/
theorem step_takes {s next : Session d} {inbox rest : Inbox d} {effects : List Effect}
    (h : s.step inbox = some (next, rest, effects)) :
    ∃ input, inbox.Takes s.listening input rest ∧ s.handle input = (next, effects) := by
  obtain ⟨⟨input, left⟩, htake, heq⟩ := Option.map_eq_some_iff.mp h
  cases heq
  exact ⟨input, Inbox.take_takes htake, rfl⟩

/-- A session that waits has handled every message from its view. -/
theorem controls_of_waiting {s : Session d} {inbox : Inbox d} (h : s.step inbox = none) :
    inbox.controls = [] := by
  rw [step, Option.map_eq_none_iff] at h
  unfold Inbox.take at h
  split at h
  · cases h
  · assumption

end Session

end VoiceAdmin.Sync
