import VoiceAdmin.Delivery.Subscription
import VoiceAdmin.Domain.Kind
import VoiceAdmin.Domain.Notification
import VoiceAdmin.Domain.Remote
import VoiceAdmin.Journal
import VoiceAdmin.Payload.Envelope
import VoiceAdmin.Sync.Cache

namespace VoiceAdmin.Sync

/-- What a view asks of its session. -/
inductive Control where
  | refresh
  | unmount
deriving DecidableEq, Repr, Inhabited

/-- How a pull ended. -/
inductive PullEnd (d : Domain) where
  | fetched (ticket : Ticket) (value : d.Value)
  | failed (ticket : Ticket) (error : RemoteError)
  /-- The pull broke off without an answer. -/
  | broken (reason : String)
  | cancelled

inductive Input (d : Domain) where
  | control (control : Control)
  | push (payload : Json)
  | streamClosed
  | pulled (result : PullEnd d)
  | tick

inductive Effect where
  | startPull (ticket : Ticket)
  /-- The watchers of the view are told that it changed. -/
  | publish
  | raise (notice : Notice)
  | write (line : Line)
  | stop
deriving DecidableEq, Repr

/-- The session behind one mounted view. It takes its inputs one at a time: messages from its view come
before pushes, pushes before the end of a pull, and the periodic tick last. There is never more than one
pull under way. -/
structure Session (d : Domain) where
  cache : Cache d.Value := {}
  /-- What the view shows. -/
  shown : Option d.Value := none
  /-- The push stream has not been seen closed. -/
  listening : Bool := true
  /-- The last pull that succeeded or failed did fail. -/
  failing : Bool := false
  /-- Pulls issued and not yet handled. -/
  outstanding : Nat := 0

/-- What waits for a session. -/
structure Inbox (d : Domain) where
  controls : List Control := []
  subscription : Delivery.Subscription
  finished : List (PullEnd d) := []
  tickDue : Bool := false

namespace Inbox

variable {d : Domain}

/-- The next push, or the end of the stream. -/
def takePush (inbox : Inbox d) : Option (Input d × Inbox d) :=
  match inbox.subscription.receive with
  | (.payload payload, subscription) => some (.push payload, { inbox with subscription })
  | (.waiting, _) => none
  | (.closed, _) => some (.streamClosed, inbox)
  | (.gone, _) => some (.streamClosed, inbox)

/-- The end of a pull, or else a tick. -/
def takeLocal (inbox : Inbox d) : Option (Input d × Inbox d) :=
  match inbox.finished with
  | result :: rest => some (.pulled result, { inbox with finished := rest })
  | [] => if inbox.tickDue then some (.tick, { inbox with tickDue := false }) else none

/-- The input that comes first, with what is left. -/
def take (inbox : Inbox d) (listening : Bool) : Option (Input d × Inbox d) :=
  match inbox.controls with
  | control :: rest => some (.control control, { inbox with controls := rest })
  | [] =>
    match if listening then inbox.takePush else none with
    | some taken => some taken
    | none => inbox.takeLocal

end Inbox

namespace Session

variable {d : Domain}

/-- Issues a pull, unless one is under way. -/
def requestPull (s : Session d) : Session d × List Effect :=
  if s.outstanding = 0 then ({ s with outstanding := 1 }, [.startPull s.cache.ticket]) else (s, [])

/-- Takes over a cache that an update was offered to; a new value is shown. -/
def update (s : Session d) (offered : Cache d.Value × Applied) : Session d × List Effect :=
  match offered with
  | (cache, .replaced) => ({ s with cache, shown := cache.value }, [.publish])
  | (cache, _) => ({ s with cache }, [])

def handlePush (s : Session d) (payload : Json) : Session d × List Effect :=
  match decodePayload d.topic d.read payload with
  | .ok value => s.update (s.cache.push value)
  | .error e =>
    (s, [.write (.warning ("Ignoring " ++ d.name ++ " push: " ++ e.message)),
      .raise ⟨"Ignored malformed " ++ d.name ++ " update", e.message, .warning⟩])

/-- A failure is announced when the pull before it did not fail. -/
def handlePull (s : Session d) : PullEnd d → Session d × List Effect
  | .fetched ticket value =>
    let (next, effects) := { s with failing := false }.update (s.cache.pull ticket value)
    (next, if s.failing then .write (.info (d.name ++ " pull recovered")) :: effects else effects)
  | .failed _ error =>
    let failure := Effect.write (.warning ("Failed to fetch " ++ d.name ++ ": " ++ error.message))
    if s.failing then (s, [failure])
    else ({ s with failing := true },
      [failure, .raise ⟨"Failed to fetch " ++ d.name, error.message, .error⟩])
  | .broken reason => (s, [.write (.error (d.name ++ " pull task panicked: " ++ reason))])
  | .cancelled => (s, [])

def handle (s : Session d) : Input d → Session d × List Effect
  | .control .refresh => s.requestPull
  | .control .unmount => (s, [.write (.info ("Unmounted " ++ d.name ++ " view")), .stop])
  | .push payload => s.handlePush payload
  | .streamClosed =>
    ({ s with listening := false },
      [.write (.warning (d.name ++ " push stream closed, continuing with polls only"))])
  | .pulled result => { s with outstanding := s.outstanding - 1 }.handlePull result
  | .tick => s.requestPull

/-- Handles the input that comes first; nothing where none waits. -/
def step (s : Session d) (inbox : Inbox d) : Option (Session d × Inbox d × List Effect) :=
  (inbox.take s.listening).map fun (input, rest) =>
    let (next, effects) := s.handle input
    (next, rest, effects)

end Session

end VoiceAdmin.Sync
