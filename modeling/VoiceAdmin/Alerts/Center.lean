import VoiceAdmin.Alerts.Queue
import VoiceAdmin.Delivery.Subscription
import VoiceAdmin.Journal
import VoiceAdmin.Payload.Envelope

namespace VoiceAdmin.Alerts

inductive Message where
  | enqueue (notification : Notification)
  | dismiss (id : String)
  | shutdown
deriving DecidableEq, Repr, Inhabited

inductive Input where
  | message (message : Message)
  | push (payload : Json)
  | streamClosed
  /-- The earliest deadline has come. -/
  | expiry

inductive Effect where
  | publish
  | write (line : Line)
  | stop
deriving DecidableEq, Repr

/-- The notification center: it owns the alert queue and shows it. -/
structure Center where
  queue : Queue := {}
  /-- The entries that are shown. -/
  shown : List Entry := []
  /-- The push stream has not been seen closed. -/
  listening : Bool := true
  /-- When it last began to wait. -/
  since : Nat := 0
deriving Inhabited

/-- What waits for the center. -/
structure Inbox where
  messages : List Message := []
  subscription : Delivery.Subscription

/-- The input that comes first, with what is left: messages from within the console before pushes, and
pushes before the removal of entries whose time is up. -/
def Inbox.take (inbox : Inbox) (listening expiryDue : Bool) : Option (Input × Inbox) :=
  match inbox.messages with
  | message :: rest => some (.message message, { inbox with messages := rest })
  | [] =>
    let push := if listening then inbox.subscription.receive else (.waiting, inbox.subscription)
    match push with
    | (.payload payload, subscription) => some (.push payload, { inbox with subscription })
    | (.closed, _) => some (.streamClosed, inbox)
    | (.gone, _) => some (.streamClosed, inbox)
    | (.waiting, _) => if expiryDue then some (.expiry, inbox) else none

namespace Center

/-- Takes over a queue; it is shown anew if it changed. -/
def update (c : Center) (changed : Bool) (queue : Queue) : Center × List Effect :=
  if changed then ({ c with queue, shown := queue.displayOrder }, [.publish])
  else ({ c with queue }, [])

def enqueue (c : Center) (notification : Notification) (now : Nat) : Center × List Effect :=
  let (accepted, queue) := c.queue.enqueue notification now
  c.update accepted queue

def handle (c : Center) (now : Nat) : Input → Except Panic (Center × List Effect)
  | .message (.enqueue notification) => return c.enqueue notification now
  | .message (.dismiss id) =>
    let (removed, queue) := c.queue.dismiss id
    return c.update removed queue
  | .message .shutdown => return (c, [.write (.info "Notification center stopped"), .stop])
  | .push payload =>
    match decodePayload .notification Notification.read payload with
    | .ok notification => return c.enqueue notification now
    | .error e => return (c, [.write (.warning ("Ignoring notification push: " ++ e.message))])
  | .streamClosed =>
    return ({ c with listening := false }, [.write (.warning "Notification push stream closed")])
  | .expiry => do
    let (expired, queue) ← c.queue.expire now
    return c.update (!expired.isEmpty) queue

/-- For how long the timer is set when there is no deadline. Nobody listens to it then. -/
def idleWait : Nat := 3600000

/-- The deadline that the center waits for, if there is one. -/
def deadline (c : Center) : Except Panic (Option Nat) := do
  match ← c.queue.nextDeadline with
  | some deadline => return some deadline
  | none =>
    let _ ← later c.since idleWait
    return none

/-- Handles the input that comes first and begins to wait anew; nothing where no input waits. -/
def step (c : Center) (now : Nat) (inbox : Inbox) :
    Except Panic (Option (Center × Inbox × List Effect)) := do
  let deadline ← c.deadline
  match inbox.take c.listening (deadline.any fun t => t ≤ now) with
  | none => return none
  | some (input, rest) =>
    let (next, effects) ← c.handle now input
    return some ({ next with since := now }, rest, effects)

end Center

end VoiceAdmin.Alerts
