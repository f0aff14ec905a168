import VoiceAdmin.Alerts.Center
import VoiceAdmin.Console.Demo
import VoiceAdmin.Sync.Config
import VoiceAdmin.Sync.Session
import VoiceAdmin.Timeline.Wire

namespace VoiceAdmin.Timeline

/-- Where alerts go that are raised on this side. -/
inductive Notifier where
  | center (task : Nat)
  /-- A list that nobody shows. -/
  | list
deriving DecidableEq, Repr, Inhabited

structure SessionTask (d : Domain) where
  session : Sync.Session d := {}
  controls : List Sync.Control := []
  finished : List (Sync.PullEnd d) := []
  subscription : Nat
  notifier : Notifier
  poll : Nat
  polls : 0 < poll
  nextTick : Nat
  /-- The view changed since it was last looked at. -/
  changed : Bool := false

structure CenterTask where
  center : Alerts.Center
  messages : List Alerts.Message := []
  subscription : Nat
  changed : Bool := false

inductive Task where
  | session (d : Domain) (task : SessionTask d)
  | center (task : CenterTask)
  /-- A pull for a session that has not been sent. -/
  | pull (d : Domain) (owner : Nat) (ticket : Sync.Ticket)
  /-- A pull on its way back. -/
  | answer (d : Domain) (owner : Nat) (result : Sync.PullEnd d)
  /-- A command that has not been sent. -/
  | command (command : Command) (notifier : Notifier)
  /-- A command on its way to the service. -/
  | delayed (command : Command)
  /-- A push that is to be sent after a while. -/
  | later (delay : Nat) (push : Push)
  | emission (push : Push)
  | script (acts : List Console.Act) (notifier : Notifier)
  /-- Was told to stop, and only has its subscription to give back. -/
  | dropped (subscription : Nat)

structure Alarm where
  time : Nat
  task : Nat
deriving DecidableEq, Repr, Inhabited

/-- Everything that goes on at one time: the remote side, and the tasks that sessions, centers, pulls and
commands are. Tasks that can go on stand in line and run one after another; the others wait for a message
or for their alarm. Times are in milliseconds. -/
structure World where
  /-- The ids that notifications are given, one after another. -/
  ids : Nat → String
  now : Nat := 0
  /-- How many ids were given. -/
  serial : Nat := 0
  wire : Wire := {}
  nextTask : Nat := 0
  tasks : List (Nat × Task) := []
  /-- The tasks that can go on, first come, first served. -/
  ready : List Nat := []
  /-- Tasks that go on when nobody else can. -/
  deferred : List Nat := []
  /-- In the order in which they were set. -/
  alarms : List Alarm := []
  /-- What was sent to a list that nobody shows. -/
  unshown : List Alerts.Message := []
  journal : Array (Nat × Line) := #[]
deriving Inhabited

namespace World

def write (w : World) (line : Line) : World :=
  { w with journal := w.journal.push (w.now, line) }

def writeAll (w : World) (lines : List Line) : World := lines.foldl write w

/-- A fresh id for a notification. -/
def freshId (w : World) : String × World :=
  (w.ids w.serial, { w with serial := w.serial + 1 })

def find? (w : World) (id : Nat) : Option Task := w.tasks.lookup id

def setTask (w : World) (id : Nat) (task : Task) : World :=
  { w with tasks := w.tasks.map fun e => if e.1 = id then (id, task) else e }

def clearAlarm (w : World) (id : Nat) : World :=
  { w with alarms := w.alarms.filter fun a => a.task ≠ id }

/-- Ends a task. -/
def remove (w : World) (id : Nat) : World :=
  { w.clearAlarm id with tasks := w.tasks.filter fun e => e.1 ≠ id }

def wake (w : World) (id : Nat) : World :=
  if w.ready.contains id then w else { w with ready := w.ready ++ [id] }

/-- Starts a task, which stands in line at once. -/
def spawn (w : World) (task : Task) : Nat × World :=
  let id := w.nextTask
  (id, { w with nextTask := id + 1, tasks := w.tasks ++ [(id, task)] }.wake id)

/-- Wakes a task at an instant; a task has one alarm at most. -/
def setAlarm (w : World) (id time : Nat) : World :=
  if w.alarms.contains ⟨time, id⟩ then w
  else
    let w := w.clearAlarm id
    { w with alarms := w.alarms ++ [⟨time, id⟩] }

def subscription (w : World) (id : Nat) : Delivery.Subscription :=
  (w.wire.server.registry.find? id).getD { topic := .notification, senderOpen := false, held := false }

def mapServer (w : World) (change : Service.Server → Service.Server) : World :=
  { w with wire := { w.wire with server := change w.wire.server } }

def mapRegistry (w : World) (change : Delivery.Registry → Delivery.Registry) : World :=
  w.mapServer fun s => { s with registry := change s.registry }

def setSubscription (w : World) (id : Nat) (s : Delivery.Subscription) : World :=
  w.mapRegistry fun r => r.update id fun _ => s

def release (w : World) (subscription : Nat) : World :=
  w.mapRegistry fun r => r.release subscription

/-- Whether a task listens to a stream on the topic that is still open. -/
def listens (w : World) (topic : Topic) (task : Task) : Bool :=
  match task with
  | .session d s => d.topic == topic && (w.subscription s.subscription).senderOpen
  | .center c => topic == .notification && (w.subscription c.subscription).senderOpen
  | _ => false

/-- A change of the service after which those go on that listened to a topic. -/
def serve (w : World) (topic : Topic) (change : Service.Server → Service.Server) : World :=
  let listeners := w.tasks.filter fun e => w.listens topic e.2
  (listeners.map Prod.fst).foldl wake (w.mapServer change)

/-- A push to all subscribers of its topic. -/
def emit (w : World) (push : Push) : World :=
  w.serve push.topic fun s => s.emit push

/-- Takes over what an operation of the service did. -/
def adopt (w : World) (outcome : Service.Outcome) : World :=
  let w := w.mapServer fun s => { s with state := outcome.state }
  (outcome.pushes.foldl emit w).writeAll outcome.journal

/-- Carries a command out. -/
def apply (w : World) (command : Command) : World :=
  let (id, w) := w.freshId
  w.adopt (w.wire.server.state.execute id command)

/-- Sends a message to a center that still runs, or to the list. -/
def send (w : World) (notifier : Notifier) (message : Alerts.Message) : World :=
  match notifier with
  | .list => { w with unshown := w.unshown ++ [message] }
  | .center id =>
    match w.find? id with
    | some (.center task) =>
      (w.setTask id (.center { task with messages := task.messages ++ [message] })).wake id
    | _ => w

/-- Raises an alert on this side. -/
def raise (w : World) (notifier : Notifier) (notice : Notice) : World :=
  let (id, w) := w.freshId
  w.send notifier (.enqueue (notice.withId id))

/-- A request is refused with an alert, or sent on as a command that nobody waits for. -/
def ask (w : World) (notifier : Notifier) (request : Request) : Bool × World :=
  match request.command with
  | .ok command => (true, (w.spawn (.command command notifier)).2)
  | .error refusal => (false, w.raise notifier refusal.notice)

end World

end VoiceAdmin.Timeline
