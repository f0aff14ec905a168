import VoiceAdmin.Timeline.Look
import VoiceAdmin.Timeline.Mount

namespace VoiceAdmin.Timeline

/-- What is done to a world from outside. -/
inductive Step where
  | advance (ms : Nat)
  /-- Steps with no other task running in between. -/
  | batch (steps : List Step)
  | later (ms : Nat) (push : Push)
  | connect (client : Client)
  | seed
  | execute (command : Command)
  | fetch (d : Domain)
  | setAvailable (available : Bool)
  | setLatency (ms : Nat)
  | setEnvelope (name : String)
  | closeTopic (topic : Topic)
  | counts
  | setStatus (status : Status)
  | emit (push : Push)
  | inspect
  | subscribe (topic : Topic)
  | drain (slot : Nat)
  | unsubscribe (slot : Nat)
  | setOutage (d : Domain) (outage : Option Outage)
  | refuse (topic : Topic) (error : Option RemoteError)
  | failCommands (error : Option RemoteError)
  | configure (config : Sync.Config)
  | mount (d : Domain)
  | refresh (d : Domain)
  | unmount (d : Domain)
  | drop (d : Domain)
  | mountCenter
  | unmountCenter
  | dropCenter
  | mountConsole
  | unmountConsole
  | dropConsole
  | notify (notification : Notification)
  | dismiss (id : String)
  | dismissAt (index : Nat)
  | ask (request : Request)
  | demo

/-- What a step answers. -/
inductive Reply where
  | nothing
  | done
  | gone
  /-- There is nothing at that place. -/
  | none
  | flag (value : Bool)
  | id (id : Option String)
  | ids (ids : List String)
  | executed (result : Except RemoteError Unit)
  | fetched (d : Domain) (result : Except FetchError d.Value)
  | counts (counts : List Nat)
  | slot (index : Nat)
  | refused (error : RemoteError)
  | failed (error : Sync.SyncError)
  | unknownEnvelope (error : UnknownEnvelope)
  | state (state : Service.AdminState)
  | drained (payloads : List Json) (closed : Bool)
  | all (replies : List Reply)

/-- A world with what was mounted in it from outside. -/
structure Stage where
  world : World
  config : Sync.Config := {}
  views : List (Domain × Nat) := []
  center : Option Nat := none
  console : Option ConsoleTasks := none
  /-- Subscriptions that no task listens to. -/
  slots : List Nat := []
  /-- The ids of the clients seeded last. -/
  seeded : List String := []
deriving Inhabited

/-- What could be seen from outside after a step. -/
structure Report where
  time : Nat
  reply : Reply
  /-- The views that changed, with what they show. -/
  views : List ((d : Domain) × Option d.Value) := []
  /-- The notifications, where they were shown anew. -/
  notes : Option (List Alerts.Entry) := none
  unshown : List Alerts.Message := []
  fetches : List Domain := []
  commands : List Command := []

/-- What is answered once no task runs any more. -/
structure Ending where
  /-- Of each view: to waiting for a change, and to a refresh. -/
  views : List (Domain × Except Sync.SyncError Unit × Except Sync.SyncError Unit)
  /-- Of the center: to waiting for a change. -/
  center : Option (Except Sync.SyncError Unit)

namespace Stage

def withWorld (s : Stage) (world : World) : Stage := { s with world }

/-- Where alerts of views and requests go: the console's center, else the single one, else the list. -/
def notifier (s : Stage) : Notifier :=
  match s.console, s.center with
  | some console, _ => .center console.center
  | none, some id => .center id
  | none, none => .list

/-- The tasks of the mounted views. -/
def mounted (s : Stage) : List (Domain × Nat) :=
  (s.console.map ConsoleTasks.sessions).getD [] ++ s.views

/-- The center that is shown. -/
def shownCenter (s : Stage) : Option Nat :=
  match s.console with
  | some console => some console.center
  | none => s.center

def shown (s : Stage) : List Alerts.Entry :=
  match s.shownCenter.bind s.world.find? with
  | some (.center task) => task.center.shown
  | _ => []

def isRunning (s : Stage) (id : Nat) : Bool := (s.world.find? id).isSome

/-- Everything that waits for a subscription. -/
def drain (s : Stage) (id : Nat) : Reply × Stage :=
  let subscription := s.world.subscription id
  if subscription.held then
    (.drained subscription.pending !subscription.senderOpen,
      s.withWorld (s.world.setSubscription id { subscription with pending := [] }))
  else (.gone, s)

/-- Carries a command out after the latency, while everything else goes on. -/
def execute (s : Stage) (command : Command) : Reply × Stage :=
  let w := s.world
  let (result, wire) := w.wire.execute command
  let w := { w with wire }
  match result with
  | .ok delay => (.executed (.ok ()), s.withWorld ((w.waitUntil id (w.now + delay)).apply command))
  | .error e => (.executed (.error e), s.withWorld w)

def fetch (s : Stage) (d : Domain) : Reply × Stage :=
  let w := s.world
  let (delay, result, wire) := w.wire.fetch d
  let w := { w with wire }
  (.fetched d result, s.withWorld (w.waitUntil id (w.now + delay)))

/-- Mounts a view in place of the one that the domain had. -/
def mount (s : Stage) (d : Domain) : Reply × Stage :=
  match s.world.mountView s.config s.notifier d with
  | .error e => (.failed e, s)
  | .ok (id, w) =>
    let earlier := s.views.lookup d
    let w := match earlier with
      | some old => w.drop old
      | none => w
    (.done, { s with world := w, views := s.views.filter (fun v => v.1 ≠ d) ++ [(d, id)] })

def mountCenter (s : Stage) : Reply × Stage :=
  match s.world.mountCenter s.config with
  | .error e => (.failed e, s)
  | .ok (id, w) =>
    let w := match s.center with
      | some old => w.drop old
      | none => w
    (.done, { s with world := w, center := some id })

def mountConsole (s : Stage) : Reply × Stage :=
  match s.world.mountConsole s.config with
  | (.error e, w) => (.failed e, s.withWorld w)
  | (.ok console, w) =>
    let w := match s.console with
      | some old => w.dropConsole old
      | none => w
    (.done, { s with world := w, console := some console })

def refresh (s : Stage) (d : Domain) : Reply × Stage :=
  match s.mounted.lookup d with
  | none => (.gone, s)
  | some id =>
    if s.isRunning id then (.done, s.withWorld (s.world.control id .refresh))
    else (.failed (.closed d.name), s)

/-- Does a step, without letting the tasks run that it wakes. -/
def act (s : Stage) : Step → Reply × Stage
  | .advance ms => (.nothing, s.withWorld (s.world.waitUntil id (s.world.now + ms)))
  | .batch steps => actAll s [] steps
  | .later ms push => (.nothing, s.withWorld (s.world.spawn (.later ms push)).2)
  | .connect client =>
    let (id, w) := s.world.connect client
    (.id id, s.withWorld w)
  | .seed =>
    let (ids, w) := s.world.seed
    (.ids ids, { s with world := w, seeded := ids })
  | .execute command => s.execute command
  | .fetch d => s.fetch d
  | .setAvailable available =>
    let (server, lines) := s.world.wire.server.setAvailable available
    (.flag server.isAvailable, s.withWorld ((s.world.mapServer fun _ => server).writeAll lines))
  | .setLatency ms =>
    (.nothing, s.withWorld (s.world.mapServer fun server => { server with latency := ms }))
  | .setEnvelope name =>
    match Envelope.ofName name with
    | .ok style =>
      (.done, s.withWorld (s.world.mapServer fun server => { server with envelope := style }))
    | .error e => (.unknownEnvelope e, s)
  | .closeTopic topic =>
    let (server, lines) := s.world.wire.server.closeTopic topic
    (.nothing, s.withWorld ((s.world.serve topic fun _ => server).writeAll lines))
  | .counts => (.counts (Topic.all.map s.world.wire.server.registry.count), s)
  | .setStatus status =>
    (.nothing, s.withWorld (s.world.adopt (s.world.wire.server.state.setStatus status)))
  | .emit push => (.nothing, s.withWorld (s.world.emit push))
  | .inspect => (.state s.world.wire.server.state, s)
  | .subscribe topic =>
    match s.world.wire.subscribe topic with
    | .ok (id, wire) =>
      (.slot s.slots.length, { s with world := { s.world with wire }, slots := s.slots ++ [id] })
    | .error e => (.refused e, s)
  | .drain slot =>
    match s.slots[slot]? with
    | some id => s.drain id
    | none => (.gone, s)
  | .unsubscribe slot =>
    match s.slots[slot]? with
    | some id => (.nothing, s.withWorld (s.world.release id))
    | none => (.nothing, s)
  | .setOutage d outage =>
    let wire := s.world.wire
    let wire := { wire with outages := Wire.setEntry wire.outages d outage }
    (.nothing, s.withWorld { s.world with wire })
  | .refuse topic error =>
    let wire := s.world.wire
    let wire := { wire with refusals := Wire.setEntry wire.refusals topic error }
    (.nothing, s.withWorld { s.world with wire })
  | .failCommands error =>
    (.nothing, s.withWorld { s.world with wire := { s.world.wire with commandFailure := error } })
  | .configure config => (.nothing, { s with config })
  | .mount d => s.mount d
  | .refresh d => s.refresh d
  | .unmount d =>
    match s.views.lookup d with
    | some id =>
      (.done, { s with world := s.world.unmountView id, views := s.views.filter fun v => v.1 ≠ d })
    | none => (.gone, s)
  | .drop d =>
    match s.views.lookup d with
    | some id =>
      (.flag true, { s with world := s.world.drop id, views := s.views.filter fun v => v.1 ≠ d })
    | none => (.flag false, s)
  | .mountCenter => s.mountCenter
  | .unmountCenter =>
    match s.center with
    | some id => (.nothing, { s with world := s.world.unmountCenter id, center := none })
    | none => (.nothing, s)
  | .dropCenter =>
    match s.center with
    | some id => (.nothing, { s with world := s.world.drop id, center := none })
    | none => (.nothing, s)
  | .mountConsole => s.mountConsole
  | .unmountConsole =>
    match s.console with
    | some console => (.nothing, { s with world := s.world.unmountConsole console, console := none })
    | none => (.nothing, s)
  | .dropConsole =>
    match s.console with
    | some console => (.nothing, { s with world := s.world.dropConsole console, console := none })
    | none => (.nothing, s)
  | .notify notification => (.nothing, s.withWorld (s.world.send s.notifier (.enqueue notification)))
  | .dismiss id => (.nothing, s.withWorld (s.world.send s.notifier (.dismiss id)))
  | .dismissAt index =>
    match s.shown[index]? with
    | some entry => (.done, s.withWorld (s.world.send s.notifier (.dismiss entry.id)))
    | none => (.none, s)
  | .ask request =>
    let (sent, w) := s.world.ask s.notifier request
    (.flag sent, s.withWorld w)
  | .demo =>
    let script := Task.script (Console.demo s.seeded s.config.poll) s.notifier
    (.nothing, s.withWorld (s.world.spawn script).2)
where
  actAll (s : Stage) (done : List Reply) : List Step → Reply × Stage
    | [] => (.all done, s)
    | step :: rest =>
      let (reply, s) := s.act step
      actAll s (done ++ [reply]) rest

/-- Looks at everything that changed since the last look. -/
def look (s : Stage) (reply : Reply) : Report × Stage :=
  let (views, w) := s.mounted.foldl (fun (views, w) (_, id) =>
    match w.lookView id with
    | (some view, w) => (views ++ [view], w)
    | (none, w) => (views, w)) ([], s.world)
  let (notes, w) := match s.shownCenter with
    | some id => w.lookCenter id
    | none => (none, w)
  ({ time := w.now, reply, views, notes, unshown := w.unshown, fetches := w.wire.fetches,
     commands := w.wire.commands },
    s.withWorld { w with unshown := [], wire := { w.wire with fetches := [], commands := [] } })

/-- Does a step and lets everything run that it set going. -/
def perform (s : Stage) (step : Step) : Report × Stage :=
  let (reply, s) := s.act step
  { s with world := s.world.settle }.look reply

/-- Waiting for a change when none can come any more: one that was not looked at is still there. -/
def awaitChange (name : String) (unseen : Bool) : Except Sync.SyncError Unit :=
  if unseen then .ok () else .error (.closed name)

/-- Ends all tasks. -/
def shutdown (s : Stage) : Ending where
  views := s.views.map fun (d, id) =>
    (d, awaitChange d.name (s.world.lookView id).1.isSome, .error (.closed d.name))
  center := s.center.map fun id => awaitChange "notification" (s.world.lookCenter id).1.isSome

end Stage

end VoiceAdmin.Timeline
