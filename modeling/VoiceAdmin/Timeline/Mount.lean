import VoiceAdmin.Timeline.Run

namespace VoiceAdmin.Timeline

/-- The tasks of a mounted console. -/
structure ConsoleTasks where
  center : Nat
  sessions : List (Domain × Nat)
deriving Inhabited

namespace World

def subscribe (w : World) (topic : Topic) : Except Sync.SyncError (Nat × World) :=
  match w.wire.subscribe topic with
  | .ok (id, wire) => .ok (id, { w with wire })
  | .error e => .error (.subscribe topic e)

def mountView (w : World) (config : Sync.Config) (notifier : Notifier) (d : Domain) :
    Except Sync.SyncError (Nat × World) :=
  if hpoll : config.poll = 0 then .error .zeroPoll
  else do
    let (subscription, w) ← w.subscribe d.topic
    let (id, w) := w.spawn (.session d
      { subscription, notifier, poll := config.poll, polls := Nat.pos_of_ne_zero hpoll, nextTick := w.now })
    return (id, w.write (.info ("Mounted " ++ d.name ++ " view (topic " ++ d.topic.event ++ ")")))

def mountCenter (w : World) (config : Sync.Config) : Except Sync.SyncError (Nat × World) := do
  let (subscription, w) ← w.subscribe .notification
  let (id, w) := w.spawn (.center
    { center := { queue := { ttl := config.ttl }, since := w.now }, subscription })
  return (id, w.write (.info "Mounted notification center"))

/-- Tells a session or a center to stop where it is. -/
def drop (w : World) (id : Nat) : World :=
  match w.find? id with
  | some (.session _ task) => (w.setTask id (.dropped task.subscription)).wake id
  | some (.center task) => (w.setTask id (.dropped task.subscription)).wake id
  | _ => w

/-- A message from a view to its session. -/
def control (w : World) (id : Nat) (message : Sync.Control) : World :=
  match w.find? id with
  | some (.session d task) =>
    (w.setTask id (.session d { task with controls := task.controls ++ [message] })).wake id
  | _ => w

/-- A view that is unmounted finishes before the call does. One that is dropped is told to stop and gives
its subscription back when its turn comes. -/
def unmountView (w : World) (id : Nat) : World :=
  (w.control id .unmount).settle

def unmountCenter (w : World) (id : Nat) : World :=
  (w.send (.center id) .shutdown).settle

/-- Mounts views one after another. If one fails, those mounted before it are dropped. -/
def mountViews (config : Sync.Config) (notifier : Notifier) (mounted : List (Domain × Nat)) :
    List Domain → World → Except Sync.SyncError (List (Domain × Nat)) × World
  | [], w => (.ok mounted, w)
  | d :: rest, w =>
    match w.mountView config notifier d with
    | .ok (id, w) => mountViews config notifier (mounted ++ [(d, id)]) rest w
    | .error e => (.error e, (mounted.map Prod.snd).foldl drop w)

/-- The center first, then the five views; either all are mounted or none. -/
def mountConsole (w : World) (config : Sync.Config) : Except Sync.SyncError ConsoleTasks × World :=
  if config.poll = 0 then (.error .zeroPoll, w)
  else
    match w.mountCenter config with
    | .error e => (.error e, w)
    | .ok (center, w) =>
      match mountViews config (.center center) [] Domain.all w with
      | (.ok sessions, w) => (.ok ⟨center, sessions⟩, w.write (.info "Admin console mounted"))
      | (.error e, w) => (.error e, w.drop center)

/-- The views one after another, the center last. -/
def unmountConsole (w : World) (console : ConsoleTasks) : World :=
  let w := console.sessions.foldl (fun w (_, id) => w.unmountView id) w
  (w.unmountCenter console.center).write (.info "Admin console unmounted")

def dropConsole (w : World) (console : ConsoleTasks) : World :=
  (console.center :: console.sessions.map Prod.snd).foldl drop w

/-- The clients that a fresh server is given; those that find it full are left out. -/
def seeds : List Client :=
  [⟨"Viper 1-1", "F-16C", "Blue", false⟩, ⟨"Hornet 2-1", "F/A-18C", "Blue", false⟩,
   ⟨"Flanker 1", "Su-27", "Red", false⟩]

def connect (w : World) (client : Client) : Option String × World :=
  let (id, outcome) := w.wire.server.state.connect client
  (id, w.adopt outcome)

def seed (w : World) : List String × World :=
  seeds.foldl (fun (ids, w) client =>
    match w.connect client with
    | (some id, w) => (ids ++ [id], w)
    | (none, w) =>
      (ids, w.write (.warning ("Server full, could not seed " ++ client.name)))) ([], w)

end World

end VoiceAdmin.Timeline
