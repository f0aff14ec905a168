import VoiceAdmin.Timeline.World

namespace VoiceAdmin.Timeline.World

/-- The pulls of a session that ended come to nothing. -/
def cancelPulls (w : World) (owner : Nat) : World :=
  let pulls := w.tasks.filterMap fun (id, task) =>
    match task with
    | .pull _ o _ => if o = owner then some id else none
    | .answer _ o _ => if o = owner then some id else none
    | _ => none
  pulls.foldl remove w

/-- Ends a session or a center and gives its subscription back. -/
def finish (w : World) (id subscription : Nat) : World :=
  ((w.cancelPulls id).release subscription).remove id

def sessionEffect (id : Nat) (d : Domain) (notifier : Notifier) (w : World) : Sync.Effect → World
  | .startPull ticket => (w.spawn (.pull d id ticket)).2
  | .raise notice => w.raise notifier notice
  | .write line => w.write line
  | .publish => w
  | .stop => w

/-- How many inputs a session or a center handles in one turn. If more wait, it goes on when nobody
else can. -/
def turnLimit : Nat := 128

def defer (w : World) (id : Nat) : World :=
  { w with deferred := w.deferred ++ [id] }

/-- A tick that is no later than this counts as punctual. -/
def tickTolerance : Nat := 5

/-- The tick after one that was due and is seen to now. Those that were missed in between are left out. -/
def tickAfter (due poll now : Nat) : Nat :=
  if now ≤ due + tickTolerance then due + poll else now + poll - (now - due) % poll

/-- What waits for a session. -/
def sessionInbox (w : World) (task : SessionTask d) : Sync.Inbox d where
  controls := task.controls
  subscription := w.subscription task.subscription
  finished := task.finished
  tickDue := task.nextTick ≤ w.now

/-- A session after an input, with what is left of what waited. -/
def sessionNext (w : World) (task : SessionTask d) (session : Sync.Session d) (rest : Sync.Inbox d)
    (effects : List Sync.Effect) : SessionTask d :=
  let ticked := (w.sessionInbox task).tickDue && !rest.tickDue
  { task with
    session, controls := rest.controls, finished := rest.finished
    nextTick := if ticked then tickAfter task.nextTick task.poll w.now else task.nextTick
    changed := task.changed || effects.contains .publish }

/-- A session handles what waits for it, one input at a time, and then waits for its tick. -/
def runSession (id : Nat) (d : Domain) : Nat → SessionTask d → World → World
  | 0, task, w => (w.setTask id (.session d task)).defer id
  | more + 1, task, w =>
    match task.session.step (w.sessionInbox task) with
    | none => (w.setTask id (.session d task)).setAlarm id task.nextTick
    | some (session, rest, effects) =>
      let next := w.sessionNext task session rest effects
      let w := effects.foldl (sessionEffect id d task.notifier)
        (w.setSubscription task.subscription rest.subscription)
      if effects.contains .stop then w.finish id task.subscription
      else runSession id d more next w

/-- What waits for a center. -/
def centerInbox (w : World) (task : CenterTask) : Alerts.Inbox where
  messages := task.messages
  subscription := w.subscription task.subscription

/-- A center after an input, with what is left of what waited. -/
def centerNext (task : CenterTask) (center : Alerts.Center) (rest : Alerts.Inbox)
    (effects : List Alerts.Effect) : CenterTask :=
  { task with center, messages := rest.messages, changed := task.changed || effects.contains .publish }

/-- Only what a center writes takes effect outside of it. -/
def centerEffects (w : World) (effects : List Alerts.Effect) : World :=
  w.writeAll (effects.filterMap fun
    | .write line => some line
    | _ => none)

/-- Waits for the earliest deadline of a center. -/
def setTimer (w : World) (id : Nat) (center : Alerts.Center) : World :=
  match center.deadline with
  | .ok (some deadline) => w.setAlarm id deadline
  | _ => w

/-- A center handles what waits for it, and then waits for its earliest deadline. It waits anew after
every input, so its alarm then stands behind the others. One that breaks off ends like one that was
stopped. -/
def runCenter (id : Nat) : Nat → CenterTask → World → World
  | 0, task, w => (w.setTask id (.center task)).defer id
  | more + 1, task, w =>
    match task.center.step w.now (w.centerInbox task) with
    | .error _ => w.finish id task.subscription
    | .ok none => (w.setTask id (.center task)).setTimer id task.center
    | .ok (some (center, rest, effects)) =>
      let w := ((w.setSubscription task.subscription rest.subscription).centerEffects effects).clearAlarm id
      if effects.contains .stop then w.finish id task.subscription
      else runCenter id more (centerNext task center rest effects) w

/-- Hands the end of a pull to its session. -/
def deliver (w : World) (d : Domain) (owner : Nat) (result : Sync.PullEnd d) : World :=
  match w.find? owner with
  | some (.session e task) =>
    if h : d = e then
      (w.setTask owner (.session e { task with finished := task.finished ++ [h ▸ result] })).wake owner
    else w
  | _ => w

/-- What a session is told of a fetch for it. -/
def pullEnd (ticket : Sync.Ticket) : Except FetchError d.Value → Sync.PullEnd d
  | .ok value => .fetched ticket value
  | .error (.remote e) => .failed ticket e
  | .error .broken => .broken ("no answer to the pull issued at push " ++ toString ticket.pushes)

/-- Sends a pull out. One that takes no time is back at once. -/
def runPull (w : World) (id : Nat) (d : Domain) (owner : Nat) (ticket : Sync.Ticket) : World :=
  let (delay, result, wire) := w.wire.fetch d
  let w := { w with wire }
  let result := pullEnd ticket result
  if delay = 0 then (w.remove id).deliver d owner result
  else (w.setTask id (.answer d owner result)).setAlarm id (w.now + delay)

/-- Sends a command out. A failure is written down and announced. -/
def runCommand (w : World) (id : Nat) (command : Command) (notifier : Notifier) : World :=
  let (result, wire) := w.wire.execute command
  let w := { w with wire }
  match result with
  | .ok 0 => (w.remove id).apply command
  | .ok delay => (w.setTask id (.delayed command)).setAlarm id (w.now + delay)
  | .error e =>
    ((w.remove id).write (.warning (command.describe ++ " failed: " ++ e.message))).raise notifier
      (command.failure e)

/-- What one act of a script does. -/
def perform (w : World) (notifier : Notifier) : Console.Act → World
  | .say text => w.write (.info text)
  | .ask request => (w.ask notifier request).2
  | .addFrequency band typed =>
    match Console.frequencyRequest w.wire.server.state.settings.frequencies band typed with
    | .ok request => (w.ask notifier request).2
    | .error e => w.write (.warning ("Demo: frequency rejected: " ++ e.message))
  | .setAvailable available =>
    let (server, lines) := w.wire.server.setAvailable available
    (w.mapServer fun _ => server).writeAll lines
  | .announce notice =>
    let (id, w) := w.freshId
    (w.ask notifier (.notify (notice.withId id))).2
  | .pause _ => w

/-- Acts until the script pauses or is over. -/
def runScript (id : Nat) (notifier : Notifier) : List Console.Act → World → World
  | [], w => w.remove id
  | .pause ms :: acts, w =>
    if ms = 0 then runScript id notifier acts w
    else (w.setTask id (.script acts notifier)).setAlarm id (w.now + ms)
  | act :: acts, w => runScript id notifier acts (w.perform notifier act)

/-- One turn of a task. -/
def run (w : World) (id : Nat) : World :=
  match w.find? id with
  | none => w
  | some (.session d task) => runSession id d turnLimit task w
  | some (.center task) => runCenter id turnLimit task w
  | some (.pull d owner ticket) => w.runPull id d owner ticket
  | some (.answer d owner result) => (w.remove id).deliver d owner result
  | some (.command command notifier) => w.runCommand id command notifier
  | some (.delayed command) => (w.remove id).apply command
  | some (.later delay push) =>
    if delay = 0 then (w.remove id).emit push
    else (w.setTask id (.emission push)).setAlarm id (w.now + delay)
  | some (.emission push) => (w.remove id).emit push
  | some (.script acts notifier) => runScript id notifier acts w
  | some (.dropped subscription) => w.finish id subscription

/-- Gives turns, one after another, to the tasks in line. -/
def settleWithin : Nat → World → World
  | 0, w => w
  | turns + 1, w =>
    match w.ready, w.deferred with
    | [], [] => w
    | [], line => settleWithin turns { w with ready := line, deferred := [] }
    | id :: line, _ => settleWithin turns ({ w with ready := line }.run id)

/-- The orders that a task has to carry out within the instant, and those that come of them: a request for
a pull, the pull, its answer, what the answer came to; a script, its commands. -/
def orders (now : Nat) : Task → Nat
  | .session _ task =>
    5 * task.controls.length + task.finished.length + 5 * (now + 1 - task.nextTick)
  | .center _ => 0
  | .pull _ _ _ => 3
  | .answer _ _ _ => 2
  | .command _ _ => 2
  | .delayed _ => 1
  | .later _ _ => 2
  | .emission _ => 1
  | .script acts _ => 3 * acts.length + 1
  | .dropped _ => 0

/-- What waits at a task to be taken note of. Nothing comes of it but alerts. -/
def notes : Task → Nat
  | .session _ task => task.session.listening.toNat
  | .center task =>
    2 * task.messages.length + task.center.queue.entries.length + task.center.listening.toNat
  | .dropped _ => 1
  | _ => 0

def totalOrders (w : World) : Nat := w.tasks.foldr (fun e n => orders w.now e.2 + n) 0

def totalNotes (w : World) : Nat :=
  3 * w.wire.server.registry.members.foldr (fun m n => m.subscription.pending.length + n) 0 +
    w.tasks.foldr (fun e n => notes e.2 + n) 0

/-- For how many turns a world can go on that carries out no order. -/
def round (w : World) : Nat := 2 * w.totalNotes + w.ready.length + 2 * w.deferred.length

/-- Turns in rounds, in each of which an order is carried out if there still is one. -/
def settleRounds : Nat → World → World
  | 0, w => w
  | rounds + 1, w => settleRounds rounds (settleWithin w.round w)

/-- Runs until no task can go on. -/
def settle (w : World) : World := settleRounds (w.totalOrders + 1) w

/-- Moves the clock, and wakes the tasks whose alarm has come. -/
def jump (w : World) (time : Nat) : World :=
  let due := w.alarms.filter fun a => a.time ≤ time
  (due.map Alarm.task).foldl wake
    { w with now := time, alarms := w.alarms.filter fun a => time < a.time }

/-- The first alarm after an instant, up to another. -/
def nextAlarm (w : World) (after limit : Nat) : Option { t : Nat // after < t ∧ t ≤ limit } :=
  w.alarms.foldl (fun first a =>
    if h : after < a.time ∧ a.time ≤ limit then
      match first with
      | some ⟨t, ht⟩ => if a.time < t then some ⟨a.time, h⟩ else some ⟨t, ht⟩
      | none => some ⟨a.time, h⟩
    else first) none

/-- Moves the clock to an instant, where everything runs and then is looked at. -/
def visit (look : World → World) (time : Nat) (w : World) : World :=
  look (w.jump time).settle

/-- Goes from alarm to alarm up to an instant. -/
def elapse (look : World → World) (after limit : Nat) (w : World) : World :=
  match w.nextAlarm after limit with
  | none => w
  | some ⟨time, _⟩ => elapse look time limit (w.visit look time)
termination_by limit - after

/-- Lets the clock come to an instant at which nothing has run yet. If it has come there already, nothing
runs at all. -/
def waitUntil (look : World → World) (time : Nat) (w : World) : World :=
  if time ≤ w.now then w
  else (elapse look w.now (time - 1) (look w.settle)).jump time

end VoiceAdmin.Timeline.World
