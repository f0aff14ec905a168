import VoiceAdmin.Console.Options
import VoiceAdmin.Console.Report
import VoiceAdmin.Text.Duration
import VoiceAdmin.Timeline.Look
import VoiceAdmin.Timeline.Mount

namespace VoiceAdmin.Console

open Timeline (World ConsoleTasks)

/-- What tells how severe the lines have to be that are written. -/
def severityVariable : String := "RUST_LOG"

/-- Written in front of everything else when nothing tells it. Then only errors are written. -/
def severityHint : String := "Set " ++ severityVariable ++ "=info for detailed logging"

/-- A running program. It has a seeded admin service with a console mounted on it, and writes down
whatever changes until its time is up. -/
structure Program where
  world : World
  console : ConsoleTasks
  /-- The instant at which it stops. -/
  deadline : Nat

namespace Program

/-- The service as the options want it, with what is written when it comes up. -/
def service (o : Options) (ids : Nat → String) : World :=
  let world : World :=
    { ids, wire := { server :=
        { state := .seeded o.capacity, latency := o.latency, envelope := o.envelope } } }
  let announced := world.write (.info "Starting admin console...")
  let slowed :=
    if o.latency = 0 then announced
    else announced.write (.info ("Simulating " ++ toString o.latency ++ "ms latency"))
  slowed.write (.info ("Admin service ready (latency " ++ Text.duration o.latency ++ ", envelope " ++
    o.envelope.label ++ ")"))

/-- Thirty years; a program does not run for longer. -/
def longestRun : Nat := 30 * 365 * 24 * 60 * 60 * 1000

def start (o : Options) (ids : Nat → String) : Except Sync.SyncError Program :=
  let (clients, world) := (service o ids).seed
  match world.mountConsole { poll := o.poll, ttl := o.ttl } with
  | (.error e, _) => .error e
  | (.ok console, world) =>
    let script := Timeline.Task.script (demo clients o.poll) (.center console.center)
    let world := if o.demo then (world.spawn script).2 else world
    .ok { world, console, deadline := min (o.duration * 1000) longestRun }

/-- Writes down every view that changed since it was last written down. -/
def look (console : ConsoleTasks) (w : World) : World :=
  let w := console.sessions.foldl (fun w (_, id) =>
    match w.lookView id with
    | (some ⟨d, some value⟩, w) => w.writeAll (viewLines d value)
    | (_, w) => w) w
  match w.lookCenter console.center with
  | (some entries, w) => w.writeAll (noteLines entries)
  | (none, w) => w

/-- Runs up to the deadline. What falls due there has not run yet. -/
def run (p : Program) : Program :=
  { p with world := p.world.waitUntil (look p.console) p.deadline }

/-- Runs what can run at the very beginning; nothing can when the time is up at once. -/
def settle (p : Program) : Program :=
  if p.deadline = 0 then p else { p with world := look p.console p.world.settle }

/-- The next instant before the deadline at which something is due. -/
def nextInstant (p : Program) : Option Nat :=
  (p.world.nextAlarm p.world.now (p.deadline - 1)).map Subtype.val

def visit (p : Program) (time : Nat) : Program :=
  { p with world := p.world.visit (look p.console) time }

/-- Comes to the deadline. -/
def expire (p : Program) : Program :=
  { p with world := p.world.jump p.deadline }

/-- Takes the console down once the time is up. -/
def stop (p : Program) : Program :=
  let w := p.world.write (.info "Run time elapsed")
  { p with world := (w.unmountConsole p.console).write (.info "Admin console stopped") }

/-- Everything that a program with the given options writes, with the time of each line. -/
def journal (o : Options) (ids : Nat → String) : Except Sync.SyncError (Array (Nat × Line)) := do
  return (← start o ids).run.stop.world.journal

end Program

end VoiceAdmin.Console
