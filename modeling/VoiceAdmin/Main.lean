import VoiceAdmin.Console.Program

namespace VoiceAdmin.Console

def usage : String :=
  "\n".intercalate
    ["Usage: voice-admin [OPTIONS]",
     "",
     "Options:",
     "  -p, --poll-interval-ms <MS>     Time between two pulls of a view [default: 3000]",
     "  -t, --notification-ttl-ms <MS>  How long a notification is shown [default: 8000]",
     "  -l, --fake-latency-ms <MS>      Time that the service takes to answer [default: 0]",
     "  -e, --envelope <SHAPE>          Shape of pushes: raw, data or array [default: raw]",
     "      --max-clients <N>           How many clients the server takes [default: 64]",
     "  -d, --duration-secs <SECS>      How long the console runs [default: 30]",
     "      --demo                      Run a scripted sequence of admin commands",
     "  -h, --help                      Print help",
     "  -V, --version                   Print version"]

def OptionError.message : OptionError → String
  | .unknownArgument => "error: unexpected argument"
  | .badValue => "error: invalid value for an option"
  | .missingValue => "error: an option needs a value"
  | .repeated => "error: an option cannot be used more than once"
  | .valueForFlag => "error: unexpected value for a flag"
  | .help => usage
  | .version => "voice-admin 0.1.0"

/-- The longest sleep at one time. -/
def longestSleep : Nat := 60000

/-- Sleeps until so many milliseconds have passed since the program began. -/
partial def sleepUntil (began time : Nat) : IO Unit := do
  let passed := (← IO.monoMsNow) - began
  if passed < time then
    IO.sleep (UInt32.ofNat (min (time - passed) longestSleep))
    sleepUntil began time

/-- Writes the lines that the journal holds beyond the first `written`. -/
def writeLines (severity : Severity) (written : Nat) (p : Program) : IO Unit := do
  let errors ← IO.getStderr
  for (_, line) in p.world.journal.toList.drop written do
    if severity.admits line then
      errors.putStrLn (line.severity.label ++ " " ++ line.text)

/-- Plays the instants of a program as they come. -/
partial def play (severity : Severity) (began : Nat) (p : Program) : IO Unit := do
  let written := p.world.journal.size
  match p.nextInstant with
  | some time =>
    sleepUntil began time
    let next := p.visit time
    writeLines severity written next
    play severity began next
  | none =>
    sleepUntil began p.deadline
    writeLines severity written p.expire.stop

/-- The severity that the environment asks for. -/
def askedSeverity : IO Severity := do
  match ← IO.getEnv severityVariable with
  | some name => return (Severity.ofName name).getD .error
  | none =>
    IO.eprintln severityHint
    return .error

/-- A universally unique identifier of version four with the given free digits. -/
def uniqueId (free : List Char) : String :=
  let part (start length : Nat) := String.ofList ((free.drop start).take length)
  "-".intercalate [part 0 8, part 8 4, "4" ++ part 12 3, "8" ++ part 15 3, part 18 12]

/-- Ids that begin with random digits and end with a number. -/
def drawIds : IO (Nat → String) := do
  let digits (count n : Nat) : List Char :=
    let written := Nat.toDigits 16 n
    List.replicate (count - written.length) '0' ++ written
  let drawn := (← IO.getRandomBytes 9).toList.flatMap fun byte => digits 2 byte.toNat
  return fun serial => uniqueId (drawn ++ digits 12 serial)

def runWith (severity : Severity) (options : Options) : IO UInt32 := do
  match Program.start options (← drawIds) with
  | .error e =>
    IO.eprintln ("Error: " ++ e.message)
    return 1
  | .ok p =>
    let first := p.settle
    writeLines severity 0 first
    play severity (← IO.monoMsNow) first
    return 0

end VoiceAdmin.Console

open VoiceAdmin Console in
/-- The program's instants are played in real time, and its lines go to standard error. -/
def main (args : List String) : IO UInt32 := do
  let severity ← askedSeverity
  match Options.read args with
  | .ok options => runWith severity options
  | .error e =>
    match e with
    | .help | .version =>
      IO.println e.message
      return 0
    | _ =>
      IO.eprintln e.message
      return 2
