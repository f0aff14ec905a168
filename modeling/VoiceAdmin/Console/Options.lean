import VoiceAdmin.Payload.Envelope

namespace VoiceAdmin.Console

/-- Times in milliseconds, except for the duration in seconds. -/
structure Options where
  poll : Nat := 3000
  ttl : Nat := 8000
  latency : Nat := 0
  envelope : Envelope := .raw
  capacity : Nat := 64
  duration : Nat := 30
  demo : Bool := false
deriving DecidableEq, Repr, Inhabited

inductive OptionError where
  /-- A word that is no option, or an option that is not known. -/
  | unknownArgument
  | badValue
  | missingValue
  | repeated
  /-- A flag was given a value. -/
  | valueForFlag
  | help
  | version
deriving DecidableEq, Repr, Inhabited

/-- What an option sets. -/
inductive Setting where
  | poll
  | ttl
  | latency
  | envelope
  | capacity
  | duration
  | demo
deriving DecidableEq, Repr

inductive Named where
  | value (setting : Setting)
  | flag (setting : Setting)
  | help
  | version
deriving DecidableEq, Repr

def longNames : List (String × Named) :=
  [("poll-interval-ms", .value .poll), ("notification-ttl-ms", .value .ttl),
   ("fake-latency-ms", .value .latency), ("envelope", .value .envelope),
   ("max-clients", .value .capacity), ("duration-secs", .value .duration), ("demo", .flag .demo),
   ("help", .help), ("version", .version)]

def shortNames : List (Char × Named) :=
  [('p', .value .poll), ('t', .value .ttl), ('l', .value .latency), ('e', .value .envelope),
   ('d', .value .duration), ('h', .help), ('V', .version)]

/-- Decimal digits, perhaps after a plus sign, of a number that fits 64 bits. -/
def natural? (text : String) : Option Nat :=
  let digits := match text.toList with
    | '+' :: rest => rest
    | chars => chars
  if digits.isEmpty || !digits.all Char.isDigit then none
  else
    let n := digits.foldl (fun n c => n * 10 + (c.toNat - 48)) 0
    if n < UInt64.size then some n else none

def Setting.set (setting : Setting) (text : String) (o : Options) : Option Options :=
  match setting with
  | .poll => (natural? text).bind fun n => if n = 0 then none else some { o with poll := n }
  | .ttl => (natural? text).map fun n => { o with ttl := n }
  | .latency => (natural? text).map fun n => { o with latency := n }
  | .envelope =>
    match Envelope.ofName text with
    | .ok style => some { o with envelope := style }
    | .error _ => none
  | .capacity => (natural? text).map fun n => { o with capacity := n }
  | .duration => (natural? text).map fun n => { o with duration := n }
  | .demo => some { o with demo := true }

/-- Where the reading of a command line stands. -/
structure Reading where
  options : Options := {}
  given : List Setting := []
  /-- The last option, with its value if it came already. -/
  waiting : Option (Setting × Option String) := none

namespace Reading

def store (r : Reading) (setting : Setting) (text : String) : Except OptionError Reading :=
  if setting ∈ r.given then .error .repeated
  else match setting.set text r.options with
    | some options => .ok { r with options, given := setting :: r.given }
    | none => .error .badValue

/-- Takes up the option that waits. The value of an option is only looked at when the next option starts
or the line ends, so a word that is no option at all is reported before a bad value right in front of it.
-/
def settle (r : Reading) : Except OptionError Reading :=
  match r.waiting with
  | none => .ok r
  | some (_, none) => .error .missingValue
  | some (setting, some text) => { r with waiting := none }.store setting text

/-- An option with the value written next to it, if any. -/
def start (r : Reading) (named : Named) (attached : Option String) : Except OptionError Reading :=
  match named, attached with
  | .value setting, some text => do (← r.settle).store setting text
  | .value setting, none => do return { ← r.settle with waiting := some (setting, none) }
  | .flag _, some _ => .error .valueForFlag
  | .flag setting, none => do (← r.settle).store setting ""
  | .help, some _ => .error .valueForFlag
  | .help, none => do
    let _ ← r.settle
    .error .help
  | .version, some _ => .error .valueForFlag
  | .version, none => do
    let _ ← r.settle
    .error .version

def long (r : Reading) (body : List Char) : Except OptionError Reading :=
  let name := body.takeWhile (· != '=')
  let attached := match body.dropWhile (· != '=') with
    | [] => none
    | _ :: text => some (String.ofList text)
  match longNames.lookup (String.ofList name) with
  | some named => r.start named attached
  | none => .error .unknownArgument

/-- A short option; what follows its letter is its value, an equals sign in front apart. -/
def short (r : Reading) (letter : Char) (text : List Char) : Except OptionError Reading :=
  match shortNames.lookup letter with
  | some (.value setting) =>
    match text with
    | [] => r.start (.value setting) none
    | '=' :: text => r.start (.value setting) (some (String.ofList text))
    | text => r.start (.value setting) (some (String.ofList text))
  | some named => r.start named none
  | none => .error .unknownArgument

/-- A word that is no option: the value that the last option waits for, or nothing known. -/
def word (r : Reading) (text : String) : Except OptionError Reading :=
  match r.waiting with
  | some (setting, none) => .ok { r with waiting := some (setting, some text) }
  | _ => .error .unknownArgument

def read (r : Reading) : List String → Except OptionError Reading
  | [] => r.settle
  | arg :: rest =>
    match arg.toList with
    | ['-', '-'] => if rest.isEmpty then r.settle else .error .unknownArgument
    | '-' :: '-' :: body => do (← r.long body).read rest
    | '-' :: letter :: text => do (← r.short letter text).read rest
    | _ => do (← r.word arg).read rest

end Reading

def Options.read (args : List String) : Except OptionError Options :=
  Reading.options <$> Reading.read {} args

end VoiceAdmin.Console
