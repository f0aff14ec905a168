import VoiceAdmin.Domain.Command
import VoiceAdmin.Service.Server

namespace VoiceAdmin.Timeline

/-- Why a fetch brings no value. -/
inductive FetchError where
  | remote (error : RemoteError)
  /-- It breaks off without an answer. -/
  | broken
deriving DecidableEq, Repr, Inhabited

/-- What a fetch runs into before it reaches the service. -/
structure Outage where
  delay : Nat := 0
  error : FetchError
deriving DecidableEq, Repr, Inhabited

/-- The remote side as the console sees it: the admin service behind a wire that can be made to fail, and
that remembers what went over it. -/
structure Wire where
  server : Service.Server := {}
  outages : List (Domain × Outage) := []
  /-- Topics that cannot be subscribed to. -/
  refusals : List (Topic × RemoteError) := []
  /-- How every command fails, if it does. -/
  commandFailure : Option RemoteError := none
  /-- Fetches that were asked for, the latest first. -/
  fetches : List Domain := []
  /-- Commands that were passed on. -/
  commands : List Command := []
deriving Inhabited

namespace Wire

/-- Puts an entry for a key in place of those it had, or takes them away. -/
def setEntry [BEq κ] (entries : List (κ × α)) (key : κ) (value : Option α) : List (κ × α) :=
  let others := entries.filter fun e => !(e.1 == key)
  match value with
  | some value => (key, value) :: others
  | none => others

/-- Starts a fetch: when it will be back, and with what. -/
def fetch (w : Wire) (d : Domain) : Nat × Except FetchError d.Value × Wire :=
  let next := { w with fetches := d :: w.fetches }
  match w.outages.lookup d with
  | some outage => (outage.delay, .error outage.error, next)
  | none =>
    match w.server.snapshot d with
    | .ok value => (w.server.latency, .ok value, next)
    | .error e => (0, .error (.remote e), next)

def subscribe (w : Wire) (topic : Topic) : Except RemoteError (Nat × Wire) :=
  match w.refusals.lookup topic with
  | some e => .error e
  | none => do
    let (id, server) ← w.server.subscribe topic
    return (id, { w with server })

/-- Passes a command on: after which time it is carried out, or why it is not. -/
def execute (w : Wire) (command : Command) : Except RemoteError Nat × Wire :=
  let next := { w with commands := w.commands ++ [command] }
  match w.commandFailure with
  | some e => (.error e, next)
  | none =>
    match w.server.check with
    | .ok () => (.ok w.server.latency, next)
    | .error e => (.error e, next)

end Wire

end VoiceAdmin.Timeline
