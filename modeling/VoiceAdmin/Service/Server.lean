import VoiceAdmin.Delivery.Registry
import VoiceAdmin.Domain.Remote
import VoiceAdmin.Payload.Envelope
import VoiceAdmin.Service.Execute

namespace VoiceAdmin.Service

/-- The admin service: its state, its subscribers, and how it answers. A fetch takes its value when it is
issued and hands it over after the latency; a command is carried out after the latency. -/
structure Server where
  state : AdminState := {}
  registry : Delivery.Registry := {}
  /-- Milliseconds that every fetch and command takes. -/
  latency : Nat := 0
  envelope : Envelope := .raw
  isAvailable : Bool := true
deriving Inhabited

namespace Server

/-- Sends a bare payload to every subscriber of a topic, in the current envelope. -/
def emit (s : Server) (push : Push) : Server :=
  { s with registry := s.registry.emit push.topic (s.envelope.wrap push.payload) }

/-- Takes over the state after an operation and sends what it pushes. -/
def adopt (s : Server) (outcome : Outcome) : Server :=
  outcome.pushes.foldl emit { s with state := outcome.state }

def connect (s : Server) (client : Client) : Option String × Server × List Line :=
  let (id, outcome) := s.state.connect client
  (id, s.adopt outcome, outcome.journal)

def setStatus (s : Server) (status : Status) : Server :=
  s.adopt (s.state.setStatus status)

/-- Calls are refused while the service is unavailable; subscriptions that are there stay. -/
def check (s : Server) : Except RemoteError Unit :=
  if s.isAvailable then .ok () else .error (.unavailable "admin service is unavailable")

def snapshot (s : Server) (d : Domain) : Except RemoteError d.Value := do
  s.check
  return s.state.value d

def subscribe (s : Server) (topic : Topic) : Except RemoteError (Nat × Server) := do
  s.check
  let (id, registry) := s.registry.subscribe topic
  return (id, { s with registry })

/-- Carries out a command. A notification that it raises gets the id given. -/
def execute (s : Server) (id : String) (command : Command) : Server × List Line :=
  let outcome := s.state.execute id command
  (s.adopt outcome, outcome.journal)

def setAvailable (s : Server) (available : Bool) : Server × List Line :=
  ({ s with isAvailable := available },
    [.info ("Admin service " ++ if available then "available" else "unavailable")])

def closeTopic (s : Server) (topic : Topic) : Server × List Line :=
  match s.registry.closeTopic topic with
  | (some n, registry) =>
    ({ s with registry },
      [.warning ("Closed " ++ toString n ++ " subscription(s) on " ++ topic.event)])
  | (none, registry) => ({ s with registry }, [])

end Server

end VoiceAdmin.Service
