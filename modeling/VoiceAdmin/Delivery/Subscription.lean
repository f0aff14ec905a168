import VoiceAdmin.Domain.Topic

namespace VoiceAdmin.Delivery

/-- One push subscription, seen from both ends. The sender adds payloads; the owner takes them in order
and gives the subscription back once, whereupon the release hook runs. -/
structure Subscription where
  topic : Topic
  /-- Payloads accepted and not yet received, the oldest first. -/
  pending : List Json := []
  senderOpen : Bool := true
  /-- Still with its owner. -/
  held : Bool := true
  /-- How often the release hook ran. -/
  releases : Nat := 0
deriving Inhabited

/-- What the owner gets when it asks for the next payload. -/
inductive Received where
  /-- The subscription was given back. -/
  | gone
  | waiting
  | closed
  | payload (payload : Json)

namespace Subscription

/-- Whether the payload was accepted. -/
def send (s : Subscription) (payload : Json) : Bool × Subscription :=
  if s.senderOpen && s.held then (true, { s with pending := s.pending ++ [payload] }) else (false, s)

def close (s : Subscription) : Subscription := { s with senderOpen := false }

/-- A closed stream still gives what it accepted before. -/
def receive (s : Subscription) : Received × Subscription :=
  if s.held then
    match s.pending with
    | payload :: rest => (.payload payload, { s with pending := rest })
    | [] => (if s.senderOpen then .waiting else .closed, s)
  else (.gone, s)

/-- Given back by its owner, at most once. -/
def release (s : Subscription) : Subscription :=
  if s.held then { s with held := false, pending := [], releases := s.releases + 1 } else s

/-- The subscription as its owner would print it. -/
def describe (s : Subscription) : String :=
  "Subscription \x7b topic: " ++ s.topic.label ++ ", released: false \x7d"

end Subscription

end VoiceAdmin.Delivery
