import VoiceAdmin.Delivery.Subscription

namespace VoiceAdmin.Delivery

structure Member where
  id : Nat
  subscription : Subscription
deriving Inhabited

/-- The subscribers of every topic. A subscription is registered as long as the registry holds its sending
end: until its owner gives it back or its topic is closed. -/
structure Registry where
  nextId : Nat := 1
  /-- Topics subscribed to since they were last closed. -/
  opened : List Topic := []
  /-- Every subscription ever made, in order. -/
  members : List Member := []
deriving Inhabited

namespace Registry

def registeredOn (topic : Topic) (m : Member) : Bool :=
  m.subscription.senderOpen && m.subscription.topic == topic

def count (r : Registry) (topic : Topic) : Nat :=
  r.members.countP (registeredOn topic)

def find? (r : Registry) (id : Nat) : Option Subscription :=
  (r.members.find? fun m => m.id = id).map Member.subscription

/-- Changes the subscription with the given id. -/
def update (r : Registry) (id : Nat) (change : Subscription → Subscription) : Registry :=
  { r with members := r.members.map fun m =>
      if m.id = id then { m with subscription := change m.subscription } else m }

def subscribe (r : Registry) (topic : Topic) : Nat × Registry :=
  (r.nextId,
    { nextId := r.nextId + 1
      opened := if r.opened.contains topic then r.opened else topic :: r.opened
      members := r.members ++ [⟨r.nextId, { topic }⟩] })

/-- The owner gives its subscription back; the registry lets go of the sending end. -/
def release (r : Registry) (id : Nat) : Registry :=
  r.update id fun s => s.release.close

/-- A payload for every registered subscription of a topic. One that cannot take it is let go. -/
def emit (r : Registry) (topic : Topic) (payload : Json) : Registry :=
  { r with members := r.members.map fun m =>
      if registeredOn topic m then
        match m.subscription.send payload with
        | (true, subscription) => { m with subscription }
        | (false, subscription) => { m with subscription := subscription.close }
      else m }

/-- Closes every stream on a topic. Gives their number, where the topic was ever subscribed to. -/
def closeTopic (r : Registry) (topic : Topic) : Option Nat × Registry :=
  if r.opened.contains topic then
    (some (r.count topic),
      { r with
        opened := r.opened.filter (· != topic)
        members := r.members.map fun m =>
          if registeredOn topic m then { m with subscription := m.subscription.close } else m })
  else (none, r)

/-- The next payload of a subscription. -/
def receive (r : Registry) (id : Nat) : Received × Registry :=
  match r.find? id with
  | some s => (s.receive.1, r.update id fun _ => s.receive.2)
  | none => (.gone, r)

end Registry

end VoiceAdmin.Delivery
