import VoiceAdmin.Clock
import VoiceAdmin.Domain.Notification

namespace VoiceAdmin.Alerts

structure Entry where
  notification : Notification
  arrival : Nat
  /-- Its number among all that were accepted. -/
  seq : Nat
deriving DecidableEq, Repr, Inhabited

namespace Entry

def id (e : Entry) : String := e.notification.id

/-- How two entries follow each other on the display: the latest arrival first, and of equal arrivals the
one that was accepted later. -/
def order (x y : Entry) : Ordering :=
  (compare y.arrival x.arrival).then (compare y.seq x.seq)

end Entry

/-- Transient alerts, each id at most once. The first arrival of an id counts, later ones are dropped
while it is there. -/
structure Queue where
  /-- How long an entry stays after its arrival. -/
  ttl : Nat := 8000
  /-- In no particular order. -/
  entries : List Entry := []
  nextSeq : Nat := 0
deriving DecidableEq, Repr, Inhabited

namespace Queue

def find? (q : Queue) (id : String) : Option Entry :=
  q.entries.find? fun e => e.id = id

def contains (q : Queue) (id : String) : Bool :=
  q.entries.any fun e => e.id = id

/-- Whether the notification was accepted, and the queue after it. -/
def enqueue (q : Queue) (notification : Notification) (arrival : Nat) : Bool × Queue :=
  if q.contains notification.id then (false, q)
  else (true,
    { q with
      entries := ⟨notification, arrival, q.nextSeq⟩ :: q.entries
      nextSeq := q.nextSeq + 1 })

/-- Whether there was an entry to remove, and the queue after it. -/
def dismiss (q : Queue) (id : String) : Bool × Queue :=
  (q.contains id, { q with entries := q.entries.filter fun e => e.id ≠ id })

/-- The entries, each with the instant at which its time is up. -/
def deadlines (q : Queue) : Except Panic (List (Entry × Nat)) :=
  q.entries.mapM fun e => do return (e, ← later e.arrival q.ttl)

/-- The ids of the entries whose time is up, and the queue without them. -/
def expire (q : Queue) (now : Nat) : Except Panic (List String × Queue) := do
  let due := (← q.deadlines).filter fun timed => timed.2 ≤ now
  let ids := due.map fun timed => timed.1.id
  return (ids, ids.foldl (fun q id => (q.dismiss id).2) q)

/-- The earliest instant at which an entry's time is up. -/
def nextDeadline (q : Queue) : Except Panic (Option Nat) := do
  return ((← q.deadlines).map Prod.snd).min?

/-- The entries as they are shown. -/
def displayOrder (q : Queue) : List Entry :=
  q.entries.mergeSort fun x y => (x.order y).isLE

end Queue

end VoiceAdmin.Alerts
