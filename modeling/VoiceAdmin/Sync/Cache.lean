namespace VoiceAdmin.Sync

/-- The number of pushes accepted when a pull was issued. -/
structure Ticket where
  pushes : Nat
deriving DecidableEq, Repr, Inhabited

/-- What became of an update offered to the cache. -/
inductive Applied where
  | replaced
  | unchanged
  | stale
deriving DecidableEq, Repr, Inhabited

def Applied.isAccepted (a : Applied) : Bool := a != .stale

/-- The last known good value of one domain, fed by pulls and pushes that know nothing of each other. A
push is always accepted. A pull is accepted only if no push was accepted since the pull was issued, so a
slow pull never takes the place of a newer push. -/
structure Cache (α : Type) where
  value : Option α := none
  /-- Pushes accepted so far. -/
  pushes : Nat := 0
  /-- Updates accepted so far, from either side. -/
  accepted : Nat := 0
deriving Repr, Inhabited

namespace Cache

variable {α : Type}

def ticket (c : Cache α) : Ticket := ⟨c.pushes⟩

/-- Counts an update and takes its value, unless the value held compares equal. -/
def accept [BEq α] (c : Cache α) (value : α) : Cache α × Applied :=
  let c := { c with accepted := c.accepted + 1 }
  if c.value == some value then (c, .unchanged) else ({ c with value := some value }, .replaced)

def push [BEq α] (c : Cache α) (value : α) : Cache α × Applied :=
  { c with pushes := c.pushes + 1 }.accept value

def pull [BEq α] (c : Cache α) (ticket : Ticket) (value : α) : Cache α × Applied :=
  if c.pushes = ticket.pushes then c.accept value else (c, .stale)

end Cache

end VoiceAdmin.Sync
