import VoiceAdmin.Domain.Roster

namespace VoiceAdmin.Service

/-- A connected client with the id that it was given. -/
structure VoiceClient where
  id : String
  state : Client
deriving DecidableEq, Repr, Inhabited

/-- The clients that are attached, each under the id that it stores. -/
structure Attached where
  table : Keyed VoiceClient := {}
  stored : ∀ e ∈ table.entries, e.2.id = e.1 := by simp
deriving DecidableEq

namespace Attached

def empty : Attached := {}

/-- The clients as they are shown. -/
def roster (a : Attached) : Roster := a.table.map VoiceClient.state

def insert (a : Attached) (id : String) (state : Client) : Attached where
  table := a.table.insert id ⟨id, state⟩
  stored e he := by
    rcases Keyed.mem_insertEntry he with rfl | he
    · rfl
    · exact a.stored e he

def erase (a : Attached) (id : String) : Attached where
  table := a.table.erase id
  stored e he := a.stored e (List.mem_filter.mp he).1

def setMuted (a : Attached) (id : String) (muted : Bool) : Attached where
  table := a.table.modify id fun client => { client with state.muted := muted }
  stored e he := by
    obtain ⟨old, hold, rfl⟩ := List.mem_map.mp he
    unfold Keyed.modifyEntry
    split
    · exact a.stored old hold
    · exact a.stored old hold

end Attached

/-- The voice clients that are connected. At most `capacity` at a time; each gets the decimal text of a
number that was not given out before. -/
structure ClientTable where
  attached : Attached := .empty
  nextId : UInt32 := 1
  capacity : Nat
deriving DecidableEq

namespace ClientTable

def size (t : ClientTable) : Nat := t.attached.table.size

def roster (t : ClientTable) : Roster := t.attached.roster

/-- The id of the new client, or nothing where the table is full. -/
def add (t : ClientTable) (client : Client) : Option String × ClientTable :=
  if t.capacity ≤ t.size then (none, t)
  else
    let id := toString t.nextId.toNat
    (some id, { t with attached := t.attached.insert id client, nextId := t.nextId + 1 })

def find? (t : ClientTable) (id : String) : Option VoiceClient := t.attached.table.find? id

/-- The client with that id, if there is one, and the table without it. -/
def remove (t : ClientTable) (id : String) : Option VoiceClient × ClientTable :=
  (t.find? id, { t with attached := t.attached.erase id })

/-- Whether there is a client with that id, and the table with its flag set. -/
def setMuted (t : ClientTable) (id : String) (muted : Bool) : Bool × ClientTable :=
  match t.find? id with
  | some _ => (true, { t with attached := t.attached.setMuted id muted })
  | none => (false, t)

end ClientTable

end VoiceAdmin.Service
