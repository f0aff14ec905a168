import VoiceAdmin.Domain.Kind
import VoiceAdmin.Service.ClientTable

namespace VoiceAdmin.Service

/-- What the admin service knows: the authoritative value of every domain. -/
structure AdminState where
  status : Status := {}
  settings : Settings := {}
  coalitions : List Coalition := []
  bans : List Ban := []
  clients : ClientTable := { capacity := 64 }

namespace AdminState

instance : Inhabited AdminState := ⟨{}⟩

def empty (capacity : Nat) : AdminState := { clients := { capacity } }

/-- Two coalitions and the usual radio frequencies. -/
def seeded (capacity : Nat) : AdminState :=
  { empty capacity with
    settings := { frequencies := { global := [243.0, 121.5], test := [100.0] } }
    coalitions :=
      [⟨"Blue", "Blue coalition", "#0000ff", "blue"⟩, ⟨"Red", "Red coalition", "#ff0000", "red"⟩] }

/-- The current value of a domain. -/
def value (s : AdminState) : (d : Domain) → d.Value
  | .status => s.status
  | .settings => s.settings
  | .roster => s.clients.roster
  | .coalitions => s.coalitions
  | .bans => s.bans

def setRunning (s : AdminState) (running : Bool) : AdminState :=
  { s with status := .all (if running then .running else .stopped) }

/-- The first ban with the given id, if there is one, and the state without it. -/
def removeBan (s : AdminState) (id : String) : Option Ban × AdminState :=
  (s.bans.find? fun ban => ban.id = id,
    { s with bans := s.bans.eraseP fun ban => ban.id = id })

/-- Replaces the first coalition of the same name. -/
def replaceFirst (coalition : Coalition) : List Coalition → List Coalition
  | [] => []
  | c :: rest => if c.name = coalition.name then coalition :: rest else c :: replaceFirst coalition rest

/-- Whether there is a coalition of that name, and the state with it replaced. -/
def updateCoalition (s : AdminState) (coalition : Coalition) : Bool × AdminState :=
  (s.coalitions.any fun c => c.name = coalition.name,
    { s with coalitions := replaceFirst coalition s.coalitions })

/-- Whether an equal coalition was there, and the state without any. -/
def removeCoalition (s : AdminState) (coalition : Coalition) : Bool × AdminState :=
  (s.coalitions.contains coalition,
    { s with coalitions := s.coalitions.filter (· != coalition) })

end AdminState

end VoiceAdmin.Service
