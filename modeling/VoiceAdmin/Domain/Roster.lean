import VoiceAdmin.Keyed
import VoiceAdmin.Schema.Reader

namespace VoiceAdmin

structure Client where
  name : String
  unit : String
  coalition : String
  muted : Bool
deriving DecidableEq, Repr, Inhabited

namespace Client

def toJson (c : Client) : Json :=
  .object [("Coalition", .text c.coalition), ("Muted", .bool c.muted), ("Name", .text c.name),
    ("UnitId", .text c.unit)]

def read : Schema.Reader Client :=
  Schema.record "ClientState" <|
    (Schema.Fields.start Client.mk).field "Name" Schema.text |>.field "UnitId" Schema.text
      |>.field "Coalition" Schema.text |>.field "Muted" Schema.boolean

end Client

/-- The connected voice clients by id, as they are shown. -/
abbrev Roster := Keyed Client

namespace Roster

def toJson (r : Roster) : Json :=
  .object (r.entries.map fun (id, client) => (id, client.toJson))

def read : Schema.Reader Roster :=
  fun payload => do return .ofEntries (← Schema.entries Client.read payload)

end Roster

end VoiceAdmin
