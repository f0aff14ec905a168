import VoiceAdmin.Domain.Coalition
import VoiceAdmin.Domain.Roster
import VoiceAdmin.Domain.Settings
import VoiceAdmin.Domain.Status
import VoiceAdmin.Domain.Topic

namespace VoiceAdmin

/-- The five domains that are kept in step. A snapshot of a domain is always a whole value. -/
inductive Domain where
  | status
  | settings
  | roster
  | coalitions
  | bans
deriving DecidableEq, Repr, Inhabited

namespace Domain

def all : List Domain := [.status, .settings, .roster, .coalitions, .bans]

abbrev Value : Domain → Type
  | .status => Status
  | .settings => Settings
  | .roster => Roster
  | .coalitions => List Coalition
  | .bans => List Ban

instance (d : Domain) : BEq d.Value :=
  match d with
  | .status => inferInstanceAs (BEq Status)
  | .settings => inferInstanceAs (BEq Settings)
  | .roster => inferInstanceAs (BEq Roster)
  | .coalitions => inferInstanceAs (BEq (List Coalition))
  | .bans => inferInstanceAs (BEq (List Ban))

def name : Domain → String
  | .status => "status"
  | .settings => "settings"
  | .roster => "roster"
  | .coalitions => "coalitions"
  | .bans => "bans"

/-- The topic that carries pushes of the domain. -/
def topic : Domain → Topic
  | .status => .status
  | .settings => .settings
  | .roster => .roster
  | .coalitions => .coalitions
  | .bans => .bans

def read : (d : Domain) → Schema.Reader d.Value
  | .status => Status.read
  | .settings => Settings.read
  | .roster => Roster.read
  | .coalitions => Schema.list Coalition.read
  | .bans => Schema.list Ban.read

def toJson : (d : Domain) → d.Value → Json
  | .status, value => Status.toJson value
  | .settings, value => Settings.toJson value
  | .roster, value => Roster.toJson value
  | .coalitions, value => .array (List.map Coalition.toJson value)
  | .bans, value => .array (List.map Ban.toJson value)

end Domain

end VoiceAdmin
