import VoiceAdmin.Schema.Reader

namespace VoiceAdmin

/-- The topics that pushes are published on: one for each domain, and one for notifications. -/
inductive Topic where
  | status
  | settings
  | roster
  | coalitions
  | bans
  | notification
deriving DecidableEq, Repr, Inhabited

namespace Topic

def all : List Topic := [.status, .settings, .roster, .coalitions, .bans, .notification]

/-- The place of a topic among all topics. -/
def rank : Topic → Nat
  | .status => 0
  | .settings => 1
  | .roster => 2
  | .coalitions => 3
  | .bans => 4
  | .notification => 5

/-- The event name that pushes on the topic carry. -/
def event : Topic → String
  | .status => "admin/changed"
  | .settings => "settings/changed"
  | .roster => "clients/changed"
  | .coalitions => "settings/coalitions/changed"
  | .bans => "clients/banned/changed"
  | .notification => "notification"

def label : Topic → String
  | .status => "Status"
  | .settings => "Settings"
  | .roster => "Roster"
  | .coalitions => "Coalitions"
  | .bans => "Bans"
  | .notification => "Notification"

def read : Schema.Reader Topic :=
  Schema.choice (all.map fun topic => (topic.label, .bare topic))

end Topic

end VoiceAdmin
