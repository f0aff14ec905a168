import VoiceAdmin.Schema.Reader

namespace VoiceAdmin

inductive Level where
  | info
  | success
  | warning
  | error
deriving DecidableEq, Repr, Inhabited

namespace Level

def all : List Level := [.info, .success, .warning, .error]

def name : Level → String
  | .info => "info"
  | .success => "success"
  | .warning => "warning"
  | .error => "error"

/-- The level as a reader is shown it. -/
def label : Level → String
  | .info => "Info"
  | .success => "Success"
  | .warning => "Warning"
  | .error => "Error"

def read : Schema.Reader Level :=
  Schema.choice (all.map fun level => (level.name, .bare level))

end Level

structure Notification where
  id : String
  title : String
  message : String
  level : Level
deriving DecidableEq, Repr, Inhabited

namespace Notification

def toJson (n : Notification) : Json :=
  .object [("id", .text n.id), ("level", .text n.level.name), ("message", .text n.message),
    ("title", .text n.title)]

def read : Schema.Reader Notification :=
  Schema.record "Notification" <|
    (Schema.Fields.start Notification.mk).field "id" Schema.text |>.field "title" Schema.text
      |>.field "message" Schema.text |>.field "level" Level.read

end Notification

/-- An alert that has no id yet. A notice becomes a notification when it is given an id; the id stands for
one alert, however often it arrives. -/
structure Notice where
  title : String
  message : String
  level : Level
deriving DecidableEq, Repr, Inhabited

namespace Notice

def withId (n : Notice) (id : String) : Notification := ⟨id, n.title, n.message, n.level⟩

end Notice

end VoiceAdmin
