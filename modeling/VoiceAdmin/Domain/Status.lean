import VoiceAdmin.Schema.Reader

namespace VoiceAdmin

structure Component where
  isRunning : Bool := false
  error : String := ""
deriving DecidableEq, Repr, Inhabited

namespace Component

def running : Component := { isRunning := true }

def stopped : Component := {}

def failed (error : String) : Component := { error }

def toJson (s : Component) : Json :=
  .object [("Error", .text s.error), ("IsRunning", .bool s.isRunning)]

def read : Schema.Reader Component :=
  Schema.record "ServiceStatus" <|
    (Schema.Fields.start Component.mk).field "IsRunning" Schema.boolean |>.field "Error" Schema.text

end Component

/-- The run state of the three components that make up a voice server. -/
structure Status where
  http : Component := {}
  voice : Component := {}
  control : Component := {}
deriving DecidableEq, Repr, Inhabited

namespace Status

def anyRunning (s : Status) : Bool :=
  s.http.isRunning || s.voice.isRunning || s.control.isRunning

def components (s : Status) : List (String × Component) :=
  [("http", s.http), ("voice", s.voice), ("control", s.control)]

/-- The components that report an error, with what they report. -/
def errors (s : Status) : List (String × String) :=
  (s.components.filter fun component => !component.2.error.isEmpty).map fun (name, service) =>
    (name, service.error)

/-- All three components in one state. -/
def all (component : Component) : Status := ⟨component, component, component⟩

def toJson (s : Status) : Json :=
  .object [("control", s.control.toJson), ("http", s.http.toJson), ("voice", s.voice.toJson)]

def read : Schema.Reader Status :=
  Schema.record "ServerStatus" <|
    (Schema.Fields.start Status.mk).field "http" Component.read |>.field "voice" Component.read
      |>.field "control" Component.read

end Status

end VoiceAdmin
