import VoiceAdmin.Schema.Reader

namespace VoiceAdmin

structure Endpoint where
  host : String
  port : UInt16
deriving DecidableEq, Repr, Inhabited

namespace Endpoint

def toJson (e : Endpoint) : Json :=
  .object [("host", .text e.host), ("port", .integer e.port.toNat)]

def read : Schema.Reader Endpoint :=
  Schema.record "ServerSetting" <|
    (Schema.Fields.start Endpoint.mk).field "host" Schema.text |>.field "port" Schema.port

end Endpoint

structure Endpoints where
  http : Endpoint := ⟨"0.0.0.0", 8080⟩
  voice : Endpoint := ⟨"0.0.0.0", 5002⟩
  control : Endpoint := ⟨"0.0.0.0", 5003⟩
deriving DecidableEq, Repr, Inhabited

namespace Endpoints

def toJson (e : Endpoints) : Json :=
  .object [("control", e.control.toJson), ("http", e.http.toJson), ("voice", e.voice.toJson)]

def read : Schema.Reader Endpoints :=
  Schema.record "ServerSettings" <|
    (Schema.Fields.start Endpoints.mk).field "http" Endpoint.read |>.field "voice" Endpoint.read
      |>.field "control" Endpoint.read

end Endpoints

/-- The two lists that a frequency can be on. -/
inductive Band where
  | global
  | test
deriving DecidableEq, Repr, Inhabited

namespace Band

def name : Band → String
  | .global => "global"
  | .test => "test"

def read : Schema.Reader Band :=
  Schema.choice [("global", .bare .global), ("test", .bare .test)]

end Band

structure Frequencies where
  global : List Float := []
  test : List Float := []
deriving BEq, Inhabited

namespace Frequencies

def list (f : Frequencies) : Band → List Float
  | .global => f.global
  | .test => f.test

def setList (f : Frequencies) : Band → List Float → Frequencies
  | .global, values => { f with global := values }
  | .test, values => { f with test := values }

def toJson (f : Frequencies) : Json :=
  .object [("GlobalFrequencies", .array (f.global.map Json.ofFloat)),
    ("TestFrequencies", .array (f.test.map Json.ofFloat))]

def read : Schema.Reader Frequencies :=
  Schema.record "FrequencySettings" <|
    (Schema.Fields.start Frequencies.mk).field "GlobalFrequencies" (Schema.list Schema.number)
      |>.field "TestFrequencies" (Schema.list Schema.number)

end Frequencies

/-- What a voice server is configured with: where its services listen, and its radio frequencies. -/
structure Settings where
  servers : Endpoints := {}
  frequencies : Frequencies := {}
deriving BEq, Inhabited

namespace Settings

def toJson (s : Settings) : Json :=
  .object [("frequencies", s.frequencies.toJson), ("servers", s.servers.toJson)]

def read : Schema.Reader Settings :=
  Schema.record "Settings" <|
    (Schema.Fields.start Settings.mk).field "servers" Endpoints.read
      |>.field "frequencies" Frequencies.read

end Settings

end VoiceAdmin
