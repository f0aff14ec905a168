import VoiceAdmin.Schema.Reader
import VoiceAdmin.Text.Blank

namespace VoiceAdmin

structure Coalition where
  name : String
  description : String
  color : String
  password : String
deriving DecidableEq, Repr, Inhabited

/-- The first field of a coalition that is empty. -/
structure MissingField where
  field : String
deriving DecidableEq, Repr

def MissingField.message (e : MissingField) : String := e.field ++ " is required"

namespace Coalition

def labelled (c : Coalition) : List (String × String) :=
  [("Name", c.name), ("Description", c.description), ("Color", c.color), ("Password", c.password)]

/-- Every field must hold more than white space. -/
def validate (c : Coalition) : Except MissingField Unit :=
  match c.labelled.find? fun field => Text.isBlank field.2 with
  | some (field, _) => .error ⟨field⟩
  | none => .ok ()

def toJson (c : Coalition) : Json :=
  .object [("color", .text c.color), ("description", .text c.description), ("name", .text c.name),
    ("password", .text c.password)]

def fields : Schema.Fields Coalition :=
  (Schema.Fields.start Coalition.mk).field "name" Schema.text |>.field "description" Schema.text
    |>.field "color" Schema.text |>.field "password" Schema.text

def read : Schema.Reader Coalition := Schema.record "Coalition" fields

end Coalition

structure Ban where
  id : String
  name : String
  address : String
  reason : String
deriving DecidableEq, Repr, Inhabited

namespace Ban

def toJson (b : Ban) : Json :=
  .object [("id", .text b.id), ("ip_address", .text b.address), ("name", .text b.name),
    ("reason", .text b.reason)]

def read : Schema.Reader Ban :=
  Schema.record "BannedClient" <|
    (Schema.Fields.start Ban.mk).field "id" Schema.text |>.field "name" Schema.text
      |>.field "ip_address" Schema.text |>.field "reason" Schema.text

end Ban

end VoiceAdmin
