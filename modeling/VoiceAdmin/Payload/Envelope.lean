import VoiceAdmin.Domain.Topic

namespace VoiceAdmin

/-- The shapes in which a push arrives: the bare value, the value as the only field `data` of an object,
or the value as the only item of an array. -/
inductive Envelope where
  | raw
  | data
  | array
deriving DecidableEq, Repr, Inhabited

/-- A name that stands for no envelope, in lower case. -/
structure UnknownEnvelope where
  name : String
deriving DecidableEq, Repr

def UnknownEnvelope.message (e : UnknownEnvelope) : String := "unknown envelope style: " ++ e.name

namespace Envelope

def wrap : Envelope → Json → Json
  | .raw, payload => payload
  | .data, payload => .object [("data", payload)]
  | .array, payload => .array [payload]

def name : Envelope → String
  | .raw => "raw"
  | .data => "data"
  | .array => "array"

def label : Envelope → String
  | .raw => "Raw"
  | .data => "Data"
  | .array => "Array"

/-- Reads a name in any case of its ASCII letters. -/
def ofName (text : String) : Except UnknownEnvelope Envelope :=
  let lower := text.map Char.toLower
  match [Envelope.raw, .data, .array].find? fun style => style.name == lower with
  | some style => .ok style
  | none => .error ⟨lower⟩

/-- What a payload of an envelope's shape holds. -/
def content? : Json → Option Json
  | .object [("data", inner)] => some inner
  | .array [inner] => some inner
  | _ => none

end Envelope

/-- A push that has none of the accepted shapes. -/
structure MalformedPayload where
  topic : Topic
  fault : Schema.Fault

def MalformedPayload.message (e : MalformedPayload) : String :=
  "malformed payload on " ++ e.topic.event ++ ": " ++ e.fault.message

/-- The bare value first, then what an envelope holds. Where the payload has an envelope's shape, the
fault of its content is the one that counts. -/
def readPayload (read : Schema.Reader α) (payload : Json) : Except Schema.Fault α :=
  match read payload with
  | .ok value => .ok value
  | .error fault =>
    match Envelope.content? payload with
    | some inner => read inner
    | none => .error fault

def decodePayload (topic : Topic) (read : Schema.Reader α) (payload : Json) :
    Except MalformedPayload α :=
  match readPayload read payload with
  | .ok value => .ok value
  | .error fault => .error ⟨topic, fault⟩

end VoiceAdmin
