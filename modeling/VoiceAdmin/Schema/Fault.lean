import VoiceAdmin.Json
import VoiceAdmin.Number.Shortest
import VoiceAdmin.Text.Quoted

namespace VoiceAdmin.Schema

/-- What a value was found to be. -/
inductive Found where
  | null
  | bool (value : Bool)
  | integer (value : Int)
  | float (value : Float)
  | text (value : String)
  | sequence
  | map

/-- What a value should have been. -/
inductive Expected where
  | text
  | boolean
  | port
  | number
  | sequence
  | map
  | record (name : String)
  | variant
  | nothing
  | namedFields
  | content
deriving DecidableEq, Repr

/-- What can be wrong with a value that should have a given shape. -/
inductive Fault where
  | wrongType (found : Found) (expected : Expected)
  | outOfRange (value : Int) (expected : Expected)
  /-- A choice written as an object names exactly one variant. -/
  | notOneKey
  | missing (field : String)
  | tooShort (present : Nat) (record : String) (fields : Nat)
  | tooLong (present : Nat)
  | unknownVariant (name : String) (known : List String)
  /-- A variant that carries something was given by its name alone. -/
  | bareVariant (expected : Expected)

def found : Json → Found
  | .null => .null
  | .bool b => .bool b
  | .integer n => .integer n
  | .float x => .float x
  | .text s => .text s
  | .array _ => .sequence
  | .object _ => .map

namespace Found

def describe : Found → String
  | .null => "null"
  | .bool b => "boolean `" ++ toString b ++ "`"
  | .integer n => "integer `" ++ toString n ++ "`"
  | .float x => "floating point `" ++ Number.shortestText x ++ "`"
  | .text s => "string " ++ Text.quoted s
  | .sequence => "sequence"
  | .map => "map"

end Found

namespace Expected

def describe : Expected → String
  | .text => "a string"
  | .boolean => "a boolean"
  | .port => "u16"
  | .number => "f64"
  | .sequence => "a sequence"
  | .map => "a map"
  | .record name => "struct " ++ name
  | .variant => "string or map"
  | .nothing => "unit"
  | .namedFields => "struct variant"
  | .content => "newtype variant"

end Expected

/-- The known variants: two joined by "or", more as a list. -/
def choices (known : List String) : String :=
  let ticked := known.map fun name => "`" ++ name ++ "`"
  match ticked with
  | [a, b] => a ++ " or " ++ b
  | names => "one of " ++ ", ".intercalate names

namespace Fault

def message : Fault → String
  | .wrongType found expected =>
    "invalid type: " ++ found.describe ++ ", expected " ++ expected.describe
  | .outOfRange value expected =>
    "invalid value: integer `" ++ toString value ++ "`, expected " ++ expected.describe
  | .notOneKey => "invalid value: map, expected map with a single key"
  | .missing field => "missing field `" ++ field ++ "`"
  | .tooShort present record fields =>
    "invalid length " ++ toString present ++ ", expected struct " ++ record ++ " with " ++
      toString fields ++ " elements"
  | .tooLong present =>
    "invalid length " ++ toString present ++ ", expected fewer elements in array"
  | .unknownVariant name known =>
    "unknown variant `" ++ name ++ "`, expected " ++ choices known
  | .bareVariant expected =>
    "invalid type: unit variant, expected " ++ expected.describe

end Fault

end VoiceAdmin.Schema
