namespace VoiceAdmin

/-- The values that payloads are made of. An object lists its fields by ascending key, each key once. -/
inductive Json where
  | null
  | bool (value : Bool)
  /-- A number written without a point or an exponent that fits 64 bits. -/
  | integer (value : Int)
  | float (value : Float)
  | text (value : String)
  | array (items : List Json)
  | object (fields : List (String × Json))
deriving Inhabited

namespace Json

/-- Adds a field at the place of its key; a field with that key gives way. -/
def insertField (key : String) (value : Json) : List (String × Json) → List (String × Json)
  | [] => [(key, value)]
  | (k, v) :: rest =>
    if key < k then (key, value) :: (k, v) :: rest
    else if key = k then (key, value) :: rest
    else (k, v) :: insertField key value rest

/-- The object with the given fields, in any order; of two with one key the later one stays. -/
def ofFields (fields : List (String × Json)) : Json :=
  .object (fields.foldl (fun sorted (key, value) => insertField key value sorted) [])

/-- A floating-point number, where there is one to write; otherwise nothing. -/
def ofFloat (x : Float) : Json :=
  if x.isFinite then .float x else .null

end Json

end VoiceAdmin
