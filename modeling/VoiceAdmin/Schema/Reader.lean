import VoiceAdmin.Schema.Fault

namespace VoiceAdmin.Schema

abbrev Reader (α : Type) := Json → Except Fault α

def text : Reader String
  | .text s => .ok s
  | value => .error (.wrongType (found value) .text)

def boolean : Reader Bool
  | .bool b => .ok b
  | value => .error (.wrongType (found value) .boolean)

def port : Reader UInt16
  | .integer n =>
    if 0 ≤ n ∧ n < 65536 then .ok (UInt16.ofNat n.toNat) else .error (.outOfRange n .port)
  | value => .error (.wrongType (found value) .port)

def number : Reader Float
  | .float x => .ok x
  | .integer n => .ok (Float.ofInt n)
  | value => .error (.wrongType (found value) .number)

/-- Every item of an array, in order. -/
def list (item : Reader α) : Reader (List α)
  | .array items => items.mapM item
  | value => .error (.wrongType (found value) .sequence)

/-- Every field of an object with its key, by ascending key. -/
def entries (value : Reader α) : Reader (List (String × α))
  | .object fields => fields.mapM fun (key, field) => do return (key, ← value field)
  | other => .error (.wrongType (found other) .map)

/-- The fields of a record, in declaration order, with how to make one from them. -/
structure Fields (α : Type) where
  count : Nat
  /-- The faulty fields of an object with their keys. -/
  faults : List (String × Json) → List (String × Fault)
  fromObject : List (String × Json) → Except Fault α
  /-- Reads from the front of an array and leaves the rest; nothing where the array is too short. -/
  fromArray : List Json → Except Fault (Option (α × List Json))

namespace Fields

def start (make : α) : Fields α where
  count := 0
  faults _ := []
  fromObject _ := .ok make
  fromArray items := .ok (some (make, items))

def field (before : Fields (α → β)) (key : String) (value : Reader α) : Fields β where
  count := before.count + 1
  faults object := before.faults object ++
    match (object.lookup key).map value with
    | some (.error fault) => [(key, fault)]
    | _ => []
  fromObject object := do
    let make ← before.fromObject object
    match object.lookup key with
    | some field => return make (← value field)
    | none => .error (.missing key)
  fromArray items := do
    match ← before.fromArray items with
    | some (make, item :: rest) => return some (make (← value item), rest)
    | _ => return none

/-- The fault at the least key. -/
def firstFault (faults : List (String × Fault)) : Option Fault :=
  (faults.foldl (fun least fault =>
    match least with
    | none => some fault
    | some earlier => if fault.1 < earlier.1 then some fault else some earlier) none).map Prod.snd

def readObject (fields : Fields α) (object : List (String × Json)) : Except Fault α :=
  match firstFault (fields.faults object) with
  | some fault => .error fault
  | none => fields.fromObject object

end Fields

/-- A record is written as an object, whose other fields are passed over, or as an array of exactly its
fields in declaration order. The fields of an object are read by ascending key and the first fault met is
reported; only then does a field that is not there count. -/
def record (name : String) (fields : Fields α) : Reader α
  | .object object => fields.readObject object
  | .array items => do
    match ← fields.fromArray items with
    | none => .error (.tooShort items.length name fields.count)
    | some (value, []) => .ok value
    | some (_, _ :: _) => .error (.tooLong items.length)
  | value => .error (.wrongType (found value) (.record name))

/-- One variant of a choice. -/
inductive Variant (α : Type) where
  | bare (value : α)
  | content (read : Reader α)
  | fields (parts : Fields α)

/-- Reads what stands beside a variant's name, if anything does. -/
def Variant.read : Variant α → Option Json → Except Fault α
  | .bare value, none => .ok value
  | .bare value, some .null => .ok value
  | .bare _, some other => .error (.wrongType (found other) .nothing)
  | .content _, none => .error (.bareVariant .content)
  | .content read, some value => read value
  | .fields _, none => .error (.bareVariant .namedFields)
  | .fields parts, some (.object object) => parts.readObject object
  | .fields _, some other => .error (.wrongType (found other) .namedFields)

/-- A choice is written as the name of a variant, or as an object with that name as its only key. -/
def choice (variants : List (String × Variant α)) : Reader α
  | .text name => pick name none
  | .object [(name, content)] => pick name (some content)
  | .object _ => .error .notOneKey
  | value => .error (.wrongType (found value) .variant)
where
  pick (name : String) (content : Option Json) : Except Fault α :=
    match variants.lookup name with
    | some variant => variant.read content
    | none => .error (.unknownVariant name (variants.map Prod.fst))

end VoiceAdmin.Schema
