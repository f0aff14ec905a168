import VoiceAdmin.Number.Binary

namespace VoiceAdmin.Frequency

/-- A frequency as six decimal digits, three before the point and three after it. The digits are the only
state: the text `DDD.DDD` and the value are made from them. -/
structure Mask where
  /-- The most significant digit first. -/
  digits : Vector (Fin 10) 6
deriving DecidableEq

namespace Mask

/-- `000.000` -/
def zero : Mask := ⟨Vector.replicate 6 0⟩

instance : Inhabited Mask := ⟨zero⟩

/-- The last six decimal digits of a number of thousandths. -/
def ofMilli (milli : Nat) : Mask where
  digits := Vector.ofFn fun slot => Fin.ofNat 10 (milli / Nat.pow 10 (5 - slot.val))

/-- A float in thousandths, a half rounded up; the fraction of a finite positive value only counts to
the third place. -/
def thousandths (value : Float) : Nat :=
  match Number.Binary.ofBits (value * 1000.0).toBits with
  | some magnitude =>
    let (num, den) := magnitude.quotient 1
    Number.roundHalfUp num den
  | none => 999999

/-- The nearest mask. What is not a finite positive value gives `000.000`, what is too large `999.999`. -/
def ofValue (value : Float) : Mask :=
  if value.isFinite && 0.0 < value then ofMilli (min (thousandths value) 999999) else zero

def digitChar (digit : Fin 10) : Char :=
  Char.ofNat (48 + digit.val)

/-- Seven characters, `DDD.DDD`. -/
def text (mask : Mask) : String :=
  let chars := mask.digits.toList.map digitChar
  String.ofList (chars.take 3 ++ '.' :: chars.drop 3)

def milli (mask : Mask) : Nat :=
  mask.digits.toList.foldl (fun n digit => n * 10 + digit.val) 0

def value (mask : Mask) : Float :=
  Float.ofNat mask.milli / 1000.0

def setDigit (mask : Mask) (slot : Fin 6) (digit : Fin 10) : Mask where
  digits := mask.digits.set slot.val digit slot.isLt

def clearDigit (mask : Mask) (slot : Fin 6) : Mask :=
  mask.setDigit slot 0

end Mask

/-- A stored frequency in mask form, `251.5` as `251.500`. -/
def format (value : Float) : String :=
  (Mask.ofValue value).text

end VoiceAdmin.Frequency
