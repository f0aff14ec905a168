namespace VoiceAdmin.Number

/-- The magnitude `significand * 2 ^ exponent`. -/
structure Binary where
  significand : Nat
  exponent : Int
deriving DecidableEq, Repr

/-- The leading bit of a significand of full width, which is not stored. -/
def hiddenBit : Nat := 0x10000000000000

namespace Binary

/-- The magnitude with the given bits; the sign bit is not looked at. The bits of infinities and of
values that are not numbers stand for no magnitude. -/
def ofBits (bits : UInt64) : Option Binary :=
  let biased := ((bits >>> 52) &&& 0x7FF).toNat
  let fraction := (bits &&& 0xFFFFFFFFFFFFF).toNat
  if biased = 0x7FF then none
  else if biased = 0 then some ⟨fraction, -1074⟩
  else some ⟨hiddenBit + fraction, (biased : Int) - 1075⟩

/-- The magnitude times `scale`, as a quotient of naturals. -/
def quotient (x : Binary) (scale : Nat) : Nat × Nat :=
  (x.significand * scale * Nat.pow 2 x.exponent.toNat, Nat.pow 2 (-x.exponent).toNat)

end Binary

/-- The nearest natural number to a quotient; a half goes up. -/
def roundHalfUp (num den : Nat) : Nat :=
  (2 * num + den) / (2 * den)

/-- The nearest natural number to a quotient; a half goes to the even neighbour. -/
def roundHalfEven (num den : Nat) : Nat :=
  let floor := num / den
  let twice := 2 * (num % den)
  if twice < den then floor
  else if den < twice then floor + 1
  else if floor % 2 = 0 then floor else floor + 1

def isNegative (x : Float) : Bool :=
  x.toBits >>> 63 == 1

end VoiceAdmin.Number
