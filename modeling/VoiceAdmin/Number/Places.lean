import VoiceAdmin.Number.Binary
import VoiceAdmin.Text.Duration

namespace VoiceAdmin.Number

/-- Thousandths as text, `7` being `0.007`. -/
def thousandthsText (n : Nat) : String :=
  toString (n / 1000) ++ "." ++ Text.padded 3 (n % 1000)

/-- Three places, a half of the last one going to the even neighbour. A negative number keeps its sign
even where no digit is left of it. -/
def threePlaces (x : Float) : String :=
  let sign := if isNegative x then "-" else ""
  match Binary.ofBits x.toBits with
  | some magnitude =>
    let (num, den) := magnitude.quotient 1000
    sign ++ thousandthsText (roundHalfEven num den)
  | none => if x.isNaN then "NaN" else sign ++ "inf"

end VoiceAdmin.Number
