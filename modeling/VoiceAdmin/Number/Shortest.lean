import VoiceAdmin.Number.Binary

namespace VoiceAdmin.Number

/-- The number `digits / 10 ^ places`. -/
structure Decimal where
  digits : Nat
  places : Int
deriving DecidableEq, Repr

namespace Decimal

/-- Compares with `bound * 2 ^ exponent`. -/
def compareBinary (d : Decimal) (bound : Nat) (exponent : Int) : Ordering :=
  compare (d.digits * Nat.pow 10 (-d.places).toNat * Nat.pow 2 (-exponent).toNat)
    (bound * Nat.pow 10 d.places.toNat * Nat.pow 2 exponent.toNat)

/-- The gap below a power of two is half the gap above it, except at the bottom of the range. -/
def narrowBelow (x : Binary) : Bool :=
  x.significand = hiddenBit && -1074 < x.exponent

/-- A decimal reads back as a number when it lies between the midpoints to the number's two neighbours;
the midpoints count when the significand is even. -/
def readsBack (d : Decimal) (x : Binary) : Bool :=
  let low := 4 * x.significand - (if narrowBelow x then 1 else 2)
  let high := 4 * x.significand + 2
  let ends := x.significand % 2 = 0
  let aboveLow := d.compareBinary low (x.exponent - 2)
  let belowHigh := d.compareBinary high (x.exponent - 2)
  (aboveLow == .gt || (ends && aboveLow == .eq)) && (belowHigh == .lt || (ends && belowHigh == .eq))

/-- The number of digits before the point; zero or negative where the first digit comes after it. -/
def wholeDigits (num den : Nat) : Int :=
  if den ≤ num then (toString (num / den)).length
  else
    match (List.range 400).find? (fun shift => den ≤ num * Nat.pow 10 shift) with
    | some shift => 1 - shift
    | none => 0

/-- The grid points around a number, of which those that read back are kept. -/
def onGrid (x : Binary) (places : Int) : Option Decimal :=
  let (num, den) := x.quotient 1
  let scaled := num * Nat.pow 10 places.toNat
  let unit := den * Nat.pow 10 (-places).toNat
  let below : Decimal := ⟨scaled / unit, places⟩
  let above : Decimal := ⟨scaled / unit + 1, places⟩
  match below.readsBack x, above.readsBack x with
  | true, true => some ⟨roundHalfEven scaled unit, places⟩
  | true, false => some below
  | false, true => some above
  | false, false => none

/-- The shortest decimal that reads back as a positive number; of two, the nearer one. The search takes
ever finer decimal grids and tries the two grid points around the number. -/
def shortest (x : Binary) : Decimal :=
  let (num, den) := x.quotient 1
  let whole := wholeDigits num den
  match (List.range 17).findSome? (fun (n : Nat) => onGrid x (n + 1 - whole)) with
  | some d => d
  | none => ⟨num * Nat.pow 5 (-x.exponent).toNat, (-x.exponent).toNat⟩

/-- The digits without trailing zeros. -/
def significant (d : Decimal) : List Char :=
  ((toString d.digits).toList.reverse.dropWhile (· == '0')).reverse

/-- The power of ten of the first digit. -/
def magnitude (d : Decimal) : Int :=
  (toString d.digits).length - 1 - d.places

def exponentText (e : Int) : String :=
  (if e < 0 then "e-" else "e+") ++ toString e.natAbs

/-- Written out when the first digit stands for a power of ten from `-5` to `15`, else with an exponent. -/
def layout (d : Decimal) : String :=
  let digits := d.significant
  let e := d.magnitude
  if 0 ≤ e && e ≤ 15 then
    let whole := digits.take (e.toNat + 1)
    let fraction := digits.drop (e.toNat + 1)
    String.ofList (whole ++ List.replicate (e.toNat + 1 - digits.length) '0') ++ "." ++
      (if fraction.isEmpty then "0" else String.ofList fraction)
  else if -5 ≤ e && e < 0 then
    "0." ++ String.ofList (List.replicate (e.natAbs - 1) '0' ++ digits)
  else
    match digits with
    | [] => "0.0"
    | [c] => c.toString ++ exponentText e
    | c :: rest => c.toString ++ "." ++ String.ofList rest ++ exponentText e

end Decimal

/-- The shortest text that reads back as the number. -/
def shortestText (x : Float) : String :=
  let sign := if isNegative x then "-" else ""
  match Binary.ofBits x.toBits with
  | none => if x.isNaN then "NaN" else sign ++ "inf"
  | some ⟨0, _⟩ => sign ++ "0.0"
  | some magnitude => sign ++ (Decimal.shortest magnitude).layout

end VoiceAdmin.Number
