namespace VoiceAdmin.Text

/-- `n` in decimal with leading zeros up to `width` digits. -/
def padded (width n : Nat) : String :=
  let digits := toString n
  "".pushn '0' (width - digits.length) ++ digits

/-- A fraction of a second in thousandths, without trailing zeros. -/
def thousandths (n : Nat) : String :=
  if n % 1000 = 0 then "" else
    let digits := (padded 3 (n % 1000)).toList.reverse.dropWhile (· == '0')
    "." ++ String.ofList digits.reverse

/-- A number of milliseconds: `0ns`, `7ms`, `2.5s`, `1000s`. -/
def duration (ms : Nat) : String :=
  if ms = 0 then "0ns"
  else if ms < 1000 then toString ms ++ "ms"
  else toString (ms / 1000) ++ thousandths ms ++ "s"

end VoiceAdmin.Text
