namespace VoiceAdmin.Text

/-- The code points with the White_Space property, as inclusive ranges. -/
def blankRanges : List (Nat × Nat) :=
  [(0x09, 0x0D), (0x20, 0x20), (0x85, 0x85), (0xA0, 0xA0), (0x1680, 0x1680), (0x2000, 0x200A),
   (0x2028, 0x2029), (0x202F, 0x202F), (0x205F, 0x205F), (0x3000, 0x3000)]

def isBlankChar (c : Char) : Bool :=
  blankRanges.any fun (first, last) => first ≤ c.toNat && c.toNat ≤ last

/-- No character but white space. -/
def isBlank (s : String) : Bool :=
  s.toList.all isBlankChar

/-- The text without white space at either end. -/
def trim (s : String) : String :=
  let rest := s.toList.dropWhile isBlankChar
  String.ofList (rest.reverse.dropWhile isBlankChar).reverse

end VoiceAdmin.Text
