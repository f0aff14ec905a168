import VoiceAdmin.Text.Escaped

namespace VoiceAdmin.Text

def hexadecimal (n : Nat) : String :=
  String.ofList (Nat.toDigits 16 n)

def quotedChar (c : Char) : String :=
  match c with
  | '"' => "\\\""
  | '\\' => "\\\\"
  | '\t' => "\\t"
  | '\r' => "\\r"
  | '\n' => "\\n"
  | '\x00' => "\\0"
  | c => if isEscapedChar c then "\\u\x7b" ++ hexadecimal c.toNat ++ "\x7d" else c.toString

/-- Text between double quotes, so that every character can be seen: quotes and backslashes take a
backslash, tab, carriage return, line feed and the null character have short forms, and the other
characters that cannot be seen alone are written by their code points. -/
def quoted (s : String) : String :=
  "\"" ++ String.join (s.toList.map quotedChar) ++ "\""

end VoiceAdmin.Text
