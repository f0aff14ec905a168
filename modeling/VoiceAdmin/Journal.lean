namespace VoiceAdmin

inductive Severity where
  | error
  | warning
  | info
deriving DecidableEq, Repr, Inhabited

namespace Severity

def label : Severity → String
  | .error => "ERROR"
  | .warning => "WARN"
  | .info => "INFO"

/-- Errors come first. -/
def rank : Severity → Nat
  | .error => 0
  | .warning => 1
  | .info => 2

/-- The severity with the given name, in any case of its ASCII letters. -/
def ofName (name : String) : Option Severity :=
  match name.map Char.toLower with
  | "error" => some .error
  | "warn" => some .warning
  | "info" => some .info
  | _ => none

end Severity

/-- A line written for the operator while the program runs. -/
structure Line where
  severity : Severity
  text : String
deriving DecidableEq, Repr, Inhabited

namespace Line

def info (text : String) : Line := ⟨.info, text⟩

def warning (text : String) : Line := ⟨.warning, text⟩

def error (text : String) : Line := ⟨.error, text⟩

end Line

/-- Whether a line is written where lines of this severity and worse are wanted. -/
def Severity.admits (wanted : Severity) (line : Line) : Bool :=
  line.severity.rank ≤ wanted.rank

end VoiceAdmin
