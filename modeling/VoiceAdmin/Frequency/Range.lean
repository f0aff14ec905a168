import VoiceAdmin.Number.Places

namespace VoiceAdmin.Frequency

def least : Float := 0.001

def greatest : Float := 999.999

inductive RangeError where
  | belowMinimum (value : Float)
  | aboveMaximum (value : Float)
  | notANumber

def RangeError.message : RangeError → String
  | .belowMinimum value => "Minimum is 000.001 (got " ++ Number.threePlaces value ++ ")"
  | .aboveMaximum value => "Maximum is 999.999 (got " ++ Number.threePlaces value ++ ")"
  | .notANumber => "Frequency must be a number"

/-- The frequencies that may be stored are those from 0.001 to 999.999. -/
def validate (value : Float) : Except RangeError Float :=
  if value.isNaN then .error .notANumber
  else if value < least then .error (.belowMinimum value)
  else if greatest < value then .error (.aboveMaximum value)
  else .ok value

end VoiceAdmin.Frequency
