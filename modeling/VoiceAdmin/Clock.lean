namespace VoiceAdmin

/-- Why a task breaks off in the middle of its work. -/
inductive Panic where
  /-- An instant was asked for that the clock cannot tell. -/
  | overflow
deriving DecidableEq, Repr, Inhabited

/-- The last instant that the clock can tell, in milliseconds. It counts the seconds in 63 bits. -/
def lastInstant : Nat := 0x7FFFFFFFFFFFFFFF * 1000 + 999

/-- The instant that lies some time after another. -/
def later (instant duration : Nat) : Except Panic Nat :=
  if instant + duration ≤ lastInstant then .ok (instant + duration) else .error .overflow

end VoiceAdmin
