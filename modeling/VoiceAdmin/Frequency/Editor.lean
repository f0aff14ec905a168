import VoiceAdmin.Frequency.Mask

namespace VoiceAdmin.Frequency

inductive Key where
  | digit (value : Nat)
  | backspace
  | left
  | right
  | other
deriving DecidableEq, Repr

/-- The key that types a character. -/
def Key.ofChar (c : Char) : Key :=
  if c.isDigit then .digit (c.toNat - 48) else .other

/-- The digit at a cursor position, where there is one. -/
def slot? (position : Nat) : Option (Fin 6) :=
  if h : position < 3 then some ⟨position, by omega⟩
  else if h : 4 ≤ position ∧ position ≤ 6 then some ⟨position - 1, by omega⟩
  else none

def restLeft (position : Nat) : Nat :=
  if position = 3 then 2 else position

def restRight (position : Nat) : Nat :=
  if position = 3 then 4 else min position 7

/-- Overtyping a mask. Cursor positions count the characters of `DDD.DDD`, from 0 before the first digit
to 7 after the last. Position 3, before the point, is passed over. -/
structure Editor where
  mask : Mask := .zero
  cursor : Nat := 0
deriving DecidableEq

namespace Editor

def ofValue (value : Float) : Editor := { mask := Mask.ofValue value }

/-- A digit takes the place of the one under the cursor and moves on. Backspace zeroes the digit left
of the cursor and moves back; right after the point it zeroes the digit under the cursor and moves back
over the point. A key that does not apply where the cursor is changes nothing. -/
def press (e : Editor) : Key → Editor
  | .digit d =>
    if h : d < 10 then
      match slot? e.cursor with
      | some slot => ⟨e.mask.setDigit slot ⟨d, h⟩, restRight (e.cursor + 1)⟩
      | none => e
    else e
  | .backspace =>
    match e.cursor with
    | 0 => e
    | 4 => ⟨e.mask.clearDigit 3, 2⟩
    | before + 1 =>
      match slot? before with
      | some slot => ⟨e.mask.clearDigit slot, restLeft before⟩
      | none => e
  | .left => if 0 < e.cursor then ⟨e.mask, restLeft (min (e.cursor - 1) 7)⟩ else e
  | .right => if e.cursor < 7 then ⟨e.mask, restRight (e.cursor + 1)⟩ else e
  | .other => e

/-- Whether a key changes a digit. -/
def changes (e : Editor) (key : Key) : Bool :=
  (e.press key).mask != e.mask

/-- Every character of a text, typed in order. -/
def type (e : Editor) (text : String) : Editor :=
  text.toList.foldl (fun e c => e.press (.ofChar c)) e

/-- A click: the nearest resting position to the right. -/
def place (e : Editor) (position : Nat) : Editor :=
  { e with cursor := restRight position }

end Editor

end VoiceAdmin.Frequency
