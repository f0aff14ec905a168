import VoiceAdmin.Domain.Settings
import VoiceAdmin.Frequency.Editor
import VoiceAdmin.Frequency.Range

namespace VoiceAdmin.Frequency

structure Submission where
  band : Band
  frequency : Float

/-- The form that adds a frequency to a list. -/
structure Form where
  band : Band := .global
  editor : Editor := {}

def Form.submit (form : Form) : Except RangeError Submission := do
  return ⟨form.band, ← validate form.editor.mask.value⟩

/-- A local draft of the two lists until they are saved. -/
structure Draft where
  lists : Frequencies := {}
  isDirty : Bool := false

namespace Draft

def ofFrequencies (lists : Frequencies) : Draft := { lists }

/-- Appends to the list that the submission names, if its value is in range. -/
def add (draft : Draft) (submission : Submission) : Except RangeError Unit × Draft :=
  match validate submission.frequency with
  | .ok frequency =>
    let values := draft.lists.list submission.band ++ [frequency]
    (.ok (), ⟨draft.lists.setList submission.band values, true⟩)
  | .error e => (.error e, draft)

/-- Takes the entry at a position out of a list, if there is one. -/
def remove (draft : Draft) (band : Band) (index : Nat) : Option Float × Draft :=
  let values := draft.lists.list band
  match values[index]? with
  | some frequency => (some frequency, ⟨draft.lists.setList band (values.eraseIdx index), true⟩)
  | none => (none, draft)

end Draft

end VoiceAdmin.Frequency
