import VoiceAdmin.Frequency.Editor
import VoiceAdmin.Proofs.Frequency.Text

namespace VoiceAdmin.Frequency

/-- A position of the cursor, from before the first character to after the last, but not right before the
point. Cursor positions count characters and slots count digits; the two agree as long as the cursor
rests. -/
def Rests (position : Nat) : Prop := position ≤ 7 ∧ position ≠ 3

/-- The nearest resting position to the right. -/
def NextRest (position next : Nat) : Prop :=
  position < next ∧ Rests next ∧ ∀ other, position < other → Rests other → next ≤ other

theorem restRight_rests (position : Nat) : Rests (restRight position) := by
  unfold restRight Rests
  split <;> omega

theorem restLeft_rests {position : Nat} (h : position ≤ 7) : Rests (restLeft position) := by
  unfold restLeft Rests
  split <;> omega

theorem restRight_next {position : Nat} (h : position < 7) :
    NextRest position (restRight (position + 1)) := by
  refine ⟨?_, restRight_rests _, fun other hlt hrests => ?_⟩
  · unfold restRight
    split <;> omega
  · unfold restRight
    unfold Rests at hrests
    split <;> omega

/-- A position is that of a slot exactly if the digit's character stands there. -/
theorem slot?_eq_some {position : Nat} {slot : Fin 6} :
    slot? position = some slot ↔ Mask.column slot = position := by
  obtain ⟨slot, hslot⟩ := slot
  unfold slot? Mask.column
  split
  · simp only [Option.some.injEq, Fin.mk.injEq]
    split <;> omega
  · split
    · simp only [Option.some.injEq, Fin.mk.injEq]
      split <;> omega
    · simp only [reduceCtorEq, false_iff]
      split <;> omega

theorem Rests.slot? {position : Nat} (h : Rests position) (hlt : position < 7) :
    ∃ slot, slot? position = some slot := by
  obtain ⟨-, hpoint⟩ := h
  unfold VoiceAdmin.Frequency.slot?
  split
  · exact ⟨_, rfl⟩
  · rw [dif_pos (by omega)]
    exact ⟨_, rfl⟩

namespace Editor

variable {e : Editor}

theorem press_rests (h : Rests e.cursor) (key : Key) : Rests (e.press key).cursor := by
  obtain ⟨hend, hpoint⟩ := h
  cases key with
  | digit d =>
    simp only [press]
    split
    · split
      · exact restRight_rests _
      · exact ⟨hend, hpoint⟩
    · exact ⟨hend, hpoint⟩
  | backspace =>
    simp only [press]
    split
    · exact ⟨hend, hpoint⟩
    · exact ⟨(by decide : 2 ≤ 7), (by decide : 2 ≠ 3)⟩
    · rename_i before hbefore
      split
      · exact restLeft_rests (by omega)
      · exact ⟨hend, hpoint⟩
  | left =>
    simp only [press]
    split
    · exact restLeft_rests (Nat.min_le_right _ _)
    · exact ⟨hend, hpoint⟩
  | right =>
    simp only [press]
    split
    · exact restRight_rests _
    · exact ⟨hend, hpoint⟩
  | other => exact ⟨hend, hpoint⟩

/-- A key sets one digit at most. -/
theorem press_mask (e : Editor) (key : Key) :
    (e.press key).mask = e.mask ∨ ∃ slot digit, (e.press key).mask = e.mask.setDigit slot digit := by
  cases key with
  | digit d =>
    simp only [press]
    split
    · split
      · exact .inr ⟨_, _, rfl⟩
      · exact .inl rfl
    · exact .inl rfl
  | backspace =>
    simp only [press]
    split
    · exact .inl rfl
    · exact .inr ⟨3, 0, rfl⟩
    · split
      · exact .inr ⟨_, 0, rfl⟩
      · exact .inl rfl
  | left =>
    simp only [press]
    split <;> exact .inl rfl
  | right =>
    simp only [press]
    split <;> exact .inl rfl
  | other => exact .inl rfl

theorem press_digit {d : Nat} {slot : Fin 6} (hd : d < 10) (hs : slot? e.cursor = some slot) :
    e.press (.digit d) = ⟨e.mask.setDigit slot ⟨d, hd⟩, restRight (e.cursor + 1)⟩ := by
  simp only [press, dif_pos hd, hs]

/-- A key that has nothing to set where the cursor is. -/
def Idle (e : Editor) : Key → Prop
  | .digit d => 10 ≤ d ∨ e.cursor = 7
  | .backspace => e.cursor = 0
  | .left | .right | .other => True

theorem press_idle {key : Key} (h : e.Idle key) : (e.press key).mask = e.mask := by
  cases key with
  | digit d =>
    simp only [press]
    split
    · rename_i hd
      have hend : e.cursor = 7 := h.resolve_left (by omega)
      have hnone : slot? e.cursor = none := by rw [hend]; rfl
      rw [hnone]
    · rfl
  | backspace =>
    have hstart : e.cursor = 0 := h
    simp only [press, hstart]
  | left =>
    simp only [press]
    split <;> rfl
  | right =>
    simp only [press]
    split <;> rfl
  | other => rfl

theorem press_text (e : Editor) (key : Key) : ∃ i c, i ≠ 3 ∧
    (e.press key).mask.text.toList = e.mask.text.toList.set i c := by
  rcases e.press_mask key with hm | ⟨slot, digit, hm⟩
  · have hbeyond : e.mask.text.toList.length ≤ 7 := by
      simp [Mask.toList_text, Mask.length_chars]
    exact ⟨7, '.', by decide, by rw [hm, List.set_eq_of_length_le hbeyond]⟩
  · exact ⟨Mask.column slot, Mask.digitChar digit, Mask.column_ne_three slot,
      by rw [hm, Mask.text_setDigit]⟩

/-- A digit takes the place of the character under the cursor. -/
theorem press_digit_text {d : Nat} (h : Rests e.cursor) (hlt : e.cursor < 7) (hd : d ≤ 9) :
    (e.press (.digit d)).mask.text.toList = e.mask.text.toList.set e.cursor d.digitChar ∧
      NextRest e.cursor (e.press (.digit d)).cursor := by
  obtain ⟨slot, hs⟩ := h.slot? hlt
  rw [press_digit (by omega) hs]
  refine ⟨?_, restRight_next hlt⟩
  rw [Mask.text_setDigit, slot?_eq_some.mp hs, Mask.digitChar_eq]

theorem changes_iff (e : Editor) (key : Key) :
    e.changes key = true ↔ (e.press key).mask.text ≠ e.mask.text := by
  rw [changes, bne_iff_ne, ne_eq, ne_eq, Mask.text_inj]

/-- What is done with an editor. -/
inductive Edit where
  | key (key : Key)
  | text (text : String)
  | click (position : Nat)

def edit (e : Editor) : Edit → Editor
  | .key key => e.press key
  | .text text => e.type text
  | .click position => e.place position

def run (e : Editor) (edits : List Edit) : Editor := edits.foldl edit e

/-- A new editor, or one with a value loaded. -/
def start : Option Float → Editor
  | none => {}
  | some value => .ofValue value

theorem start_rests (loaded : Option Float) : Rests (start loaded).cursor := by
  cases loaded <;> exact ⟨Nat.zero_le 7, nofun⟩

theorem type_rests (h : Rests e.cursor) (text : String) : Rests (e.type text).cursor := by
  unfold type
  generalize text.toList = typed
  induction typed generalizing e with
  | nil => exact h
  | cons c rest ih => exact ih (press_rests h (.ofChar c))

theorem edit_rests (h : Rests e.cursor) (a : Edit) : Rests (e.edit a).cursor := by
  cases a with
  | key key => exact press_rests h key
  | text text => exact type_rests h text
  | click position => exact restRight_rests position

theorem run_rests (h : Rests e.cursor) (edits : List Edit) : Rests (e.run edits).cursor := by
  induction edits generalizing e with
  | nil => exact h
  | cons a rest ih => exact ih (edit_rests h a)

/-- However it is edited, a mask reads as six digits with a point in the middle and the cursor rests
beside a digit. From there a key changes one character at most and never the point: a digit the one
under the cursor, which moves on, and a key that does not apply none. A key says that it changed
something exactly if the text is another one. -/
theorem run_formatted (loaded : Option Float) (edits : List Edit) :
    let e := (start loaded).run edits
    e.mask.digits.toList.length = 6 ∧ (∀ digit ∈ e.mask.digits.toList, digit.val ≤ 9) ∧
      Spells e.mask.text e.mask.milli ∧ Rests e.cursor ∧
      ∀ key,
        (∃ i c, i ≠ 3 ∧ (e.press key).mask.text.toList = e.mask.text.toList.set i c) ∧
        (∀ d, key = .digit d → d ≤ 9 → e.cursor < 7 →
          (e.press key).mask.text.toList = e.mask.text.toList.set e.cursor d.digitChar ∧
            NextRest e.cursor (e.press key).cursor) ∧
        (e.Idle key → (e.press key).mask.text = e.mask.text) ∧
        (e.changes key = true ↔ (e.press key).mask.text ≠ e.mask.text) := by
  intro e
  have hrests : Rests e.cursor := run_rests (start_rests loaded) edits
  refine ⟨Vector.length_toList, fun digit _ => by omega, e.mask.text_spells, hrests, fun key =>
    ⟨e.press_text key, ?_, fun hidle => ?_, e.changes_iff key⟩⟩
  · rintro d rfl hd hlt
    exact press_digit_text hrests hlt hd
  · rw [press_idle hidle]

end Editor

end VoiceAdmin.Frequency
