import Mathlib.Data.List.Basic
import VoiceAdmin.Frequency.Mask

namespace VoiceAdmin.Frequency

/-- Three digits, a point and three digits, which together make up the number. -/
def Spells (text : String) (milli : Nat) : Prop :=
  ∃ whole fraction : List Char, text.toList = whole ++ '.' :: fraction ∧
    whole.length = 3 ∧ fraction.length = 3 ∧ (∀ c ∈ whole ++ fraction, c.isDigit = true) ∧
    Nat.ofDigitChars 10 (whole ++ fraction) 0 = milli

namespace Mask

variable {m n : Mask}

theorem digitChar_eq (digit : Fin 10) : digitChar digit = Nat.digitChar digit.val := by
  revert digit
  decide

theorem isDigit_digitChar (digit : Fin 10) : (digitChar digit).isDigit = true := by
  revert digit
  decide

theorem toNat_digitChar (digit : Fin 10) : (digitChar digit).toNat - '0'.toNat = digit.val := by
  revert digit
  decide

theorem digitChar_injective : Function.Injective digitChar := by
  intro a b h
  have hval : a.val = b.val := by rw [← toNat_digitChar a, h, toNat_digitChar]
  exact Fin.ext hval

/-- The characters of the digits, without the point. -/
def chars (m : Mask) : List Char := m.digits.toList.map digitChar

theorem length_chars (m : Mask) : m.chars.length = 6 := by
  simp [chars]

theorem isDigit_of_mem_chars {c : Char} (h : c ∈ m.chars) : c.isDigit = true := by
  obtain ⟨digit, -, rfl⟩ := List.mem_map.mp h
  exact isDigit_digitChar digit

theorem toList_text (m : Mask) : m.text.toList = m.chars.take 3 ++ '.' :: m.chars.drop 3 :=
  String.toList_ofList

theorem chars_inj : m.chars = n.chars ↔ m = n := by
  constructor
  · intro h
    obtain ⟨digits⟩ := m
    obtain ⟨others⟩ := n
    have hdigits : digits.toList = others.toList :=
      List.map_injective_iff.mpr digitChar_injective h
    rw [Vector.toList_inj.mp hdigits]
  · rintro rfl
    rfl

theorem text_inj : m.text = n.text ↔ m = n := by
  constructor
  · intro h
    have hlists : m.chars.take 3 ++ '.' :: m.chars.drop 3 = n.chars.take 3 ++ '.' :: n.chars.drop 3 := by
      rw [← toList_text, ← toList_text, h]
    have hlength : (m.chars.take 3).length = (n.chars.take 3).length := by
      simp [length_chars]
    obtain ⟨hwhole, hpoint⟩ := List.append_inj hlists hlength
    have hfraction := (List.cons.inj hpoint).2
    rw [← chars_inj, ← List.take_append_drop 3 m.chars, hwhole, hfraction, List.take_append_drop]
  · rintro rfl
    rfl

/-- Where the character of a digit stands in the text. -/
def column (slot : Fin 6) : Nat := if slot.val < 3 then slot.val else slot.val + 1

theorem column_ne_three (slot : Fin 6) : column slot ≠ 3 := by
  unfold column
  split <;> omega

theorem chars_setDigit (m : Mask) (slot : Fin 6) (digit : Fin 10) :
    (m.setDigit slot digit).chars = m.chars.set slot.val (digitChar digit) := by
  simp [chars, setDigit, Vector.toList_set, List.map_set]

theorem text_setDigit (m : Mask) (slot : Fin 6) (digit : Fin 10) :
    (m.setDigit slot digit).text.toList = m.text.toList.set (column slot) (digitChar digit) := by
  have hlength : (m.chars.take 3).length = 3 := by
    simp [length_chars]
  rw [toList_text, toList_text, chars_setDigit, List.take_set, List.drop_set, List.set_append, hlength,
    column]
  by_cases h : slot.val < 3
  · simp only [h, if_true]
  · have hwhole : (m.chars.take 3).set slot.val (digitChar digit) = m.chars.take 3 :=
      List.set_eq_of_length_le (by omega)
    have hfraction : slot.val + 1 - 3 = (slot.val - 3) + 1 := by omega
    have hafter : ¬ slot.val + 1 < 3 := by omega
    simp only [h, hafter, if_false, hwhole, hfraction, List.set_cons_succ]

theorem ofDigitChars_map (digits : List (Fin 10)) (start : Nat) :
    Nat.ofDigitChars 10 (digits.map digitChar) start =
      digits.foldl (fun n digit => n * 10 + digit.val) start := by
  induction digits generalizing start with
  | nil => rfl
  | cons digit rest ih =>
    have hstep : 10 * start + ((digitChar digit).toNat - '0'.toNat) = start * 10 + digit.val := by
      rw [toNat_digitChar, Nat.mul_comm]
    exact (ih _).trans (congrArg (rest.foldl _) hstep)

theorem text_spells (m : Mask) : Spells m.text m.milli := by
  refine ⟨m.chars.take 3, m.chars.drop 3, m.toList_text, ?_, ?_, ?_, ?_⟩
  · simp [length_chars]
  · simp [length_chars]
  · rw [List.take_append_drop]
    exact fun c hc => isDigit_of_mem_chars hc
  · rw [List.take_append_drop]
    exact ofDigitChars_map m.digits.toList 0

end Mask

end VoiceAdmin.Frequency
