import VoiceAdmin.Proofs.Frequency.Typing

namespace VoiceAdmin.Frequency

/-- The place of the digit that Backspace zeroes, given that of the one left of the cursor. -/
def erased (before : Nat) : Nat := if before = 2 then 3 else before

/-- Whether Backspace zeroes a digit on the way from `last` digits left of the cursor down to `first`. -/
def IsErased (first last slot : Nat) : Prop :=
  first ≤ slot ∧ slot < last ∧ slot ≠ 2 ∨ slot = 3 ∧ first ≤ 2 ∧ 2 < last

instance (first last slot : Nat) : Decidable (IsErased first last slot) :=
  inferInstanceAs (Decidable (_ ∨ _))

theorem not_isErased_self (first slot : Nat) : ¬ IsErased first first slot := by
  unfold IsErased
  omega

theorem isErased_succ {first last : Nat} (h : first ≤ last) (slot : Nat) :
    IsErased first (last + 1) slot ↔ IsErased first last slot ∨ erased last = slot := by
  unfold IsErased erased
  split <;> omega

namespace Editor

variable {e : Editor}

theorem press_backspace (m : Mask) {before : Nat} (h : before < 6) :
    ∃ slot : Fin 6, slot.val = erased before ∧
      (⟨m, restAfter (before + 1)⟩ : Editor).press .backspace =
        ⟨m.clearDigit slot, restAfter before⟩ := by
  match before with
  | 0 | 1 | 2 | 3 | 4 | 5 => exact ⟨_, rfl, rfl⟩

theorem chars_clearDigit (m : Mask) (slot other : Fin 6) :
    (m.clearDigit slot).chars[other.val]? = if slot.val = other.val then some '0' else m.chars[other.val]? := by
  have hlt : slot.val < m.chars.length := by
    rw [Mask.length_chars]
    exact slot.isLt
  rw [Mask.clearDigit, Mask.chars_setDigit, List.getElem?_set, if_pos hlt]
  rfl

/-- Backspace, pressed so many times. -/
def backspaces (e : Editor) (n : Nat) : Editor := e.run (List.replicate n (.key .backspace))

theorem backspaces_succ (e : Editor) (n : Nat) :
    e.backspaces (n + 1) = (e.press .backspace).backspaces n := rfl

theorem backspaces_add (e : Editor) (n more : Nat) :
    e.backspaces (n + more) = (e.backspaces n).backspaces more := by
  rw [backspaces, List.replicate_add]
  exact List.foldl_append

/-- At the start there is nothing to erase. -/
theorem backspaces_start (m : Mask) (n : Nat) : (⟨m, 0⟩ : Editor).backspaces n = ⟨m, 0⟩ := by
  induction n with
  | zero => rfl
  | succ n ih => exact ih

theorem backspaces_back (m : Mask) (first n : Nat) (hfits : first + n ≤ 6) :
    ∃ next : Mask,
      (∀ slot : Fin 6, next.chars[slot.val]? =
        if IsErased first (first + n) slot.val then some '0' else m.chars[slot.val]?) ∧
      (⟨m, restAfter (first + n)⟩ : Editor).backspaces n = ⟨next, restAfter first⟩ := by
  induction n generalizing m with
  | zero => exact ⟨m, fun slot => (if_neg (not_isErased_self first slot.val)).symm, rfl⟩
  | succ n ih =>
    have hlast : first + n < 6 := hfits
    obtain ⟨zeroed, hzeroed, hpress⟩ := press_backspace m hlast
    obtain ⟨next, hchars, hback⟩ := ih (m.clearDigit zeroed) (Nat.le_of_lt hlast)
    refine ⟨next, fun slot => ?_, ?_⟩
    · rw [hchars, chars_clearDigit, ← ite_or, hzeroed]
      exact if_congr (isErased_succ (Nat.le_add_right first n) slot.val).symm rfl rfl
    · rw [backspaces_succ, show first + (n + 1) = first + n + 1 from rfl, hpress]
      exact hback

/-- A character after others took the places of some. -/
theorem getElem?_overtyped {chars typed : List Char} {first : Nat}
    (hfits : first + typed.length ≤ chars.length) (i : Nat) :
    (chars.take first ++ typed ++ chars.drop (first + typed.length))[i]? =
      if first ≤ i ∧ i < first + typed.length then typed[i - first]? else chars[i]? := by
  have hfirst : (chars.take first).length = first := List.length_take_of_le (by omega)
  rw [List.append_assoc, List.getElem?_append, hfirst]
  by_cases hbefore : i < first
  · rw [if_pos hbefore, if_neg (by omega), List.getElem?_take_of_lt hbefore]
  · rw [if_neg hbefore, List.getElem?_append]
    by_cases htyped : i < first + typed.length
    · rw [if_pos (by omega), if_pos ⟨by omega, htyped⟩]
    · rw [if_neg (by omega), if_neg (by omega), List.getElem?_drop]
      congr 1
      omega

/-- What was typed is erased by as many presses, but for the digit before the point. -/
theorem type_backspaces (m : Mask) (first : Nat) (text : String)
    (hfits : first + (text.toList.filter Char.isDigit).length ≤ 6) :
    let digits := text.toList.filter Char.isDigit
    let n := digits.length
    ∃ back : Mask, ((⟨m, restAfter first⟩ : Editor).type text).backspaces n =
        ⟨back, restAfter first⟩ ∧
      ∀ slot : Fin 6, back.chars[slot.val]? =
        if slot.val = 2 ∧ first ≤ 2 ∧ 2 < first + n then digits[2 - first]?
        else if IsErased first (first + n) slot.val then some '0'
        else m.chars[slot.val]? := by
  intro digits n
  have hfits : first + n ≤ 6 := hfits
  have hn : min n (6 - first) = n := Nat.min_eq_left (by omega)
  obtain ⟨typed, htyped, htype⟩ := type_digits m (by omega : first ≤ 6) text
  rw [hn] at htyped htype
  rw [List.take_length] at htyped
  obtain ⟨back, hback, hpresses⟩ := backspaces_back typed first n hfits
  refine ⟨back, by rw [htype, hpresses], fun slot => ?_⟩
  have hwithin : first + digits.length ≤ m.chars.length := m.length_chars ▸ hfits
  have hslot := getElem?_overtyped hwithin slot.val
  rw [← htyped] at hslot
  rw [hback, hslot]
  by_cases hthird : slot.val = 2 ∧ first ≤ 2 ∧ 2 < first + n
  · obtain ⟨htwo, hle, hlt⟩ := hthird
    have hkept : ¬ IsErased first (first + n) 2 := fun h => h.elim (fun h => h.2.2 rfl) nofun
    rw [htwo, if_neg hkept, if_pos ⟨hle, hlt⟩, if_pos ⟨rfl, hle, hlt⟩]
  · rw [if_neg hthird]
    by_cases herased : IsErased first (first + n) slot.val
    · rw [if_pos herased, if_pos herased]
    · have houtside : ¬ (first ≤ slot.val ∧ slot.val < first + n) := by
        rintro ⟨hle, hlt⟩
        exact herased (.inl ⟨hle, hlt, fun htwo => hthird ⟨htwo, by omega, by omega⟩⟩)
      rw [if_neg herased, if_neg herased]
      exact if_neg houtside

/-- Fewer presses do not reach the start. -/
theorem backspaces_before_start (m : Mask) {left n : Nat} (hleft : left ≤ 6) (hn : n < left) :
    ((⟨m, restAfter left⟩ : Editor).backspaces n).cursor ≠ 0 := by
  obtain ⟨_, -, hback⟩ := backspaces_back m (left - n) n (by omega)
  rw [Nat.sub_add_cancel (Nat.le_of_lt hn)] at hback
  rw [hback]
  show restAfter (left - n) ≠ 0
  unfold restAfter
  split <;> omega

/-- What is left of a mask that is erased from its end. -/
theorem erased_from_end {m next : Mask}
    (h : ∀ slot : Fin 6, next.chars[slot.val]? =
      if IsErased 0 6 slot.val then some '0' else m.chars[slot.val]?) :
    ∃ third, m.chars[2]? = some third ∧ next.chars = ['0', '0', third, '0', '0', '0'] ∧
      (next = .zero ↔ third = '0') := by
  obtain ⟨third, hthird⟩ : ∃ third, m.chars[2]? = some third :=
    ⟨_, List.getElem?_eq_getElem (by rw [m.length_chars]; decide)⟩
  have hchars : next.chars = ['0', '0', third, '0', '0', '0'] := by
    refine List.ext_getElem? fun i => ?_
    match i with
    | 0 => exact h 0
    | 1 => exact h 1
    | 2 => exact (h 2).trans hthird
    | 3 => exact h 3
    | 4 => exact h 4
    | 5 => exact h 5
    | i + 6 => exact List.getElem?_eq_none (by rw [next.length_chars]; omega)
  have hzero : Mask.zero.chars = ['0', '0', '0', '0', '0', '0'] := rfl
  refine ⟨third, hthird, hchars, ?_⟩
  rw [← Mask.chars_inj, hchars, hzero]
  simp

/-- Backspace, held until nothing is left of the cursor, does not erase all that was left of it: the
last digit before the point stays, and right after the point the digit under the cursor goes. The other
digits left of the cursor are zeroed and those right of it stay. So a mask that is erased from its end
keeps its third digit.

As many presses as digits were typed bring the cursor back to where it was. They zero the digits that
were typed, but for the last one before the point, which stays as typed; the first one after the point
is zeroed with it. -/
theorem backspaces_erase (h : Rests e.cursor) :
    let left := digitsLeft e.cursor
    let held := e.backspaces left
    (held.cursor = 0 ∧ (∀ n < left, (e.backspaces n).cursor ≠ 0) ∧
        ∀ more, e.backspaces (left + more) = held) ∧
      (∀ slot : Fin 6, held.mask.chars[slot.val]? =
        if IsErased 0 left slot.val then some '0' else e.mask.chars[slot.val]?) ∧
      (e.cursor = 7 → ∃ third, e.mask.chars[2]? = some third ∧
        held.mask.chars = ['0', '0', third, '0', '0', '0'] ∧ (held.mask = .zero ↔ third = '0')) ∧
      ∀ text : String,
        let digits := text.toList.filter Char.isDigit
        let n := digits.length
        left + n ≤ 6 →
          let back := (e.type text).backspaces n
          back.cursor = e.cursor ∧
            ∀ slot : Fin 6, back.mask.chars[slot.val]? =
              if slot.val = 2 ∧ left ≤ 2 ∧ 2 < left + n then digits[2 - left]?
              else if IsErased left (left + n) slot.val then some '0'
              else e.mask.chars[slot.val]? := by
  intro left held
  obtain ⟨m, cursor⟩ := e
  have hcursor : restAfter left = cursor := restAfter_digitsLeft h
  have hleft : left ≤ 6 := digitsLeft_le h
  obtain ⟨next, hchars, hback⟩ := backspaces_back m 0 left (by omega)
  rw [Nat.zero_add] at hchars hback
  rw [hcursor] at hback
  have hheld : held = ⟨next, 0⟩ := hback
  refine ⟨⟨by rw [hheld], fun n hn => ?_, fun more => ?_⟩, fun slot => ?_, fun hend => ?_, ?_⟩
  · exact hcursor ▸ backspaces_before_start m hleft hn
  · rw [backspaces_add]
    exact (congrArg (backspaces · more) hback).trans ((backspaces_start next more).trans hheld.symm)
  · rw [hheld]
    exact hchars slot
  · have hsix : left = 6 := congrArg digitsLeft hend
    rw [hsix] at hchars
    rw [hheld]
    exact erased_from_end hchars
  · intro text digits n hfits back
    obtain ⟨erased, hpresses, hslots⟩ := type_backspaces m left text hfits
    rw [hcursor] at hpresses
    have hback : back = ⟨erased, cursor⟩ := hpresses
    rw [hback]
    exact ⟨rfl, hslots⟩

/-- `12|3.456` with `78` typed and erased becomes `12|7.056`. -/
theorem backspaces_erase_across_point :
    let e : Editor := ⟨.ofMilli 123456, 2⟩
    let back := (e.type "78").backspaces 2
    Rests e.cursor ∧ digitsLeft e.cursor + 2 ≤ 6 ∧ back.cursor = 2 ∧
      back.mask.chars[2]? = some '7' ∧ back.mask.chars[3]? = some '0' ∧
      back.mask.chars[4]? = some '5' := by
  intro e back
  have hrests : Rests e.cursor := ⟨by decide, by decide⟩
  have hfits : digitsLeft e.cursor + 2 ≤ 6 := by decide
  obtain ⟨-, -, -, htyped⟩ := backspaces_erase hrests
  have hdigits : ("78".toList.filter Char.isDigit) = ['7', '8'] := by decide
  have hback := htyped "78"
  rw [hdigits] at hback
  obtain ⟨hcursor, hslots⟩ := hback hfits
  exact ⟨hrests, hfits, hcursor, hslots 2, hslots 3, hslots 4⟩

/-- Backspace does not zero all digits left of the cursor: `123.456`, typed and then erased from its
end, becomes `003.000`. -/
theorem backspaces_spare_third :
    let e : Editor := ({} : Editor).type "123456"
    Rests e.cursor ∧ (e.backspaces 6).cursor = 0 ∧ (e.backspaces 6).mask.text = "003.000" ∧
      ¬ ∀ slot : Fin 6, Mask.column slot < e.cursor →
        (e.backspaces 6).mask.chars[slot.val]? = some '0' := by
  intro e
  refine ⟨⟨by decide, by decide⟩, by decide, by decide, fun hall => ?_⟩
  have hthird := hall 2 (by decide)
  exact absurd hthird (by decide)

end Editor

end VoiceAdmin.Frequency
