import VoiceAdmin.Proofs.Frequency.Editing

namespace VoiceAdmin.Frequency

/-- The number of digits left of a cursor position. Typed digits add to it, and the point is no special
case. -/
def digitsLeft (position : Nat) : Nat := if position < 4 then position else position - 1

/-- Where the cursor rests with so many digits left of it. -/
def restAfter (digits : Nat) : Nat := if digits < 3 then digits else digits + 1

theorem digitsLeft_le {position : Nat} (h : Rests position) : digitsLeft position ≤ 6 := by
  unfold digitsLeft
  unfold Rests at h
  split <;> omega

theorem restAfter_digitsLeft {position : Nat} (h : Rests position) :
    restAfter (digitsLeft position) = position := by
  unfold restAfter digitsLeft
  unfold Rests at h
  split <;> split at * <;> omega

theorem restRight_column (slot : Fin 6) :
    restRight (Mask.column slot + 1) = restAfter (slot.val + 1) := by
  unfold restRight Mask.column restAfter
  split <;> split at * <;> split at * <;> omega

theorem restAfter_next (slot : Fin 6) : NextRest (Mask.column slot) (restAfter (slot.val + 1)) := by
  have hlt : Mask.column slot < 7 := by
    unfold Mask.column
    split <;> omega
  rw [← restRight_column]
  exact restRight_next hlt

namespace Mask

theorem digitChar_ofChar {c : Char} (h : c.isDigit = true) :
    ∃ hd : c.toNat - 48 < 10, digitChar ⟨c.toNat - 48, hd⟩ = c := by
  obtain ⟨hleast, hgreatest⟩ := Char.isDigit_iff_toNat.mp h
  have hleast : 48 ≤ c.toNat := hleast
  have hgreatest : c.toNat ≤ 57 := hgreatest
  refine ⟨by omega, ?_⟩
  rw [digitChar, Nat.add_sub_cancel' hleast, Char.ofNat_toNat]

/-- The characters of a text are its digits and the point. -/
theorem filter_text (m : Mask) : m.text.toList.filter Char.isDigit = m.chars := by
  have hwhole : (m.chars.take 3).filter Char.isDigit = m.chars.take 3 :=
    List.filter_eq_self.mpr fun c hc => isDigit_of_mem_chars (List.mem_of_mem_take hc)
  have hfraction : (m.chars.drop 3).filter Char.isDigit = m.chars.drop 3 :=
    List.filter_eq_self.mpr fun c hc => isDigit_of_mem_chars (List.mem_of_mem_drop hc)
  have hpoint : ('.').isDigit = false := by decide
  rw [toList_text, List.filter_append, List.filter_cons, hpoint, hwhole, hfraction]
  simp

end Mask

namespace Editor

variable {e : Editor}

theorem press_nondigit {c : Char} (h : c.isDigit = false) (e : Editor) : e.press (.ofChar c) = e := by
  simp [Key.ofChar, h, press]

theorem press_slot (m : Mask) (slot : Fin 6) {c : Char} (h : c.isDigit = true) :
    ∃ next : Mask, next.chars = m.chars.set slot.val c ∧
      (⟨m, restAfter slot.val⟩ : Editor).press (.ofChar c) = ⟨next, restAfter (slot.val + 1)⟩ := by
  obtain ⟨hd, hc⟩ := Mask.digitChar_ofChar h
  refine ⟨m.setDigit slot ⟨c.toNat - 48, hd⟩, ?_, ?_⟩
  · rw [Mask.chars_setDigit, hc]
  · have hs : slot? (restAfter slot.val) = some slot := slot?_eq_some.mpr rfl
    have hkey : Key.ofChar c = .digit (c.toNat - 48) := by simp [Key.ofChar, h]
    rw [hkey, press_digit hd hs]
    exact congrArg (Editor.mk _) (restRight_column slot)

/-- After the last digit there is nothing to overtype. -/
theorem press_full (m : Mask) (c : Char) :
    (⟨m, restAfter 6⟩ : Editor).press (.ofChar c) = ⟨m, restAfter 6⟩ := by
  have hs : slot? (restAfter 6) = none := rfl
  unfold Key.ofChar
  split
  · simp only [press, hs]
    split <;> rfl
  · rfl

/-- The characters of a text, typed in order. -/
def typeChars (e : Editor) (typed : List Char) : Editor :=
  typed.foldl (fun e c => e.press (.ofChar c)) e

theorem typeChars_append (e : Editor) (typed more : List Char) :
    e.typeChars (typed ++ more) = (e.typeChars typed).typeChars more :=
  List.foldl_append

/-- Only the digits count. -/
theorem typeChars_filter (e : Editor) (typed : List Char) :
    e.typeChars typed = e.typeChars (typed.filter Char.isDigit) := by
  induction typed generalizing e with
  | nil => rfl
  | cons c rest ih =>
    cases hc : c.isDigit with
    | true =>
      rw [List.filter_cons_of_pos hc]
      exact ih _
    | false =>
      have hsame : e.typeChars (c :: rest) = e.typeChars rest :=
        congrArg (typeChars · rest) (press_nondigit hc e)
      rw [hsame, List.filter_cons_of_neg (Bool.eq_false_iff.mp hc)]
      exact ih e

/-- Digits that fit take the places of as many digits of the mask. -/
theorem typeChars_fits {digits : List Char} (hdigits : ∀ c ∈ digits, c.isDigit = true) (m : Mask)
    (first : Nat) (hfits : first + digits.length ≤ 6) :
    ∃ next : Mask,
      next.chars = m.chars.take first ++ digits ++ m.chars.drop (first + digits.length) ∧
        (⟨m, restAfter first⟩ : Editor).typeChars digits =
          ⟨next, restAfter (first + digits.length)⟩ := by
  induction digits generalizing m first with
  | nil => exact ⟨m, by simp, rfl⟩
  | cons c rest ih =>
    have hlt : first < 6 := by
      simp only [List.length_cons] at hfits
      omega
    obtain ⟨typed, hset, hpress⟩ := press_slot m ⟨first, hlt⟩ (hdigits c List.mem_cons_self)
    have hsum : first + 1 + rest.length = first + (c :: rest).length := by
      simp only [List.length_cons]
      omega
    obtain ⟨next, hchars, hrest⟩ := ih (fun x hx => hdigits x (.tail _ hx)) typed (first + 1)
      (by omega)
    have htake : typed.chars.take (first + 1) = m.chars.take first ++ [c] := by
      have hlength : first < m.chars.length := by
        rw [Mask.length_chars]
        exact hlt
      rw [hset, List.set_eq_take_append_cons_drop, if_pos hlength, List.append_cons]
      exact List.take_left' (by simp [Nat.le_of_lt hlength])
    have hdrop : typed.chars.drop (first + 1 + rest.length) =
        m.chars.drop (first + 1 + rest.length) := by
      rw [hset, List.drop_set_of_lt (show first < first + 1 + rest.length by omega)]
    refine ⟨next, ?_, ?_⟩
    · rw [hchars, htake, hdrop, hsum]
      simp
    · rw [← hsum, ← hrest]
      exact congrArg (typeChars · rest) hpress

/-- At the end nothing more fits. -/
theorem typeChars_full (m : Mask) (typed : List Char) :
    (⟨m, restAfter 6⟩ : Editor).typeChars typed = ⟨m, restAfter 6⟩ := by
  induction typed with
  | nil => rfl
  | cons c rest ih => exact (congrArg (typeChars · rest) (press_full m c)).trans ih

theorem type_digits (m : Mask) {first : Nat} (hfirst : first ≤ 6) (text : String) :
    let digits := text.toList.filter Char.isDigit
    let k := min digits.length (6 - first)
    ∃ next : Mask,
      next.chars = m.chars.take first ++ digits.take k ++ m.chars.drop (first + k) ∧
        (⟨m, restAfter first⟩ : Editor).type text = ⟨next, restAfter (first + k)⟩ := by
  intro digits k
  have hdigits : ∀ c ∈ digits.take k, c.isDigit = true := fun c hc =>
    (List.mem_filter.mp (List.mem_of_mem_take hc)).2
  have hlength : (digits.take k).length = k := List.length_take_of_le (Nat.min_le_left _ _)
  have hfits : first + (digits.take k).length ≤ 6 := by omega
  obtain ⟨next, hchars, htyped⟩ := typeChars_fits hdigits m first hfits
  rw [hlength] at hchars htyped
  refine ⟨next, hchars, ?_⟩
  have hsplit : (⟨m, restAfter first⟩ : Editor).type text =
      (⟨next, restAfter (first + k)⟩ : Editor).typeChars (digits.drop k) := by
    rw [← htyped, ← typeChars_append, List.take_append_drop]
    exact typeChars_filter _ _
  rw [hsplit]
  -- What does not fit is typed at the end of the mask.
  rcases Nat.lt_or_ge k digits.length with hmore | hall
  · have hend : first + k = 6 := by omega
    rw [hend]
    exact typeChars_full next _
  · rw [List.drop_of_length_le hall]
    rfl

/-- A text overtypes the digits from the cursor on: the first of its digits take the places of as many
as there are, all others stay, and the cursor goes behind the last one typed. So a text may as well be
typed in parts, and the text of a mask, typed from the start, gives that mask. -/
theorem type_overtypes (h : Rests e.cursor) (text : String) :
    let digits := text.toList.filter Char.isDigit
    let first := digitsLeft e.cursor
    let k := min digits.length (6 - first)
    (e.type text).mask.chars =
        e.mask.chars.take first ++ digits.take k ++ e.mask.chars.drop (first + k) ∧
      (k = 0 → (e.type text).cursor = e.cursor) ∧
      (0 < k → ∃ last : Fin 6, last.val + 1 = first + k ∧
        NextRest (Mask.column last) (e.type text).cursor) ∧
      (∀ more, e.type (text ++ more) = (e.type text).type more) ∧
      (e.cursor = 0 → ∀ m : Mask, e.type m.text = ⟨m, 7⟩) := by
  intro digits first k
  obtain ⟨m, cursor⟩ := e
  have hcursor : restAfter first = cursor := restAfter_digitsLeft h
  have hfirst : first ≤ 6 := digitsLeft_le h
  obtain ⟨next, hchars, htyped⟩ := type_digits m hfirst text
  rw [hcursor] at htyped
  refine ⟨?_, fun hk => ?_, fun hk => ?_, fun more => ?_, ?_⟩
  · rw [htyped]
    exact hchars
  · rw [htyped]
    show restAfter (first + k) = cursor
    rw [hk]
    exact hcursor
  · have hlast : first + k - 1 + 1 = first + k := Nat.sub_add_cancel (by omega)
    refine ⟨⟨first + k - 1, by omega⟩, hlast, ?_⟩
    have hnext := restAfter_next ⟨first + k - 1, by omega⟩
    rw [hlast] at hnext
    rw [htyped]
    exact hnext
  · rw [type, String.toList_append]
    exact typeChars_append _ _ _
  · rintro rfl other
    obtain ⟨whole, hwhole, hother⟩ := type_digits m (Nat.zero_le 6) other.text
    rw [Mask.filter_text, Mask.length_chars] at hwhole hother
    have hlength : other.chars.take 6 = other.chars :=
      List.take_of_length_le (Nat.le_of_eq other.length_chars)
    have hnothing : m.chars.drop 6 = [] := List.drop_of_length_le (Nat.le_of_eq m.length_chars)
    have hsame : whole = other := Mask.chars_inj.mp (by simpa [hlength, hnothing] using hwhole)
    rw [hsame] at hother
    exact hother

/-- `12|3.456` with `9`, a blank, an Arabic digit, a point and `8` typed becomes `129.8|56`. -/
theorem type_overtypes_across_point :
    let e : Editor := ⟨.ofMilli 123456, 2⟩
    Rests e.cursor ∧ (e.type "9 \u0663.8").mask.chars = ['1', '2', '9', '8', '5', '6'] ∧
      NextRest (Mask.column 3) (e.type "9 \u0663.8").cursor ∧
      (e.type ("9 \u0663.8" ++ "7")) = (e.type "9 \u0663.8").type "7" := by
  intro e
  have hrests : Rests e.cursor := ⟨by decide, by decide⟩
  obtain ⟨hchars, -, hcursor, hmore, -⟩ := type_overtypes hrests "9 \u0663.8"
  have hdigits : ("9 \u0663.8".toList.filter Char.isDigit) = ['9', '8'] := by decide
  rw [hdigits] at hchars hcursor
  refine ⟨hrests, hchars.trans (by decide), ?_, hmore "7"⟩
  obtain ⟨last, hlast, hnext⟩ := hcursor (by decide)
  obtain rfl : last = 3 := Fin.ext (Nat.succ.inj hlast)
  exact hnext

end Editor

end VoiceAdmin.Frequency
