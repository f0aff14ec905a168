import Mathlib
import VoiceAdmin.Proofs.Frequency.Drafting
import VoiceAdmin.Proofs.Number.Arithmetic

namespace VoiceAdmin.Frequency

open Float.Model (UnpackedFloat)
open Number (Stands Near)

namespace Mask

variable {m : Mask} {v : Float} {q r : ℚ}

theorem exists_digits (m : Mask) : ∃ a b c d e f : Fin 10, m = ⟨#v[a, b, c, d, e, f]⟩ := by
  obtain ⟨⟨⟨digits⟩, hlength⟩⟩ := m
  match digits, hlength with
  | [a, b, c, d, e, f], _ => exact ⟨a, b, c, d, e, f, rfl⟩

theorem milli_mk (a b c d e f : Fin 10) :
    (⟨#v[a, b, c, d, e, f]⟩ : Mask).milli = a.val * 100000 + b.val * 10000 + c.val * 1000 +
      d.val * 100 + e.val * 10 + f.val := by
  show (((((0 * 10 + a.val) * 10 + b.val) * 10 + c.val) * 10 + d.val) * 10 + e.val) * 10 + f.val = _
  omega

theorem milli_le (m : Mask) : m.milli ≤ 999999 := by
  obtain ⟨a, b, c, d, e, f, rfl⟩ := m.exists_digits
  rw [milli_mk]
  omega

/-- The digits of a number of thousandths, one by one. -/
theorem ofMilli_milli (m : Mask) : ofMilli m.milli = m := by
  obtain ⟨a, b, c, d, e, f, rfl⟩ := m.exists_digits
  rw [milli_mk]
  refine congrArg Mask.mk (Vector.ext fun i hi => Fin.ext ?_)
  rw [Vector.getElem_ofFn]
  simp only [Fin.val_ofNat]
  interval_cases i <;> simp <;> omega

theorem milli_eq_zero : m.milli = 0 ↔ m = zero := by
  constructor
  · intro h
    rw [← ofMilli_milli m, h]
    rfl
  · rintro rfl
    rfl

theorem ne_zero_iff : m ≠ zero ↔ ∃ slot : Fin 6, m.digits[slot].val ≠ 0 := by
  rw [← not_forall_not, not_iff_not]
  constructor
  · rintro rfl slot
    simp [zero]
  · intro h
    refine congrArg Mask.mk (Vector.ext fun i hi => Fin.ext ?_)
    have hdigit := not_not.mp (h ⟨i, hi⟩)
    rw [Vector.getElem_replicate]
    exact hdigit

theorem stands_thousand : Stands 1000.0 1000 :=
  ⟨1000 * 2 ^ 43, -43, by norm_num, rfl, by norm_num, by norm_num, by norm_num⟩

theorem milli_pos (h : m ≠ zero) : 0 < m.milli := Nat.pos_of_ne_zero (mt milli_eq_zero.mp h)

theorem milli_bounds (h : m ≠ zero) : (1 : ℚ) ≤ m.milli ∧ (m.milli : ℚ) ≤ 999999 :=
  ⟨by exact_mod_cast milli_pos h, by exact_mod_cast m.milli_le⟩

/-- The natural number is rounded twice and its quotient once. -/
theorem value_near (h : m ≠ zero) : ∃ r, Stands m.value r ∧ Near 3 r (m.milli / 1000) := by
  have hle := m.milli_le
  obtain ⟨hone, hlarge⟩ := milli_bounds h
  obtain ⟨p, hp, hnear⟩ := Number.ofNat_near (milli_pos h) (by omega)
  exact hp.div_near hnear (by omega) stands_thousand (by norm_num; linarith) (by norm_num; linarith)

theorem product_near (h : m ≠ zero) :
    ∃ r, Stands (m.value * 1000.0) r ∧ Near 4 r m.milli := by
  obtain ⟨hone, hlarge⟩ := milli_bounds h
  have hcancel : (m.milli : ℚ) / 1000 * 1000 = m.milli := div_mul_cancel₀ _ (by norm_num)
  obtain ⟨p, hp, hnear⟩ := value_near h
  have hproduct := hp.mul_near hnear (by omega) stands_thousand
    (by rw [hcancel]; exact le_trans (by norm_num) hone)
    (by rw [hcancel]; exact hlarge.trans_lt (by norm_num))
  rwa [hcancel] at hproduct

theorem thousandths_of_stands (h : Stands (v * 1000.0) r) : thousandths v = ⌊r + 1 / 2⌋₊ := by
  obtain ⟨n, e, hn, hunpack, -, -, rfl⟩ := h
  have hbits : Number.Binary.ofBits (v * 1000.0).toBits = some ⟨n, e⟩ := by
    rw [Number.ofBits_toBits, hunpack]
    rfl
  unfold thousandths
  rw [hbits]
  exact Number.roundHalfUp_quotient ⟨n, e⟩

/-- Four roundings of a number of at most six digits are less than a half off. -/
theorem thousandths_value (h : m ≠ zero) : thousandths m.value = m.milli := by
  obtain ⟨-, hlarge⟩ := milli_bounds h
  obtain ⟨r, hr, hnear⟩ := product_near h
  obtain ⟨hbelow, habove⟩ := hnear.within (by omega) hr.pos.le
  rw [thousandths_of_stands hr, Nat.floor_eq_iff (by linarith [hr.pos])]
  constructor <;> linarith

theorem ofValue_of_stands (h : Stands v q) : ofValue v = ofMilli (min (thousandths v) 999999) := by
  refine if_pos ?_
  rw [h.isFinite, Bool.true_and, decide_eq_true_iff]
  exact h.zero_lt

/-- On the way to the value and back the thousandths become a float, a quotient and a product, each of
them rounded; all of it is off by much less than the half that would make another number of it. -/
theorem ofValue_value (m : Mask) : ofValue m.value = m := by
  by_cases h : m = zero
  · subst h
    rfl
  · obtain ⟨r, hr, -⟩ := value_near h
    rw [ofValue_of_stands hr, thousandths_value h, min_eq_left m.milli_le, ofMilli_milli]

theorem stands_greatest : Stands greatest (0x1F3FFDF3B645A2 / 2 ^ 43) :=
  ⟨0x1F3FFDF3B645A2, -43, by norm_num, rfl, by norm_num, by norm_num, by norm_num⟩

theorem thousandths_ge (h : Stands v q) (large : 0x1F3FFDF3B645A2 / 2 ^ 43 ≤ q) :
    999999 ≤ thousandths v := by
  have hlow : (2 : ℚ) ^ (-200 : Int) ≤ q * 1000 := by
    norm_num at large ⊢
    linarith
  cases h.mul stands_thousand hlow with
  | stands hstands hnear =>
    obtain ⟨-, habove⟩ := hnear.within (by omega) hstands.pos.le
    rw [thousandths_of_stands hstands]
    refine Nat.le_floor ?_
    push_cast
    linarith
  | overflows hinfinite _ =>
    have hbits : Number.Binary.ofBits (v * 1000.0).toBits = none := by
      rw [Number.ofBits_toBits, hinfinite]
      rfl
    unfold thousandths
    rw [hbits]

theorem ofValue_of_greatest_lt (hfinite : v.isFinite = true) (h : greatest < v) :
    ofValue v = ofMilli 999999 := by
  obtain ⟨q, hq⟩ := stands_greatest.of_lt h hfinite
  have hlarge := (stands_greatest.lt_iff hq).mp h
  rw [ofValue_of_stands hq, min_eq_right (thousandths_ge hq hlarge.le)]

theorem not_positive (h : v.isNaN = true ∨ v.isInf = true ∨ v ≤ 0.0) (hfinite : v.isFinite = true) :
    ¬ 0.0 < v := by
  have hzero : (0.0 : Float).toModel.unpack = .zero .positive := rfl
  have hnan : v.isNaN = v.toModel.unpack.isNaN := rfl
  have hinf : v.isInf = v.toModel.unpack.isInf := rfl
  have hfin : v.isFinite = v.toModel.unpack.isFinite := rfl
  rw [hnan, hinf, Number.le_iff_compare, hzero] at h
  rw [hfin] at hfinite
  rw [Number.lt_iff_compare, hzero]
  cases hv : v.toModel.unpack with
  | notANumber => simp [hv, UnpackedFloat.isFinite] at hfinite
  | infinity sign => simp [hv, UnpackedFloat.isFinite] at hfinite
  | zero sign => simp [UnpackedFloat.compare]
  | finite sign n e hn =>
    cases sign with
    | negative => simp [UnpackedFloat.compare]
    | positive => simp [hv, UnpackedFloat.isNaN, UnpackedFloat.isInf, UnpackedFloat.compare] at h

theorem ofValue_of_not_positive (h : v.isNaN = true ∨ v.isInf = true ∨ v ≤ 0.0) : ofValue v = zero := by
  refine if_neg ?_
  rw [Bool.and_eq_true, decide_eq_true_iff]
  exact fun ⟨hfinite, hpositive⟩ => not_positive h hfinite hpositive

end Mask

theorem stands_least : Stands least (0x10624DD2F1A9FC / 2 ^ 62) :=
  ⟨0x10624DD2F1A9FC, -62, by norm_num, rfl, by norm_num, by norm_num, by norm_num⟩

/-- From two thousandths on the bound is not close, and one thousandth is what the literal says. -/
theorem not_value_lt_least {m : Mask} (h : m ≠ .zero) : ¬ m.value < least := by
  by_cases hone : m.milli = 1
  · rw [Mask.value, hone]
    decide
  · obtain ⟨r, hr, hnear⟩ := Mask.value_near h
    obtain ⟨-, habove⟩ := hnear.within (by omega) hr.pos.le
    have hpos := Mask.milli_pos h
    have htwo : (2 : ℚ) ≤ m.milli := by exact_mod_cast (by omega : 2 ≤ m.milli)
    rw [hr.lt_iff stands_least]
    norm_num
    linarith

/-- Likewise at the other end. -/
theorem not_greatest_lt_value {m : Mask} (h : m ≠ .zero) : ¬ greatest < m.value := by
  by_cases hlast : m.milli = 999999
  · rw [Mask.value, hlast]
    decide
  · obtain ⟨r, hr, hnear⟩ := Mask.value_near h
    obtain ⟨hbelow, -⟩ := hnear.within (by omega) hr.pos.le
    have hle := m.milli_le
    have hsmall : (m.milli : ℚ) ≤ 999998 := by exact_mod_cast (by omega : m.milli ≤ 999998)
    rw [Mask.stands_greatest.lt_iff hr]
    norm_num
    linarith

theorem validate_value {m : Mask} (h : m ≠ .zero) : validate m.value = .ok m.value := by
  obtain ⟨r, hr, -⟩ := Mask.value_near h
  unfold validate
  rw [hr.isNaN, if_neg (not_value_lt_least h), if_neg (not_greatest_lt_value h)]
  rfl

theorem validate_zero : validate Mask.zero.value = .error (.belowMinimum Mask.zero.value) := rfl

theorem submit_of_ne_zero {form : Form} (h : form.editor.mask ≠ .zero) :
    form.submit = .ok ⟨form.band, form.editor.mask.value⟩ := by
  rw [Form.submit, validate_value h]
  rfl

theorem submit_of_zero {form : Form} (h : form.editor.mask = .zero) :
    form.submit = .error (.belowMinimum form.editor.mask.value) := by
  rw [Form.submit, h, validate_zero]
  rfl

theorem submit_eq_ok {form : Form} {submission : Submission} :
    form.submit = .ok submission ↔
      form.editor.mask ≠ .zero ∧ submission = ⟨form.band, form.editor.mask.value⟩ := by
  by_cases h : form.editor.mask = .zero
  · simp [submit_of_zero h, h]
  · simp [submit_of_ne_zero h, h, eq_comm]

theorem add_of_validate {submission : Submission} {frequency : Float}
    (h : validate submission.frequency = .ok frequency) (draft : Draft) :
    ∃ added, draft.add submission = (.ok (), added) ∧
      added.lists.list submission.band = draft.lists.list submission.band ++ [frequency] := by
  refine ⟨_, Draft.add_valid h, ?_⟩
  rw [list_setList, Function.update_self]

/-- Every mask is read back from its value. A form with a digit that is not zero, and no other, submits
that value; a draft takes it as it is, and it is shown as the form showed it. Above the range there is only
`999.999`, and what is not positive and finite shows as `000.000`. -/
theorem stored_unchanged :
    (∀ mask : Mask, Mask.ofValue mask.value = mask) ∧
    (∀ form : Form,
      ((∃ submission, form.submit = .ok submission) ↔
        ∃ slot : Fin 6, form.editor.mask.digits[slot].val ≠ 0) ∧
      ∀ submission, form.submit = .ok submission →
        submission.band = form.band ∧ submission.frequency = form.editor.mask.value ∧
        (∀ draft : Draft, ∃ added, draft.add submission = (.ok (), added) ∧
          added.lists.list submission.band =
            draft.lists.list submission.band ++ [submission.frequency]) ∧
        format submission.frequency = form.editor.mask.text) ∧
    (∀ value : Float, value.isFinite = true → greatest < value →
      (Mask.ofValue value).text = "999.999") ∧
    ∀ value : Float, value.isNaN = true ∨ value.isInf = true ∨ value ≤ 0.0 →
      (Mask.ofValue value).text = "000.000" := by
  refine ⟨Mask.ofValue_value, fun form => ⟨?_, fun submission hsubmit => ?_⟩, ?_, ?_⟩
  · simp only [submit_eq_ok, exists_and_left, exists_eq, and_true]
    exact Mask.ne_zero_iff
  · obtain ⟨hne, rfl⟩ := submit_eq_ok.mp hsubmit
    exact ⟨rfl, rfl, add_of_validate (validate_value hne),
      congrArg Mask.text (Mask.ofValue_value form.editor.mask)⟩
  · intro value hfinite hlarge
    rw [Mask.ofValue_of_greatest_lt hfinite hlarge]
    rfl
  · intro value h
    rw [Mask.ofValue_of_not_positive h]
    rfl

example : format 30.025 = "030.025" := by decide

end VoiceAdmin.Frequency
