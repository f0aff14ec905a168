import Mathlib

namespace VoiceAdmin.Number

open Float.Model Float.Model.UnpackedFloat

/-- A significand of full width, whose value is no more than a unit away from an exact value. One unit,
not half of one: nothing here depends on how ties are broken. -/
structure Approximates (significand : Nat) (exponent : Int) (exact : ℚ) : Prop where
  full : 2 ^ 52 ≤ significand
  width : significand < 2 ^ 53
  below : ((significand : ℚ) - 1) * 2 ^ exponent ≤ exact
  above : exact ≤ ((significand : ℚ) + 1) * 2 ^ exponent

theorem mantissa_shiftRight (em : ExtendedMantissa) (n : Nat) :
    (em >>> n).mantissa = em.mantissa / 2 ^ n := by
  show (n.repeat ExtendedMantissa.shiftRightOne em).mantissa = em.mantissa / 2 ^ n
  induction n with
  | zero => rw [pow_zero, Nat.div_one]; rfl
  | succ n ih =>
    rw [pow_succ, ← Nat.div_div_eq_div_mul, ← ih]
    rfl

theorem mantissa_ofAccuracy (m : Nat) (accuracy : Accuracy) :
    (ExtendedMantissa.ofMantissaAndAccuracy m accuracy).mantissa = m := by
  unfold ExtendedMantissa.ofMantissaAndAccuracy
  split <;> rfl

/-- Rounding keeps the significand or adds one to it. -/
theorem roundedMantissa_cases (em : ExtendedMantissa) :
    em.roundedMantissa = em.mantissa ∨ em.roundedMantissa = em.mantissa + 1 := by
  unfold ExtendedMantissa.roundedMantissa Accuracy.roundToNearestEven
  split
  · exact .inl rfl
  · exact .inl rfl
  · omega
  · exact .inr rfl

theorem targetExponent_eq (total : Int) :
    Format.binary64.targetExponent total = max (total - 53) (-1074) := rfl

/-- A significand that is wide enough is shifted to full width. -/
theorem shiftToTargetExponent_eq {m : Nat} {e : Int} (accuracy : Accuracy) (hm : 52 ≤ m.log2)
    (he : -1074 ≤ e + (m.log2 - 52)) :
    (shiftToTargetExponent Format.binary64 m e accuracy).1.mantissa = m / 2 ^ (m.log2 - 52) ∧
      (shiftToTargetExponent Format.binary64 m e accuracy).2 = e + (m.log2 - 52) := by
  have htarget : Format.binary64.targetExponent (totalExponent m e) = e + (m.log2 - 52) := by
    rw [targetExponent_eq, totalExponent]
    omega
  have hshift : (Format.binary64.targetExponent (totalExponent m e) - e).toNat = m.log2 - 52 := by
    rw [htarget]
    omega
  simp only [shiftToTargetExponent, shiftToExponent, hshift, mantissa_shiftRight, mantissa_ofAccuracy,
    true_and]
  omega

/-- The bits that are shifted out are worth less than one unit of the last place. -/
theorem shifted_bounds {m : Nat} (s : Nat) {e : Int} {exact : ℚ} (below : (m : ℚ) * 2 ^ e ≤ exact)
    (above : exact ≤ ((m : ℚ) + 1) * 2 ^ e) :
    ((m / 2 ^ s : Nat) : ℚ) * 2 ^ (e + s) ≤ exact ∧
      exact ≤ (((m / 2 ^ s : Nat) : ℚ) + 1) * 2 ^ (e + s) := by
  have hunit : (0 : ℚ) < 2 ^ e := zpow_pos two_pos e
  have hfloor : ((m / 2 ^ s : Nat) : ℚ) * 2 ^ s ≤ m := by
    exact_mod_cast Nat.div_mul_le_self m (2 ^ s)
  have hceil : (m : ℚ) + 1 ≤ (((m / 2 ^ s : Nat) : ℚ) + 1) * 2 ^ s := by
    have hlt : m + 1 ≤ (m / 2 ^ s + 1) * 2 ^ s := by
      rw [add_mul, one_mul]
      exact Nat.lt_div_mul_add (Nat.two_pow_pos s)
    exact_mod_cast hlt
  rw [zpow_add₀ two_ne_zero, zpow_natCast]
  constructor
  · calc ((m / 2 ^ s : Nat) : ℚ) * (2 ^ e * 2 ^ s)
      _ = ((m / 2 ^ s : Nat) : ℚ) * 2 ^ s * 2 ^ e := by ring
      _ ≤ m * 2 ^ e := mul_le_mul_of_nonneg_right hfloor hunit.le
      _ ≤ exact := below
  · calc exact
      _ ≤ ((m : ℚ) + 1) * 2 ^ e := above
      _ ≤ (((m / 2 ^ s : Nat) : ℚ) + 1) * 2 ^ s * 2 ^ e := mul_le_mul_of_nonneg_right hceil hunit.le
      _ = (((m / 2 ^ s : Nat) : ℚ) + 1) * (2 ^ e * 2 ^ s) := by ring

/-- A significand between two neighbours of full width, rounded to either of them. -/
theorem approximates_of_rounded {a r : Nat} {e : Int} {exact : ℚ} (hr : r = a ∨ r = a + 1)
    (full : 2 ^ 52 ≤ r) (width : r < 2 ^ 53) (below : (a : ℚ) * 2 ^ e ≤ exact)
    (above : exact ≤ ((a : ℚ) + 1) * 2 ^ e) : Approximates r e exact := by
  have hunit : (0 : ℚ) < 2 ^ e := zpow_pos two_pos e
  rcases hr with rfl | rfl
  · exact ⟨full, width, by linarith only [below, hunit], above⟩
  · refine ⟨full, width, ?_, ?_⟩
    · rw [Nat.cast_succ, add_sub_cancel_right]
      exact below
    · rw [Nat.cast_succ]
      linarith only [above, hunit]

/-- Rounding up a significand of ones only carries into the exponent. -/
theorem approximates_of_carry {e : Int} {exact : ℚ} (below : ((2 ^ 53 - 1 : Nat) : ℚ) * 2 ^ e ≤ exact)
    (above : exact ≤ (((2 ^ 53 - 1 : Nat) : ℚ) + 1) * 2 ^ e) :
    Approximates (2 ^ 52) (e + 1) exact := by
  have hunit : (0 : ℚ) < 2 ^ e := zpow_pos two_pos e
  refine ⟨Nat.le_refl _, by norm_num, ?_, ?_⟩
  · rw [zpow_add_one₀ two_ne_zero]
    norm_num at below ⊢
    linarith
  · rw [zpow_add_one₀ two_ne_zero]
    norm_num at above ⊢
    linarith

/-- Rounding, in terms of its two shifts. -/
theorem roundWithAccuracy_eq {m r m' : Nat} {e first e' : Int} (sign : Sign) {accuracy : Accuracy}
    (hr : (shiftToTargetExponent Format.binary64 m e accuracy).1.roundedMantissa = r)
    (hfirst : (shiftToTargetExponent Format.binary64 m e accuracy).2 = first)
    (hm' : (shiftToTargetExponent Format.binary64 r first .exact).1.mantissa = m')
    (he' : (shiftToTargetExponent Format.binary64 r first .exact).2 = e') (hpos : 0 < m') :
    roundWithAccuracy Format.binary64 sign m e accuracy = .finite sign m' e' hpos := by
  subst hr hfirst hm' he'
  exact dif_neg (Nat.ne_of_gt hpos)

theorem roundWithAccuracy_approximates {m : Nat} {e : Int} {exact : ℚ} (sign : Sign)
    (accuracy : Accuracy) (hm : 2 ^ 52 ≤ m) (he : -1074 ≤ e + (m.log2 - 52))
    (below : (m : ℚ) * 2 ^ e ≤ exact) (above : exact ≤ ((m : ℚ) + 1) * 2 ^ e) :
    ∃ m' e' hpos, roundWithAccuracy Format.binary64 sign m e accuracy = .finite sign m' e' hpos ∧
      -1074 ≤ e' ∧ Approximates m' e' exact := by
  have hlog : 52 ≤ m.log2 := (Nat.le_log2 (by omega)).mpr hm
  obtain ⟨s, hs⟩ : ∃ s, m.log2 = 52 + s := Nat.exists_eq_add_of_le hlog
  have hwidth : m < 2 ^ 53 * 2 ^ s := by
    rw [← pow_add, show 53 + s = m.log2 + 1 by omega]
    exact Nat.lt_log2_self
  have hfull : 2 ^ 52 * 2 ^ s ≤ m := by
    rw [← pow_add, ← hs]
    exact Nat.log2_self_le (by omega)
  have hlow : 2 ^ 52 ≤ m / 2 ^ s := (Nat.le_div_iff_mul_le (Nat.two_pow_pos s)).mpr hfull
  have hhigh : m / 2 ^ s < 2 ^ 53 := (Nat.div_lt_iff_lt_mul (Nat.two_pow_pos s)).mpr hwidth
  obtain ⟨hbelow, habove⟩ := shifted_bounds s below above
  obtain ⟨hshifted, hfirst⟩ := shiftToTargetExponent_eq accuracy hlog he
  have hfirst : (shiftToTargetExponent Format.binary64 m e accuracy).2 = e + s := by
    rw [hfirst]
    omega
  have hround := roundedMantissa_cases (shiftToTargetExponent Format.binary64 m e accuracy).1
  rw [hshifted, show m.log2 - 52 = s by omega] at hround
  generalize hr : (shiftToTargetExponent Format.binary64 m e accuracy).1.roundedMantissa = r at hround
  by_cases hcarry : r < 2 ^ 53
  · have hlog : r.log2 = 52 := (Nat.log2_eq_iff (by omega)).mpr ⟨by omega, hcarry⟩
    obtain ⟨hm', he'⟩ := shiftToTargetExponent_eq (m := r) (e := e + s) .exact (by omega) (by omega)
    rw [hlog, Nat.sub_self, pow_zero, Nat.div_one] at hm'
    have he' : (shiftToTargetExponent Format.binary64 r (e + s) .exact).2 = e + s := by
      rw [he']
      omega
    exact ⟨r, e + s, by omega, roundWithAccuracy_eq sign hr hfirst hm' he' _, by omega,
      approximates_of_rounded hround (by omega) hcarry hbelow habove⟩
  · -- Only rounding up leads past the full width.
    obtain rfl : r = 2 ^ 53 := by omega
    have hones : m / 2 ^ s = 2 ^ 53 - 1 := by omega
    obtain ⟨hm', he'⟩ := shiftToTargetExponent_eq (m := 2 ^ 53) (e := e + s) .exact
      (by rw [Nat.log2_two_pow]; omega) (by rw [Nat.log2_two_pow]; omega)
    rw [Nat.log2_two_pow] at hm' he'
    rw [hones] at hbelow habove
    exact ⟨2 ^ 52, e + s + 1, by omega, roundWithAccuracy_eq sign hr hfirst (hm'.trans (by decide))
      (he'.trans (by omega)) _, by omega, approximates_of_carry hbelow habove⟩

end VoiceAdmin.Number
