import Mathlib
import VoiceAdmin.Proofs.Number.Packing
import VoiceAdmin.Proofs.Number.Rounding

namespace VoiceAdmin.Number

open Float.Model (Format UnpackedFloat totalExponent)
open Float.Model.UnpackedFloat

/-- A positive float whose significand has full width, and its exact value. -/
def Stands (x : Float) (value : ℚ) : Prop :=
  ∃ m e hpos, x.toModel.unpack = .finite .positive m e hpos ∧ 2 ^ 52 ≤ m ∧ m < 2 ^ 53 ∧
    value = m * 2 ^ e

/-- A value that so many roundings have made of an exact one. Each rounding is worth a factor between `1 -
2⁻⁵²` and `1 + 2⁻⁵²`, so that a few of them in a row are worth a power of it. -/
structure Near (roundings : Nat) (value exact : ℚ) : Prop where
  below : value * (1 - 1 / 2 ^ 52) ^ roundings ≤ exact
  above : exact ≤ value * (1 + 1 / 2 ^ 52) ^ roundings

/-- A float that a positive exact value is rounded to. It is infinite only where that is too large; how
much larger than this it would have to be does not matter here. -/
inductive Rounds (x : Float) (exact : ℚ) : Prop where
  | stands {value : ℚ} (stands : Stands x value) (near : Near 1 value exact)
  | overflows (infinite : x.toModel.unpack = .infinity .positive) (large : 2 ^ 200 ≤ exact)

variable {x y : Float} {p q exact : ℚ}

theorem Near.trans {a b : Nat} {r s t : ℚ} (first : Near a r s) (second : Near b s t) :
    Near (a + b) r t := by
  constructor
  · calc r * (1 - 1 / 2 ^ 52) ^ (a + b)
      _ = r * (1 - 1 / 2 ^ 52) ^ a * (1 - 1 / 2 ^ 52) ^ b := by rw [pow_add, mul_assoc]
      _ ≤ s * (1 - 1 / 2 ^ 52) ^ b := mul_le_mul_of_nonneg_right first.below (by positivity)
      _ ≤ t := second.below
  · calc t
      _ ≤ s * (1 + 1 / 2 ^ 52) ^ b := second.above
      _ ≤ r * (1 + 1 / 2 ^ 52) ^ a * (1 + 1 / 2 ^ 52) ^ b :=
        mul_le_mul_of_nonneg_right first.above (by positivity)
      _ = r * (1 + 1 / 2 ^ 52) ^ (a + b) := by rw [pow_add, mul_assoc]

theorem Near.mul_const {n : Nat} {r s c : ℚ} (h : Near n r s) (hc : 0 ≤ c) : Near n (r * c) (s * c) := by
  constructor
  · rw [mul_right_comm]
    exact mul_le_mul_of_nonneg_right h.below hc
  · rw [mul_right_comm]
    exact mul_le_mul_of_nonneg_right h.above hc

theorem Near.div_const {n : Nat} {r s c : ℚ} (h : Near n r s) (hc : 0 ≤ c) : Near n (r / c) (s / c) := by
  rw [div_eq_mul_inv, div_eq_mul_inv]
  exact h.mul_const (inv_nonneg.mpr hc)

theorem Approximates.near {m : Nat} {e : Int} (h : Approximates m e exact) :
    Near 1 (m * 2 ^ e) exact := by
  have hfull : (2 : ℚ) ^ 52 ≤ m := by exact_mod_cast h.full
  have hunit : (0 : ℚ) < 2 ^ e := zpow_pos two_pos e
  have hscaled := mul_le_mul_of_nonneg_right hfull hunit.le
  have hbelow := h.below
  have habove := h.above
  constructor
  · rw [pow_one]
    linarith
  · rw [pow_one]
    linarith

theorem rounds_of_approximates {m : Nat} {e : Int} (hpos : 0 < m) (he : -1074 ≤ e)
    (h : Approximates m e exact) : Rounds (.ofModel (.pack (.finite .positive m e hpos))) exact := by
  by_cases hhigh : e ≤ 971
  · exact .stands ⟨m, e, hpos, unpack_pack_normal .positive hpos h.full h.width he hhigh, h.full,
      h.width, rfl⟩ h.near
  · refine .overflows (unpack_pack_overflow .positive hpos (by omega)) ?_
    have hfull : (2 : ℚ) ^ 52 ≤ m := by exact_mod_cast h.full
    have hunit : (2 : ℚ) ^ 200 ≤ 2 ^ e := by
      rw [← zpow_natCast]
      exact zpow_le_zpow_right₀ one_le_two (by omega)
    calc (2 : ℚ) ^ 200
      _ ≤ 1 * 2 ^ e := by rw [one_mul]; exact hunit
      _ ≤ ((m : ℚ) - 1) * 2 ^ e :=
        mul_le_mul_of_nonneg_right (by linarith) (zpow_pos two_pos e).le
      _ ≤ exact := h.below

theorem rounds_roundWithAccuracy {m : Nat} {e : Int} (accuracy : Accuracy) (hm : 2 ^ 52 ≤ m)
    (low : 2 ^ (-200 : Int) ≤ exact) (below : (m : ℚ) * 2 ^ e ≤ exact)
    (above : exact ≤ ((m : ℚ) + 1) * 2 ^ e) :
    Rounds (.ofModel (.pack (roundWithAccuracy Format.binary64 .positive m e accuracy))) exact := by
  have hwidth : (m : ℚ) + 1 ≤ 2 ^ (m.log2 + 1) := by
    exact_mod_cast (Nat.lt_log2_self : m < 2 ^ (m.log2 + 1))
  have hexponent : (2 : ℚ) ^ (-200 : Int) ≤ 2 ^ (((m.log2 + 1 : Nat) : Int) + e) := by
    rw [zpow_add₀ two_ne_zero, zpow_natCast]
    calc (2 : ℚ) ^ (-200 : Int)
      _ ≤ ((m : ℚ) + 1) * 2 ^ e := low.trans above
      _ ≤ 2 ^ (m.log2 + 1) * 2 ^ e := mul_le_mul_of_nonneg_right hwidth (zpow_pos two_pos e).le
  have he := (zpow_le_zpow_iff_right₀ one_lt_two).mp hexponent
  obtain ⟨m', e', hpos, hround, he', happrox⟩ :=
    roundWithAccuracy_approximates .positive accuracy hm (by omega) below above
  rw [hround]
  exact rounds_of_approximates hpos he' happrox

theorem Stands.mul (hx : Stands x p) (hy : Stands y q) (low : 2 ^ (-200 : Int) ≤ p * q) :
    Rounds (x * y) (p * q) := by
  obtain ⟨m, e, hm, hxm, hfull, -, rfl⟩ := hx
  obtain ⟨n, f, hn, hyn, hfull', -, rfl⟩ := hy
  have hmul : x * y =
      .ofModel (.pack (roundWithAccuracy Format.binary64 .positive (m * n) (e + f) .exact)) := by
    show Float.ofModel (.pack (mul Format.binary64 x.toModel.unpack y.toModel.unpack)) = _
    rw [hxm, hyn]
    rfl
  have hexact : (m : ℚ) * 2 ^ e * (n * 2 ^ f) = ((m * n : Nat) : ℚ) * 2 ^ (e + f) := by
    rw [zpow_add₀ two_ne_zero, Nat.cast_mul]
    ring
  rw [hmul]
  refine rounds_roundWithAccuracy .exact ?_ low hexact.ge ?_
  · calc 2 ^ 52
      _ ≤ m * 1 := by omega
      _ ≤ m * n := Nat.mul_le_mul_left m hn
  · rw [hexact]
    exact mul_le_mul_of_nonneg_right (by linarith) (zpow_pos two_pos _).le

/-- The quotient of two significands of full width is taken to 53 places. -/
theorem divCore_eq {m n : Nat} {e f : Int} (hm : m.log2 = 52) (hn : n.log2 = 52)
    (h : -1021 ≤ e - f) :
    divCore Format.binary64 m e n f =
      (m * 2 ^ 53 / n, e - f - 53, accuracyOfFraction (m * 2 ^ 53 % n) n) := by
  have htarget : Format.binary64.targetExponent (totalExponent m e - totalExponent n f) =
      e - f - 53 := by
    rw [targetExponent_eq, totalExponent, totalExponent, hm, hn]
    omega
  have hshift : (e - f - (e - f - 53)).toNat = 53 := by omega
  simp only [divCore, htarget]
  rw [min_eq_right (by omega), hshift, Nat.shiftLeft_eq]

/-- The quotient to 53 places is less than one unit below the exact one. -/
theorem quotient_bounds (m : Nat) {n : Nat} (hn : 0 < n) (e : Int) :
    ((m * 2 ^ 53 / n : Nat) : ℚ) * 2 ^ (e - 53) ≤ m / n * 2 ^ e ∧
      m / n * 2 ^ e ≤ (((m * 2 ^ 53 / n : Nat) : ℚ) + 1) * 2 ^ (e - 53) := by
  have hn' : (0 : ℚ) < n := by exact_mod_cast hn
  have hscaled : (m : ℚ) / n * 2 ^ e = ((m * 2 ^ 53 : Nat) : ℚ) / n * 2 ^ (e - 53) := by
    rw [zpow_sub₀ two_ne_zero e 53]
    push_cast
    ring
  rw [hscaled]
  constructor
  · exact mul_le_mul_of_nonneg_right Nat.cast_div_le (zpow_pos two_pos _).le
  · refine mul_le_mul_of_nonneg_right ?_ (zpow_pos two_pos _).le
    rw [div_le_iff₀ hn', add_mul, one_mul]
    exact_mod_cast (Nat.lt_div_mul_add hn).le

theorem Stands.div (hx : Stands x p) (hy : Stands y q) (low : 2 ^ (-200 : Int) ≤ p / q) :
    Rounds (x / y) (p / q) := by
  obtain ⟨m, e, hm, hxm, hfull, hwidth, rfl⟩ := hx
  obtain ⟨n, f, hn, hyn, hfull', hwidth', rfl⟩ := hy
  have hn' : (0 : ℚ) < n := by exact_mod_cast hn
  have hexact : (m : ℚ) * 2 ^ e / (n * 2 ^ f) = m / n * 2 ^ (e - f) := by
    rw [zpow_sub₀ two_ne_zero]
    ring
  have hratio : (m : ℚ) / n ≤ 2 := by
    rw [div_le_iff₀ hn']
    exact_mod_cast (by omega : m ≤ 2 * n)
  have hexponent : (2 : ℚ) ^ (-200 : Int) ≤ 2 ^ (1 + (e - f)) := by
    rw [zpow_add₀ two_ne_zero, zpow_one]
    calc (2 : ℚ) ^ (-200 : Int)
      _ ≤ m / n * 2 ^ (e - f) := by rw [← hexact]; exact low
      _ ≤ 2 * 2 ^ (e - f) := mul_le_mul_of_nonneg_right hratio (zpow_pos two_pos _).le
  have he := (zpow_le_zpow_iff_right₀ one_lt_two).mp hexponent
  have hdiv : x / y = .ofModel (.pack (roundWithAccuracy Format.binary64 .positive (m * 2 ^ 53 / n)
      (e - f - 53) (accuracyOfFraction (m * 2 ^ 53 % n) n))) := by
    have hlog : m.log2 = 52 := (Nat.log2_eq_iff (by omega)).mpr ⟨hfull, hwidth⟩
    have hlog' : n.log2 = 52 := (Nat.log2_eq_iff (by omega)).mpr ⟨hfull', hwidth'⟩
    have hcore := divCore_eq hlog hlog' (e := e) (f := f) (by omega)
    show Float.ofModel (.pack (div Format.binary64 x.toModel.unpack y.toModel.unpack)) = _
    rw [hxm, hyn]
    simp only [div, hcore]
    rfl
  obtain ⟨hbelow, habove⟩ := quotient_bounds m hn (e - f)
  rw [← hexact] at hbelow habove
  rw [hdiv]
  refine rounds_roundWithAccuracy _ ?_ low hbelow habove
  rw [Nat.le_div_iff_mul_le hn]
  omega

theorem Rounds.of_lt (h : Rounds x exact) (small : exact < 2 ^ 200) :
    ∃ value, Stands x value ∧ Near 1 value exact := by
  cases h with
  | stands hstands hnear => exact ⟨_, hstands, hnear⟩
  | overflows hinfinite hlarge => exact absurd hlarge (not_le.mpr small)

theorem Stands.pos (h : Stands x p) : 0 < p := by
  obtain ⟨m, e, hpos, -, -, -, rfl⟩ := h
  exact mul_pos (by exact_mod_cast hpos) (zpow_pos two_pos e)

theorem Near.within {n : Nat} {value : ℚ} (h : Near n value exact) (hn : n ≤ 4) (hpos : 0 ≤ value) :
    value * (1 - 1 / 2 ^ 40) ≤ exact ∧ exact ≤ value * (1 + 1 / 2 ^ 40) := by
  have hlow : (1 - 1 / 2 ^ 40 : ℚ) ≤ (1 - 1 / 2 ^ 52) ^ n :=
    le_trans (by norm_num) (pow_le_pow_of_le_one (by norm_num) (by norm_num) hn)
  have hhigh : (1 + 1 / 2 ^ 52) ^ n ≤ (1 + 1 / 2 ^ 40 : ℚ) :=
    le_trans (pow_le_pow_right₀ (by norm_num) hn) (by norm_num)
  exact ⟨(mul_le_mul_of_nonneg_left hlow hpos).trans h.below,
    h.above.trans (mul_le_mul_of_nonneg_left hhigh hpos)⟩

theorem Stands.mul_near {n : Nat} {c : ℚ} (hx : Stands x p) (hnear : Near n p exact) (hn : n ≤ 4)
    (hy : Stands y c) (low : 2 ^ (-199 : Int) ≤ exact * c) (high : exact * c < 2 ^ 199) :
    ∃ r, Stands (x * y) r ∧ Near (n + 1) r (exact * c) := by
  obtain ⟨hbelow, habove⟩ := (hnear.mul_const hy.pos.le).within hn (mul_pos hx.pos hy.pos).le
  have hlow : (2 : ℚ) ^ (-200 : Int) ≤ p * c := by
    norm_num at low habove ⊢
    linarith
  obtain ⟨r, hr, hrounded⟩ := (hx.mul hy hlow).of_lt (by norm_num at high hbelow ⊢; linarith)
  rw [Nat.add_comm]
  exact ⟨r, hr, hrounded.trans (hnear.mul_const hy.pos.le)⟩

theorem Stands.div_near {n : Nat} {c : ℚ} (hx : Stands x p) (hnear : Near n p exact) (hn : n ≤ 4)
    (hy : Stands y c) (low : 2 ^ (-199 : Int) ≤ exact / c) (high : exact / c < 2 ^ 199) :
    ∃ r, Stands (x / y) r ∧ Near (n + 1) r (exact / c) := by
  obtain ⟨hbelow, habove⟩ := (hnear.div_const hy.pos.le).within hn (div_pos hx.pos hy.pos).le
  have hlow : (2 : ℚ) ^ (-200 : Int) ≤ p / c := by
    norm_num at low habove ⊢
    linarith
  obtain ⟨r, hr, hrounded⟩ := (hx.div hy hlow).of_lt (by norm_num at high hbelow ⊢; linarith)
  rw [Nat.add_comm]
  exact ⟨r, hr, hrounded.trans (hnear.div_const hy.pos.le)⟩

/-- A natural number is shifted to full width before it is rounded. -/
theorem rounds_round {n : Nat} (hpos : 0 < n) (hwidth : n < 2 ^ 53) :
    Rounds (.ofModel (.pack (round Format.binary64 .positive n 0))) n := by
  have hlog : n.log2 < 53 := (Nat.log2_lt (by omega)).mpr hwidth
  obtain ⟨s, hs⟩ : ∃ s, n.log2 + s = 52 := ⟨52 - n.log2, by omega⟩
  have htarget : Format.binary64.targetExponent (totalExponent n 0) = -s := by
    rw [targetExponent_eq, totalExponent]
    omega
  have hround : round Format.binary64 .positive n 0 =
      roundWithAccuracy Format.binary64 .positive (n * 2 ^ s) (-s) .exact := by
    have hshift : (- -(s : Int)).toNat = s := by omega
    simp only [UnpackedFloat.round, htarget, decreaseExponent, hshift, Nat.shiftLeft_eq, Int.zero_sub]
  have hfull : 2 ^ 52 ≤ n * 2 ^ s := by
    rw [← hs, pow_add]
    exact Nat.mul_le_mul_right _ (Nat.log2_self_le (by omega))
  have hexact : ((n * 2 ^ s : Nat) : ℚ) * 2 ^ (-(s : Int)) = n := by
    rw [zpow_neg, zpow_natCast]
    push_cast
    field_simp
  have hone : (1 : ℚ) ≤ n := by exact_mod_cast hpos
  rw [hround]
  refine rounds_roundWithAccuracy .exact hfull ?_ hexact.le ?_
  · exact (zpow_le_one_of_nonpos₀ one_le_two (by omega)).trans hone
  · rw [add_mul, hexact]
    exact le_add_of_nonneg_right (mul_nonneg zero_le_one (zpow_pos two_pos _).le)

theorem rounds_toFloat {n : Nat} (hpos : 0 < n) (hwidth : n < 2 ^ 53) :
    Rounds n.toUInt64.toFloat n := by
  have hvalue : n.toUInt64.toNat = n := Nat.mod_eq_of_lt (by omega)
  have hcompare : compare (n : Int) 0 = .gt := Int.compare_eq_gt.mpr (by omega)
  have hround : n.toUInt64.toFloat = .ofModel (.pack (round Format.binary64 .positive n 0)) := by
    show Float.ofModel (.pack (normalize Format.binary64 (n.toUInt64.toNat : Int) 0 .positive)) = _
    rw [hvalue, UnpackedFloat.normalize, hcompare]
    rfl
  rw [hround]
  exact rounds_round hpos hwidth

theorem stands_one : Stands (Float.ofBits 0x3FF0000000000000) 1 :=
  ⟨2 ^ 52, -52, by norm_num, rfl, by norm_num, by norm_num, by norm_num⟩

/-- A natural number as a float is multiplied by one on the way, which is another rounding. -/
theorem ofNat_near {n : Nat} (hpos : 0 < n) (hwidth : n < 2 ^ 53) :
    ∃ value, Stands (Float.ofNat n) value ∧ Near 2 value n := by
  have hofNat : Float.ofNat n = n.toUInt64.toFloat * Float.ofBits 0x3FF0000000000000 :=
    dif_pos ⟨hwidth, by omega⟩
  have hone : (1 : ℚ) ≤ n := by exact_mod_cast hpos
  have hsmall : (n : ℚ) < 2 ^ 199 :=
    lt_trans (by exact_mod_cast hwidth : (n : ℚ) < 2 ^ 53) (by norm_num)
  obtain ⟨p, hp, hpn⟩ := (rounds_toFloat hpos hwidth).of_lt (hsmall.trans (by norm_num))
  have hlow : (2 : ℚ) ^ (-199 : Int) ≤ n * 1 := by
    rw [mul_one]
    exact le_trans (by norm_num) hone
  have hvalue := hp.mul_near hpn (by omega) stands_one hlow (by rw [mul_one]; exact hsmall)
  rw [mul_one] at hvalue
  rw [hofNat]
  exact hvalue

theorem lt_iff_compare : x < y ↔ x.toModel.unpack.compare y.toModel.unpack = some .lt := by
  have hlt : x < y ↔ (x.toModel.unpack.compare y.toModel.unpack == some .lt) = true :=
    decide_eq_true_iff
  rw [hlt, beq_iff_eq]

theorem le_iff_compare :
    x ≤ y ↔ (x.toModel.unpack.compare y.toModel.unpack).any Ordering.isLE = true :=
  decide_eq_true_iff

/-- Of two significands of full width the one with the larger exponent is worth more. -/
theorem scaled_lt {m n : Nat} {e f : Int} (hm : m < 2 ^ 53) (hn : 2 ^ 52 ≤ n) (h : e < f) :
    (m : ℚ) * 2 ^ e < n * 2 ^ f := by
  have hm' : (m : ℚ) < 2 ^ 53 := by exact_mod_cast hm
  have hn' : (2 : ℚ) ^ 52 ≤ n := by exact_mod_cast hn
  calc (m : ℚ) * 2 ^ e
    _ < 2 ^ 53 * 2 ^ e := mul_lt_mul_of_pos_right hm' (zpow_pos two_pos e)
    _ = 2 ^ 52 * 2 ^ (e + 1) := by rw [zpow_add_one₀ two_ne_zero]; ring
    _ ≤ 2 ^ 52 * 2 ^ f :=
      mul_le_mul_of_nonneg_left (zpow_le_zpow_right₀ one_le_two (by omega)) (by positivity)
    _ ≤ n * 2 ^ f := mul_le_mul_of_nonneg_right hn' (zpow_pos two_pos f).le

theorem Stands.lt_iff (hx : Stands x p) (hy : Stands y q) : x < y ↔ p < q := by
  obtain ⟨m, e, hm, hxm, hfull, hwidth, rfl⟩ := hx
  obtain ⟨n, f, hn, hyn, hfull', hwidth', rfl⟩ := hy
  have hcompare : x < y ↔ (compare e f).then (compare m n) = .lt := by
    rw [lt_iff_compare, hxm, hyn]
    exact Option.some_inj
  rw [hcompare, Ordering.then_eq_lt, Int.compare_eq_lt, Int.compare_eq_eq, Nat.compare_eq_lt]
  rcases lt_trichotomy e f with hlt | rfl | hgt
  · simp only [hlt, true_or, true_iff]
    exact scaled_lt hwidth hfull' hlt
  · simp only [lt_irrefl, false_or, true_and, mul_lt_mul_iff_left₀ (zpow_pos two_pos e : (0 : ℚ) < 2 ^ e),
      Nat.cast_lt]
  · simp only [hgt.not_gt, hgt.ne', false_and, or_self, false_iff, not_lt]
    exact (scaled_lt hwidth' hfull hgt).le

/-- What is larger than a float of full width, and finite, has full width itself. -/
theorem Stands.of_lt (hx : Stands x p) (hlt : x < y) (hfinite : y.isFinite = true) :
    ∃ q, Stands y q := by
  obtain ⟨m, e, hm, hxm, hfull, hwidth, rfl⟩ := hx
  rw [lt_iff_compare, hxm] at hlt
  have hfinite : y.toModel.unpack.isFinite = true := hfinite
  cases hy : y.toModel.unpack with
  | notANumber => simp [hy, UnpackedFloat.isFinite] at hfinite
  | infinity sign => simp [hy, UnpackedFloat.isFinite] at hfinite
  | zero sign => simp [hy, UnpackedFloat.compare] at hlt
  | finite sign n f hn =>
    cases sign with
    | negative => simp [hy, UnpackedFloat.compare] at hlt
    | positive =>
      obtain ⟨-, hwidth', hcanonical⟩ := unpack_canonical hy
      obtain ⟨hlow, -, -⟩ := unpack_canonical hxm
      have hlt : (compare e f).then (compare m n) = .lt := by
        rw [hy] at hlt
        exact Option.some.inj hlt
      rw [Ordering.then_eq_lt, Int.compare_eq_lt, Int.compare_eq_eq, Nat.compare_eq_lt] at hlt
      exact ⟨_, n, f, hn, hy, by omega, hwidth', rfl⟩

theorem Stands.isFinite (h : Stands x p) : x.isFinite = true := by
  obtain ⟨m, e, hm, hxm, -, -, -⟩ := h
  show x.toModel.unpack.isFinite = true
  rw [hxm]
  rfl

theorem Stands.isNaN (h : Stands x p) : x.isNaN = false := by
  obtain ⟨m, e, hm, hxm, -, -, -⟩ := h
  show x.toModel.unpack.isNaN = false
  rw [hxm]
  rfl

theorem Stands.zero_lt (h : Stands x p) : 0.0 < x := by
  obtain ⟨m, e, hm, hxm, -, -, -⟩ := h
  rw [lt_iff_compare, hxm]
  rfl

theorem roundHalfUp_eq_floor {num den : Nat} (hden : 0 < den) :
    roundHalfUp num den = ⌊(num : ℚ) / den + 1 / 2⌋₊ := by
  have hden' : (den : ℚ) ≠ 0 := by exact_mod_cast hden.ne'
  have hquotient : (num : ℚ) / den + 1 / 2 = ((2 * num + den : Nat) : ℚ) / ((2 * den : Nat) : ℚ) := by
    push_cast
    field_simp
  rw [hquotient, Nat.floor_div_eq_div, roundHalfUp]

/-- The quotient that a magnitude is read as has its value. -/
theorem quotient_one (x : Binary) :
    0 < (x.quotient 1).2 ∧
      ((x.quotient 1).1 : ℚ) / (x.quotient 1).2 = x.significand * 2 ^ x.exponent := by
  obtain ⟨m, e⟩ := x
  refine ⟨Nat.pow_pos (by omega), ?_⟩
  show ((m * 1 * 2 ^ e.toNat : Nat) : ℚ) / (2 ^ (-e).toNat : Nat) = m * 2 ^ e
  obtain ⟨n, rfl | rfl⟩ := e.eq_nat_or_neg
  · rw [Int.toNat_natCast, Int.toNat_neg_natCast, zpow_natCast]
    push_cast
    ring
  · rw [Int.neg_neg, Int.toNat_natCast, Int.toNat_neg_natCast, zpow_neg, zpow_natCast]
    push_cast
    ring

theorem roundHalfUp_quotient (x : Binary) :
    roundHalfUp (x.quotient 1).1 (x.quotient 1).2 = ⌊(x.significand : ℚ) * 2 ^ x.exponent + 1 / 2⌋₊ := by
  obtain ⟨hden, hquotient⟩ := quotient_one x
  rw [roundHalfUp_eq_floor hden, hquotient]

end VoiceAdmin.Number
