import Mathlib
import VoiceAdmin.Number.Binary

namespace VoiceAdmin.Number

open Float.Model (Format UnpackedFloat)
open Float.Model.UnpackedFloat

theorem unpackMantissa_toNat (bits : BitVec Format.binary64.numBits) :
    (unpackMantissa bits).toNat = bits.toNat % 2 ^ 52 := by
  simp [unpackMantissa]

theorem unpackExponent_toNat (bits : BitVec Format.binary64.numBits) :
    (unpackExponent bits).toNat = bits.toNat / 2 ^ 52 % 2 ^ 11 := by
  simp [unpackExponent, Nat.shiftRight_eq_div_pow]

theorem unpackSign_packComponents (sign : Sign) (exponent : BitVec 11) (fraction : BitVec 52) :
    unpackSign (packComponents Format.binary64 sign exponent fraction) = sign.toBitVec := by
  refine BitVec.eq_of_getLsbD_eq fun i hi => ?_
  obtain rfl : i = 0 := by omega
  have htop : (sign.toBitVec ++ exponent ++ fraction).getLsbD 63 = sign.toBitVec[0] := by
    simp only [BitVec.getLsbD_append]
    rfl
  simp only [unpackSign, packComponents, BitVec.getLsbD_cast, BitVec.getLsbD_extractLsb]
  exact htop

theorem ofBitVec_toBitVec (sign : Sign) : Sign.ofBitVec sign.toBitVec = sign := by
  cases sign <;> rfl

theorem implicit_toNat (fraction : BitVec 52) : (1#1 ++ fraction).toNat = 2 ^ 52 + fraction.toNat := by
  rw [BitVec.toNat_append, ← Nat.shiftLeft_add_eq_or_of_lt fraction.isLt]
  rfl

/-- What is read of a normal number. -/
theorem unpack_packComponents (sign : Sign) {exponent : BitVec 11} (fraction : BitVec 52)
    (hlow : exponent ≠ 0#11) (hhigh : exponent ≠ -1#11) :
    unpack Format.binary64 (packComponents Format.binary64 sign exponent fraction) =
      .finite sign (2 ^ 52 + fraction.toNat) (exponent.toNat - 1075) (by omega) := by
  have hsign := unpackSign_packComponents sign exponent fraction
  unfold unpack
  simp only [unpackMantissa_packComponents, unpackExponent_packComponents]
  rw [if_neg hhigh, if_neg hlow, hsign, ofBitVec_toBitVec]
  congr 1
  exact implicit_toNat fraction

theorem ofNat_ne {biased n : Nat} (hbiased : biased < 2048) (hn : n < 2048) (h : biased ≠ n) :
    BitVec.ofNat 11 biased ≠ BitVec.ofNat 11 n := by
  intro heq
  have hnat := congrArg BitVec.toNat heq
  rw [BitVec.toNat_ofNat, BitVec.toNat_ofNat] at hnat
  omega

/-- A rounded significand of full width is read back as it was stored, unless its exponent is too large,
and then the float is infinite. -/
theorem unpack_pack_normal (sign : Sign) {m : Nat} {e : Int} (hpos : 0 < m) (full : 2 ^ 52 ≤ m)
    (width : m < 2 ^ 53) (hlow : -1074 ≤ e) (hhigh : e ≤ 971) :
    unpack Format.binary64 (pack Format.binary64 (.finite sign m e hpos)) = .finite sign m e hpos := by
  have hlog : m.log2 = 52 := (Nat.log2_eq_iff (by omega)).mpr ⟨full, width⟩
  obtain ⟨biased, rfl⟩ : ∃ biased : Nat, e = biased - 1075 := ⟨(e + 1075).toNat, by omega⟩
  have hfield : ((biased : Int) - 1075 + Format.binary64.exponentBias +
      Format.binary64.mantissaBitsWithoutImplicit).toNat = biased := by
    show ((biased : Int) - 1075 + 1023 + 52).toNat = biased
    omega
  have hpack : pack Format.binary64 (.finite sign m (biased - 1075) hpos) =
      packComponents Format.binary64 sign (BitVec.ofNat 11 biased) (BitVec.ofNat 52 m) := by
    simp only [pack, hfield, hlog]
    rw [if_neg (by omega)]
    rfl
  have hbiased : (BitVec.ofNat 11 biased).toNat = biased := by
    rw [BitVec.toNat_ofNat]
    omega
  have hfraction : 2 ^ 52 + (BitVec.ofNat 52 m).toNat = m := by
    rw [BitVec.toNat_ofNat]
    omega
  have hzero : BitVec.ofNat 11 biased ≠ 0#11 := ofNat_ne (by omega) (by omega) (by omega)
  have hones : BitVec.ofNat 11 biased ≠ BitVec.ofNat 11 2047 :=
    ofNat_ne (by omega) (by omega) (by omega)
  rw [hpack, unpack_packComponents sign _ hzero hones]
  congr 1
  rw [hbiased]

theorem unpack_pack_overflow (sign : Sign) {m : Nat} {e : Int} (hpos : 0 < m) (h : 971 < e) :
    unpack Format.binary64 (pack Format.binary64 (.finite sign m e hpos)) = .infinity sign := by
  have hpack : pack Format.binary64 (.finite sign m e hpos) = packedInfinity Format.binary64 sign := by
    refine if_pos ?_
    show 2048 ≤ (e + 1023 + 52).toNat + 1
    omega
  have hsign := unpackSign_packComponents sign (-1#11) 0
  rw [hpack]
  unfold unpack packedInfinity
  simp only [unpackMantissa_packComponents, unpackExponent_packComponents]
  rw [if_pos trivial, if_pos (show (0 : BitVec 52) = 0#52 from rfl), hsign, ofBitVec_toBitVec]

theorem biased_toNat (bits : UInt64) :
    ((bits >>> 52) &&& 0x7FF).toNat = bits.toNat / 2 ^ 52 % 2 ^ 11 := by
  rw [UInt64.toNat_and, UInt64.toNat_shiftRight, Nat.shiftRight_eq_div_pow]
  exact Nat.and_two_pow_sub_one_eq_mod _ 11

theorem fraction_toNat (bits : UInt64) :
    (bits &&& 0xFFFFFFFFFFFFF).toNat = bits.toNat % 2 ^ 52 := by
  rw [UInt64.toNat_and]
  exact Nat.and_two_pow_sub_one_eq_mod _ 52

/-- The magnitude of an unpacked float. -/
def magnitude : UnpackedFloat → Option Binary
  | .finite _ m e _ => some ⟨m, e⟩
  | .zero _ => some ⟨0, -1074⟩
  | _ => none

/-- The magnitude of a float, read off its fields. -/
theorem magnitude_unpack (bits : BitVec Format.binary64.numBits) :
    magnitude (unpack Format.binary64 bits) =
      if (unpackExponent bits).toNat = 0x7FF then none
      else if (unpackExponent bits).toNat = 0 then some ⟨(unpackMantissa bits).toNat, -1074⟩
      else some ⟨hiddenBit + (unpackMantissa bits).toNat, (unpackExponent bits).toNat - 1075⟩ := by
  unfold unpack
  dsimp only
  have hones : unpackExponent bits = -1#11 ↔ (unpackExponent bits).toNat = 0x7FF :=
    BitVec.toNat_inj.symm
  have hzero : unpackExponent bits = 0#11 ↔ (unpackExponent bits).toNat = 0 :=
    BitVec.toNat_inj.symm
  by_cases htop : unpackExponent bits = -1#11
  · rw [if_pos htop, if_pos (hones.mp htop)]
    split <;> rfl
  · rw [if_neg htop, if_neg (mt hones.mpr htop)]
    by_cases hbottom : unpackExponent bits = 0#11
    · rw [if_pos hbottom, if_pos (hzero.mp hbottom)]
      by_cases hfraction : unpackMantissa bits = 0#52
      · rw [dif_pos hfraction, hfraction]
        rfl
      · rw [dif_neg hfraction, hbottom]
        rfl
    · rw [if_neg hbottom, if_neg (mt hzero.mpr hbottom)]
      exact congrArg (fun m => some (Binary.mk m _)) (implicit_toNat _)

/-- A finite float has a significand of full width, or one that is short and the least exponent. -/
theorem unpack_canonical {bits : BitVec Format.binary64.numBits} {sign : Sign} {m : Nat} {e : Int}
    {hpos : 0 < m} (h : unpack Format.binary64 bits = .finite sign m e hpos) :
    -1074 ≤ e ∧ m < 2 ^ 53 ∧ (2 ^ 52 ≤ m ∨ e = -1074) := by
  have hfraction : (unpackMantissa bits).toNat < 2 ^ 52 := (unpackMantissa bits).isLt
  have hmagnitude := magnitude_unpack bits
  rw [h, magnitude] at hmagnitude
  split_ifs at hmagnitude with hones hzero
  · obtain ⟨rfl, rfl⟩ := Binary.mk.inj (Option.some.inj hmagnitude)
    omega
  · obtain ⟨rfl, rfl⟩ := Binary.mk.inj (Option.some.inj hmagnitude)
    unfold hiddenBit
    omega

/-- The magnitude read off the bits is that of the float. -/
theorem ofBits_toBits (x : Float) : Binary.ofBits x.toBits = magnitude x.toModel.unpack := by
  have hmagnitude := magnitude_unpack x.toBits.toBitVec
  have hexponent := unpackExponent_toNat x.toBits.toBitVec
  have hfraction := unpackMantissa_toNat x.toBits.toBitVec
  unfold Binary.ofBits
  dsimp only
  rw [biased_toNat, fraction_toNat]
  refine Eq.trans ?_ hmagnitude.symm
  rw [hexponent, hfraction]
  rfl

end VoiceAdmin.Number
