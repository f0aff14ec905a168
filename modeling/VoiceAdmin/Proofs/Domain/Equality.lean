import VoiceAdmin.Proofs.Domain.Codec

namespace VoiceAdmin

theorem float_beq_self {x : Float} (h : x.isFinite = true) : (x == x) = true := by
  change Float.Model.UnpackedFloat.beq _ _ = true
  have hf : Float.Model.UnpackedFloat.isFinite _ = true := h
  generalize x.toModel.unpack = u at hf ⊢
  cases u with
  | infinity sign => cases hf
  | notANumber => cases hf
  | zero sign => rfl
  | finite sign mantissa exponent positive =>
    cases sign with
    | positive =>
      change (some ((compare exponent exponent).then (compare mantissa mantissa)) == some .eq) = true
      simp
    | negative =>
      change (some ((compare exponent exponent).then (compare mantissa mantissa)).swap == some .eq) =
        true
      simp

theorem beq_self_of_forall {α : Type} [BEq α] {l : List α} (h : ∀ x ∈ l, (x == x) = true) :
    (l == l) = true := by
  induction l with
  | nil => rfl
  | cons x rest ih =>
    rw [List.cons_beq_cons, h x List.mem_cons_self, ih fun y hy => h y (List.mem_cons_of_mem x hy)]
    rfl

theorem Frequencies.beq_self {f : Frequencies} (h : f.Finite) : (f == f) = true := by
  have hg : (f.global == f.global) = true :=
    beq_self_of_forall fun x hx => float_beq_self (h x (List.mem_append_left _ hx))
  have ht : (f.test == f.test) = true :=
    beq_self_of_forall fun x hx => float_beq_self (h x (List.mem_append_right _ hx))
  change (f.global == f.global && f.test == f.test) = true
  rw [hg, ht]
  rfl

theorem Settings.beq_self {s : Settings} (h : s.frequencies.Finite) : (s == s) = true := by
  change (s.servers == s.servers && s.frequencies == s.frequencies) = true
  rw [Frequencies.beq_self h]
  simp

theorem Domain.beq_self (d : Domain) {value : d.Value} (h : d.Finite value) :
    (value == value) = true := by
  cases d with
  | status => exact @beq_self_eq_true Status _ _ value
  | settings => exact Settings.beq_self h
  | roster => exact @beq_self_eq_true Roster _ _ value
  | coalitions => exact @beq_self_eq_true (List Coalition) _ _ value
  | bans => exact @beq_self_eq_true (List Ban) _ _ value

end VoiceAdmin
