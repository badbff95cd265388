import Mathlib

namespace PlayerAnimation.Double

open Float.Model Float.Model.UnpackedFloat

section Digits

theorem log2_mono {m n : ℕ} (h : m ≤ n) : m.log2 ≤ n.log2 := by
  rw [Nat.log2_eq_log_two, Nat.log2_eq_log_two]
  exact Nat.log_mono_right h

theorem log2_le {n k : ℕ} (h : n < 2 ^ (k + 1)) : n.log2 ≤ k := by
  obtain rfl | hpos := n.eq_zero_or_pos
  · exact Nat.zero_le _
  · exact Nat.le_of_lt_succ ((Nat.log2_lt hpos.ne').mpr h)

theorem log2_shiftLeft_le (n k : ℕ) : (n <<< k).log2 ≤ n.log2 + k := by
  apply log2_le
  rw [Nat.shiftLeft_eq, Nat.add_right_comm, Nat.pow_add]
  exact Nat.mul_lt_mul_of_pos_right Nat.lt_log2_self (by positivity)

theorem log2_div_le (m : ℕ) {n : ℕ} (hn : 0 < n) : (m / n).log2 ≤ m.log2 - n.log2 := by
  refine log2_le (Nat.div_lt_of_lt_mul ?_)
  calc m < 2 ^ (m.log2 + 1) := Nat.lt_log2_self
    _ ≤ 2 ^ (n.log2 + (m.log2 - n.log2 + 1)) := Nat.pow_le_pow_right (by decide) (by omega)
    _ = 2 ^ n.log2 * 2 ^ (m.log2 - n.log2 + 1) := Nat.pow_add ..
    _ ≤ n * 2 ^ (m.log2 - n.log2 + 1) := Nat.mul_le_mul_right _ (Nat.log2_self_le hn.ne')

theorem log2_div_succ_le (m k : ℕ) : (m / 2 ^ k + 1).log2 ≤ m.log2 + 1 - k := by
  have hdigits : m < 2 ^ k * 2 ^ (m.log2 + 1 - k) := by
    rw [← Nat.pow_add]
    exact Nat.lt_log2_self.trans_le (Nat.pow_le_pow_right (by decide) (by omega))
  calc (m / 2 ^ k + 1).log2 ≤ (2 ^ (m.log2 + 1 - k)).log2 := log2_mono (Nat.div_lt_of_lt_mul hdigits)
    _ = m.log2 + 1 - k := Nat.log2_two_pow

end Digits

section Round

theorem targetExponent_eq (T : ℤ) : Format.binary64.targetExponent T = max (T - 53) (-1074) := rfl

theorem shiftRight_mantissa (em : ExtendedMantissa) (n : ℕ) : (em >>> n).mantissa = em.mantissa / 2 ^ n := by
  induction n with
  | zero => exact (Nat.div_one _).symm
  | succ n ih =>
      change (em >>> n).mantissa / 2 = _
      rw [ih, Nat.div_div_eq_div_mul, ← Nat.pow_succ]

theorem ofMantissaAndAccuracy_mantissa (m : ℕ) (acc : Accuracy) :
    (ExtendedMantissa.ofMantissaAndAccuracy m acc).mantissa = m := by
  rcases acc with _ | _ | _ | _ <;> rfl

theorem le_roundedMantissa (em : ExtendedMantissa) : em.mantissa ≤ em.roundedMantissa := by
  rw [ExtendedMantissa.roundedMantissa]
  generalize em.accuracy = acc
  rcases acc with _ | _ | _ | _
  · exact le_rfl
  · exact le_rfl
  · exact Nat.le_add_right _ _
  · exact Nat.le_succ _

theorem roundedMantissa_le (em : ExtendedMantissa) : em.roundedMantissa ≤ em.mantissa + 1 := by
  rw [ExtendedMantissa.roundedMantissa]
  generalize em.accuracy = acc
  rcases acc with _ | _ | _ | _
  · exact Nat.le_succ _
  · exact Nat.le_succ _
  · exact Nat.add_le_add_left (Nat.le_of_lt_succ (Nat.mod_lt _ (by decide))) _
  · exact le_rfl

def Fits : UnpackedFloat → Prop
  | .finite _ _ e _ => e ≤ 971
  | .zero _ => True
  | _ => False

theorem totalExponent_rounded (m : ℕ) (e : ℤ) (acc : Accuracy) (t : ℤ) :
    totalExponent (shiftToExponent m e acc t).1.roundedMantissa (e + (t - e).toNat) ≤
      max (totalExponent m e) (e + (t - e).toNat) + 1 := by
  have hlog : (shiftToExponent m e acc t).1.roundedMantissa.log2 ≤ (m / 2 ^ (t - e).toNat + 1).log2 := by
    refine log2_mono ((roundedMantissa_le _).trans_eq ?_)
    rw [shiftToExponent, shiftRight_mantissa, ofMantissaAndAccuracy_mantissa]
  have hdigits := log2_div_succ_le m (t - e).toNat
  rw [totalExponent, totalExponent]
  omega

variable {m : ℕ} {e : ℤ}

theorem fits_round (s : Sign) (acc : Accuracy) (htotal : totalExponent m e ≤ 1023) (he : e ≤ 971) :
    Fits (roundWithAccuracy .binary64 s m e acc) := by
  have hfirst := totalExponent_rounded m e acc (Format.binary64.targetExponent (totalExponent m e))
  rw [roundWithAccuracy]
  dsimp only [shiftToTargetExponent]
  split
  · trivial
  · -- the second shift follows the total exponent, which rounding has raised by one at most
    dsimp only [shiftToExponent, Fits] at hfirst ⊢
    generalize totalExponent (ExtendedMantissa.roundedMantissa _) _ = total at hfirst ⊢
    rw [targetExponent_eq] at hfirst ⊢
    rw [targetExponent_eq]
    omega

theorem shift_digits (acc : Accuracy) (hm : 52 ≤ m.log2) (he : -1074 ≤ e) :
    (shiftToTargetExponent .binary64 m e acc).1.mantissa.log2 = 52 ∧
      (shiftToTargetExponent .binary64 m e acc).2 = e + (m.log2 - 52) := by
  rw [shiftToTargetExponent, targetExponent_eq, shiftToExponent, totalExponent]
  dsimp only
  constructor
  · rw [shiftRight_mantissa, ofMantissaAndAccuracy_mantissa, Nat.log2_eq_log_two, Nat.log_div_base_pow,
      ← Nat.log2_eq_log_two]
    omega
  · omega

theorem round_digits (s : Sign) (acc : Accuracy) (hm : 52 ≤ m.log2) (he : -1074 ≤ e) :
    ∃ n f hn, roundWithAccuracy .binary64 s m e acc = .finite s n f hn ∧ n.log2 = 52 ∧ e + (m.log2 - 52) ≤ f := by
  obtain ⟨hdigits, hexponent⟩ := shift_digits acc hm he
  have hrounded := log2_mono (le_roundedMantissa (shiftToTargetExponent .binary64 m e acc).1)
  rw [hdigits] at hrounded
  obtain ⟨hdigits', hexponent'⟩ := shift_digits .exact hrounded
    (show -1074 ≤ (shiftToTargetExponent .binary64 m e acc).2 by omega)
  rw [roundWithAccuracy]
  dsimp only
  split
  · next hzero =>
      rw [hzero] at hdigits'
      cases hdigits'
  · next hne => exact ⟨_, _, Nat.pos_of_ne_zero hne, rfl, hdigits', by omega⟩

end Round

section Pack

theorem isFinite_unpack {b : BitVec Format.binary64.numBits} :
    (unpack .binary64 b).isFinite = true ↔ unpackExponent b ≠ -1#_ := by
  rw [UnpackedFloat.unpack]
  split_ifs with hlast hzero hleast hnone
  · exact iff_of_false Bool.false_ne_true (not_not_intro hlast)
  · exact iff_of_false Bool.false_ne_true (not_not_intro hlast)
  · exact iff_of_true rfl hlast
  · exact iff_of_true rfl hlast
  · exact iff_of_true rfl hlast

theorem ofNat_ne_last {n : ℕ} (h : n + 1 < 2048) : BitVec.ofNat 11 n ≠ -1#11 := by
  intro hlast
  have hvalue := congrArg BitVec.toNat hlast
  rw [BitVec.toNat_ofNat, Nat.mod_eq_of_lt (by omega)] at hvalue
  change n = 2047 at hvalue
  omega

theorem pack_finite (s : Sign) {m : ℕ} (e : ℤ) (hm : 0 < m) :
    971 < e ∧ UnpackedFloat.pack .binary64 (.finite s m e hm) = packedInfinity .binary64 s ∨
      unpackExponent (UnpackedFloat.pack .binary64 (.finite s m e hm)) ≠ -1#_ := by
  rw [UnpackedFloat.pack]
  dsimp only
  split
  · next hlarge =>
      change 2048 ≤ (e + 1023 + 52).toNat + 1 at hlarge
      exact .inl ⟨by omega, rfl⟩
  · next hsmall =>
      right
      split
      · rw [unpackExponent_packComponents]
        exact ofNat_ne_last (not_le.mp hsmall)
      · rw [unpackExponent_packComponents]
        decide

theorem isFinite_pack {a : UnpackedFloat} (h : Fits a) : (Float.ofModel (.pack a)).isFinite = true := by
  refine isFinite_unpack.mpr ?_
  cases a with
  | infinity | notANumber => exact h.elim
  | zero s => cases s <;> decide
  | finite s m e hm =>
      obtain ⟨hlarge, -⟩ | hfinite := pack_finite s e hm
      · exact absurd h (not_le.mpr hlarge)
      · exact hfinite

theorem isFinite_pack_of_isInf {a : UnpackedFloat} (h : a.isFinite = true)
    (hinf : (Float.ofModel (.pack a)).isInf = false) : (Float.ofModel (.pack a)).isFinite = true := by
  cases a with
  | infinity | notANumber => cases h
  | zero s => exact isFinite_pack trivial
  | finite s m e hm =>
      obtain ⟨-, hpack⟩ | hfinite := pack_finite s e hm
      · change (unpack .binary64 (UnpackedFloat.pack .binary64 (.finite s m e hm))).isInf = false at hinf
        rw [hpack] at hinf
        cases s <;> cases hinf
      · exact isFinite_unpack.mpr hfinite

theorem unpack_finite {b : BitVec Format.binary64.numBits} {s : Sign} {m : ℕ} {e : ℤ} {hm : 0 < m}
    (h : unpack .binary64 b = .finite s m e hm) : m < 2 ^ 53 ∧ -1074 ≤ e ∧ e ≤ 971 := by
  have hbias : (Format.binary64.exponentBias : ℤ) + Format.binary64.mantissaBitsWithoutImplicit = 1075 := rfl
  have hexponent : (unpackExponent b).toNat < 2048 := (unpackExponent b).isLt
  rw [UnpackedFloat.unpack] at h
  dsimp only at h
  split_ifs at h with hlast hzero hleast hnone
  · obtain ⟨-, rfl, rfl⟩ := UnpackedFloat.finite.inj h
    refine ⟨(unpackMantissa b).isLt.trans (by decide), ?_⟩
    rw [hbias, hleast]
    decide
  · obtain ⟨-, rfl, rfl⟩ := UnpackedFloat.finite.inj h
    have hnot : (unpackExponent b).toNat ≠ 2047 := fun hvalue => hlast (BitVec.eq_of_toNat_eq hvalue)
    have hpos : (unpackExponent b).toNat ≠ 0 := fun hvalue => hleast (BitVec.eq_of_toNat_eq hvalue)
    refine ⟨(1#1 ++ unpackMantissa b).isLt, ?_⟩
    rw [hbias]
    omega

theorem unpack_cases {x : Float} (hx : x.isFinite = true) :
    (∃ s, x.toModel.unpack = .zero s) ∨
      ∃ s m e hm, x.toModel.unpack = .finite s m e hm ∧ m < 2 ^ 53 ∧ -1074 ≤ e ∧ e ≤ 971 := by
  change x.toModel.unpack.isFinite = true at hx
  cases hunpack : x.toModel.unpack with
  | infinity | notANumber =>
      rw [hunpack] at hx
      cases hx
  | zero s => exact .inl ⟨s, rfl⟩
  | finite s m e hm => exact .inr ⟨s, m, e, hm, rfl, unpack_finite hunpack⟩

end Pack

section Large

inductive Large : UnpackedFloat → Prop
  | finite {s : Sign} {m : ℕ} {e : ℤ} {hm : 0 < m} (htotal : 2 ≤ totalExponent m e) : Large (.finite s m e hm)

theorem large_finite_iff {s : Sign} {m : ℕ} {e : ℤ} {hm : 0 < m} :
    Large (.finite s m e hm) ↔ 2 ≤ totalExponent m e :=
  ⟨fun ⟨htotal⟩ => htotal, .finite⟩

instance : DecidablePred Large
  | .finite _ m e _ => decidable_of_iff (2 ≤ totalExponent m e) large_finite_iff.symm
  | .zero _ | .infinity _ | .notANumber => isFalse fun h => by cases h

theorem Large.isFinite {a : UnpackedFloat} (h : Large a) : a.isFinite = true := by
  cases h
  rfl

theorem large_unpack (s : Sign) {exponent : BitVec 11} (mantissa : BitVec 52) (hlast : exponent ≠ -1#11)
    (hlow : 1024 ≤ exponent.toNat) :
    Large (UnpackedFloat.unpack .binary64 (packComponents .binary64 s exponent mantissa)) := by
  have hleast : exponent ≠ 0#11 := by
    rintro rfl
    exact absurd hlow (by decide)
  have hbias : (Format.binary64.exponentBias : ℤ) + Format.binary64.mantissaBitsWithoutImplicit = 1075 := rfl
  have hdigits : 52 ≤ (1#1 ++ mantissa).toNat.log2 := by
    rw [BitVec.toNat_append, ← Nat.shiftLeft_add_eq_or_of_lt mantissa.isLt]
    exact (Nat.le_log2 (by simp)).mpr (Nat.le_add_right _ _)
  simp only [UnpackedFloat.unpack, unpackExponent_packComponents, unpackMantissa_packComponents]
  rw [if_neg hlast, if_neg hleast]
  rw [large_finite_iff, totalExponent, hbias]
  omega

theorem large_pack (s : Sign) {m : ℕ} {e : ℤ} (hm : 0 < m) (hdigits : m.log2 = 52) (hlow : -51 ≤ e)
    (hhigh : e ≤ 971) : Large (Float.ofModel (.pack (.finite s m e hm))).toModel.unpack := by
  have hbiased : (e + (Format.exponentBias .binary64 : ℕ) + (52 : ℕ)).toNat = (e + 1075).toNat := by
    have hbias : Format.exponentBias .binary64 = 1023 := rfl
    rw [hbias]
    omega
  have hsmall : ¬2 ^ 11 ≤ (e + 1075).toNat + 1 := by omega
  have hvalue : (BitVec.ofNat 11 (e + 1075).toNat).toNat = (e + 1075).toNat := by
    rw [BitVec.toNat_ofNat]
    omega
  change Large (UnpackedFloat.unpack .binary64 (UnpackedFloat.pack .binary64 (.finite s m e hm)))
  rw [UnpackedFloat.pack, hbiased, if_neg hsmall, hdigits,
    if_pos (show 52 + 1 = Format.binary64.mantissaBits from rfl)]
  exact large_unpack s _ (ofNat_ne_last (by omega)) (le_of_le_of_eq (by omega) hvalue.symm)

theorem large_rounded_power {k : ℕ} (hlow : 23 ≤ k) (hhigh : k ≤ 307) :
    Large (Float.ofModel (.ofScientific 1 k)).toModel.unpack := by
  have hleast : 61 ≤ (1 <<< 53 * 10 ^ k).log2 := by
    refine (Nat.le_log2 (Nat.mul_ne_zero (by decide) (by positivity))).mpr ?_
    calc 2 ^ 61 ≤ 1 <<< 53 * 10 ^ 23 := by decide
      _ ≤ 1 <<< 53 * 10 ^ k := Nat.mul_le_mul_left _ (Nat.pow_le_pow_right (by decide) hlow)
  have hgreatest : (1 <<< 53 * 10 ^ k).log2 ≤ 1075 := by
    apply log2_le
    calc 1 <<< 53 * 10 ^ k ≤ 1 <<< 53 * 10 ^ 307 := Nat.mul_le_mul_left _ (Nat.pow_le_pow_right (by decide) hhigh)
      _ < 2 ^ (1075 + 1) := by decide +kernel
  have hround : UnpackedFloat.ofScientific .binary64 1 k =
      roundWithAccuracy .binary64 .positive (1 <<< 53 * 10 ^ k) (-53) .exact := by
    have hlast : ¬(k : ℤ) > 2 ^ 11 := by omega
    have hfirst : ¬(k : ℤ) < -((2 ^ 11 : ℤ) + Nat.log2 1) := by omega
    rw [UnpackedFloat.ofScientific, dif_neg (by decide), if_neg hlast, if_neg hfirst, if_pos (Int.natCast_nonneg k)]
    rfl
  change Large (Float.ofModel (.pack (UnpackedFloat.ofScientific .binary64 1 k))).toModel.unpack
  rw [hround]
  generalize 1 <<< 53 * 10 ^ k = m at hleast hgreatest
  have htotal : totalExponent m (-53) ≤ 1023 := by
    rw [totalExponent]
    omega
  have hfits := fits_round .positive .exact htotal (by decide)
  obtain ⟨n, f, hn, hvalue, hdigits, hf⟩ := round_digits .positive .exact (m := m) (e := -53) (by omega) (by decide)
  rw [hvalue] at hfits ⊢
  exact large_pack .positive hn hdigits (by omega) hfits

theorem large_power {k : ℕ} (hpos : 0 < k) (hk : k < 309) :
    Large (Float.ofScientific 1 false k).toModel.unpack := by
  have hsmall : ∀ k < 23, 0 < k → Large (Float.ofScientific 1 false k).toModel.unpack := by decide +kernel
  obtain hlow | hlow := Nat.lt_or_ge k 23
  · exact hsmall k hlow hpos
  obtain hhigh | rfl := Nat.lt_or_eq_of_le (Nat.le_of_lt_succ hk)
  · rw [Float.ofScientific, dif_neg (by omega)]
    exact large_rounded_power hlow (Nat.le_of_lt_succ hhigh)
  · decide +kernel

end Large

section Arithmetic

theorem isFinite_round (s : Sign) (m : ℕ) (e : ℤ) (acc : Accuracy) :
    (roundWithAccuracy .binary64 s m e acc).isFinite = true := by
  rw [roundWithAccuracy]
  dsimp only
  split
  · rfl
  · rfl

theorem isFinite_mul {x y : Float} (hx : x.isFinite = true) (hy : y.isFinite = true)
    (hinf : (x * y).isInf = false) : (x * y).isFinite = true := by
  refine isFinite_pack_of_isInf (a := UnpackedFloat.mul .binary64 x.toModel.unpack y.toModel.unpack) ?_ hinf
  obtain ⟨s, hx⟩ | ⟨s, m, e, hm, hx, -⟩ := unpack_cases hx
  all_goals
    obtain ⟨t, hy⟩ | ⟨t, n, f, hn, hy, -⟩ := unpack_cases hy
    all_goals rw [hx, hy]
  · rfl
  · rfl
  · rfl
  · exact isFinite_round _ _ _ _

theorem fits_div {x : Float} {b : UnpackedFloat} (hx : x.isFinite = true) (hb : Large b) :
    Fits (UnpackedFloat.div .binary64 x.toModel.unpack b) := by
  obtain @⟨t, n, f, hn, hsize⟩ := hb
  obtain ⟨s, hx⟩ | ⟨s, m, e, hm, hx, hdigits, -, he⟩ := unpack_cases hx
  · rw [hx]
    trivial
  · have hlog : m.log2 < 53 := (Nat.log2_lt hm.ne').mpr hdigits
    rw [hx, UnpackedFloat.div, divCore]
    dsimp only
    have htarget := targetExponent_eq (totalExponent m e - totalExponent n f)
    generalize Format.binary64.targetExponent _ = target at htarget
    have hshift := log2_shiftLeft_le m (e - f - min (e - f) target).toNat
    have hquotient := log2_div_le (m <<< (e - f - min (e - f) target).toNat) hn
    rw [totalExponent] at hsize
    rw [totalExponent, totalExponent] at htarget
    apply fits_round
    · rw [totalExponent]
      omega
    · omega

theorem isFinite_div {x y : Float} (hx : x.isFinite = true) (hy : Large y.toModel.unpack) :
    (x / y).isFinite = true :=
  isFinite_pack (fits_div hx hy)

theorem isFinite_neg {x : Float} (hx : x.isFinite = true) : (-x).isFinite = true := by
  refine isFinite_pack (a := x.toModel.unpack.neg) ?_
  obtain ⟨s, hx⟩ | ⟨s, m, e, hm, hx, -, -, he⟩ := unpack_cases hx
  · rw [hx]
    trivial
  · rw [hx]
    exact he

theorem isFinite_toFloat (n : UInt64) : n.toFloat.isFinite = true := by
  have hsize : n.toNat.log2 ≤ 63 := log2_le n.toNat_lt
  apply isFinite_pack
  rw [UnpackedFloat.ofUInt64, UnpackedFloat.ofNat, UnpackedFloat.ofInt, UnpackedFloat.normalize]
  obtain hzero | hpos := n.toNat.eq_zero_or_pos
  · rw [hzero]
    trivial
  · rw [Int.compare_eq_gt.mpr (Int.natCast_pos.mpr hpos)]
    dsimp only
    rw [UnpackedFloat.round, Int.toNat_natCast, decreaseExponent]
    dsimp only
    have hshift := log2_shiftLeft_le n.toNat
      (0 - Format.binary64.targetExponent (totalExponent n.toNat 0)).toNat
    apply fits_round
    · rw [totalExponent]
      omega
    · omega

end Arithmetic

end PlayerAnimation.Double
