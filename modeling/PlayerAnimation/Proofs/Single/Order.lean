import PlayerAnimation.Proofs.Single.Arithmetic

namespace PlayerAnimation.Single

open Float.Model Float.Model.UnpackedFloat

section Packing

theorem sign_packComponents {spec : Format} (s : Sign) (exponent : BitVec spec.exponentBits)
    (mantissa : BitVec spec.mantissaBitsWithoutImplicit) :
    Sign.ofBitVec (unpackSign (packComponents spec s exponent mantissa)) = s := by
  have h : unpackSign (packComponents spec s exponent mantissa) = s.toBitVec := by
    apply BitVec.eq_of_getLsbD_eq
    intro i hi
    obtain rfl : i = 0 := by omega
    simp [unpackSign, packComponents, BitVec.getLsbD_append, BitVec.getElem_append]
  rw [h]
  cases s <;> rfl

theorem implicit_bit (mantissa : BitVec 23) : (1#1 ++ mantissa).toNat = 2 ^ 23 + mantissa.toNat := by
  rw [BitVec.toNat_append, ← Nat.shiftLeft_add_eq_or_of_lt mantissa.isLt]
  rfl

theorem ofNat_ne {w n : ℕ} {x : BitVec w} (hn : n < 2 ^ w) (h : n ≠ x.toNat) : BitVec.ofNat w n ≠ x := by
  rintro rfl
  rw [BitVec.toNat_ofNat, Nat.mod_eq_of_lt hn] at h
  exact h rfl

theorem unpack_normal (s : Sign) {b m : ℕ} (hb : 0 < b) (hb' : b < 255) (hm : 2 ^ 23 ≤ m)
    (hm' : m < 2 ^ 24) :
    UnpackedFloat.unpack .binary32 (packComponents .binary32 s (.ofNat 8 b) (.ofNat 23 m)) =
      .finite s m (b - 150) (by omega) := by
  have hne : BitVec.ofNat 8 b ≠ -1#8 := ofNat_ne (by omega) hb'.ne
  have hne0 : BitVec.ofNat 8 b ≠ 0#8 := ofNat_ne (by omega) hb.ne'
  simp only [UnpackedFloat.unpack, unpackExponent_packComponents, unpackMantissa_packComponents,
    sign_packComponents]
  rw [if_neg hne, if_neg hne0, UnpackedFloat.finite.injEq]
  refine ⟨rfl, ?_, ?_⟩
  · rw [implicit_bit, BitVec.toNat_ofNat]
    omega
  · have : Format.exponentBias .binary32 = 127 := rfl
    rw [this, BitVec.toNat_ofNat]
    omega

theorem unpack_subnormal (s : Sign) {m : ℕ} (hm : 0 < m) (hm' : m < 2 ^ 23) :
    UnpackedFloat.unpack .binary32 (packComponents .binary32 s 0#8 (.ofNat 23 m)) =
      .finite s m (-149) hm := by
  have hne0 : BitVec.ofNat 23 m ≠ 0#23 := ofNat_ne hm' hm.ne'
  simp only [UnpackedFloat.unpack, unpackExponent_packComponents, unpackMantissa_packComponents,
    sign_packComponents]
  rw [if_neg (by decide), if_pos trivial, dif_neg hne0, UnpackedFloat.finite.injEq]
  refine ⟨rfl, ?_, rfl⟩
  rw [BitVec.toNat_ofNat]
  omega

theorem unpack_pack {a : UnpackedFloat} (h : Canonical a) :
    UnpackedFloat.unpack .binary32 (UnpackedFloat.pack .binary32 a) = a := by
  cases a with
  | infinity | notANumber => exact h.elim
  | zero s =>
      cases s <;> rfl
  | finite s m e hm =>
      obtain ⟨hlt, hlow, hhigh, hfull⟩ := h
      have hb : (e + (Format.exponentBias .binary32 : ℕ) + (23 : ℕ)).toNat = (e + 150).toNat := by
        have : Format.exponentBias .binary32 = 127 := rfl
        rw [this]
        omega
      have hsmall : ¬ 2 ^ 8 ≤ (e + 150).toNat + 1 := by omega
      rw [UnpackedFloat.pack, hb, if_neg hsmall]
      have hlog : m.log2 + 1 = Format.mantissaBits .binary32 ↔ 2 ^ 23 ≤ m := by
        have hbits : Format.mantissaBits .binary32 = 24 := rfl
        have : m.log2 < 24 := (Nat.log2_lt hm.ne').mpr hlt
        rw [hbits, ← Nat.le_log2 hm.ne']
        omega
      split
      · next hn =>
          rw [unpack_normal s (by omega) (by omega) (hlog.mp hn) hlt, UnpackedFloat.finite.injEq]
          exact ⟨rfl, rfl, by omega⟩
      · next hn =>
          rw [hlog, not_le] at hn
          rw [unpack_subnormal s hm hn, UnpackedFloat.finite.injEq]
          exact ⟨rfl, rfl, by omega⟩

end Packing

section Compare

theorem le_of_abs_le {m n : ℕ} {e f : ℤ} (hn : n < 2 ^ 24) (hf : -149 ≤ f)
    (hfull : 2 ^ 23 ≤ m ∨ e = -149) (h : m * (2 : ℚ) ^ e ≤ n * 2 ^ f) :
    e < f ∨ e = f ∧ m ≤ n := by
  rcases lt_trichotomy e f with hlt | rfl | hgt
  · exact Or.inl hlt
  · exact Or.inr ⟨rfl, by exact_mod_cast le_of_mul_le_mul_right h (by positivity)⟩
  · -- a larger exponent comes with all digits in use
    exfalso
    have hm : ((2 ^ 23 : ℕ) : ℚ) ≤ m := by
      have : 2 ^ 23 ≤ m := by omega
      exact_mod_cast this
    have hn' : (n : ℚ) < (2 ^ 24 : ℕ) := by exact_mod_cast hn
    have hpow : (2 : ℚ) ^ (f + 1) ≤ 2 ^ e := zpow_le_zpow_right₀ (by norm_num) (by omega)
    have hlt : n * (2 : ℚ) ^ f < m * 2 ^ e :=
      calc n * (2 : ℚ) ^ f < (2 ^ 24 : ℕ) * 2 ^ f := by gcongr
        _ = (2 ^ 23 : ℕ) * 2 ^ (f + 1) := by
            rw [zpow_add₀ (by norm_num)]
            push_cast
            ring
        _ ≤ m * 2 ^ e := by gcongr
    linarith

theorem compare_isLE {m n : ℕ} {e f : ℤ} (h : e < f ∨ e = f ∧ m ≤ n) :
    ((compare e f).then (compare m n)).isLE := by
  rcases h with h | ⟨rfl, h⟩
  · rw [Int.compare_eq_lt.mpr h]
    rfl
  · rw [compare_eq_iff_eq.mpr rfl]
    simpa [Nat.isLE_compare] using h

theorem le_of_value_le {a b : UnpackedFloat} (ha : Canonical a) (hb : Canonical b)
    (h : value a ≤ value b) : a.le b := by
  cases a with
  | infinity | notANumber => exact ha.elim
  | zero s =>
      cases b with
      | infinity | notANumber => exact hb.elim
      | zero t => rfl
      | finite t n f hn =>
          cases t with
          | positive => rfl
          | negative =>
              have hpos : 0 < n * (2 : ℚ) ^ f := by positivity
              rw [value_zero, value_finite, signed] at h
              linarith
  | finite s m e hm =>
      cases b with
      | infinity | notANumber => exact hb.elim
      | zero t =>
          cases s with
          | negative => rfl
          | positive =>
              have hpos : 0 < m * (2 : ℚ) ^ e := by positivity
              rw [value_zero, value_finite, signed] at h
              linarith
      | finite t n f hn =>
          have hpos : 0 < m * (2 : ℚ) ^ e := by positivity
          have hpos' : 0 < n * (2 : ℚ) ^ f := by positivity
          obtain ⟨hm24, he, -, hfull⟩ := ha
          obtain ⟨hn24, hf, -, hfull'⟩ := hb
          rw [value_finite, value_finite] at h
          cases s with
          | positive =>
              cases t with
              | positive => exact compare_isLE (le_of_abs_le hn24 hf hfull h)
              | negative =>
                  rw [signed, signed] at h
                  linarith
          | negative =>
              cases t with
              | positive => rfl
              | negative =>
                  have hc := compare_isLE (le_of_abs_le hm24 he hfull' (neg_le_neg_iff.mp h))
                  rw [← Int.compare_swap, ← Nat.compare_swap, ← Ordering.swap_then] at hc
                  exact hc

theorem compare_swap {a b : UnpackedFloat} (ha : Canonical a) (hb : Canonical b) :
    ∃ o, a.compare b = some o ∧ b.compare a = some o.swap := by
  cases a with
  | infinity | notANumber => exact ha.elim
  | zero s =>
      cases b with
      | infinity | notANumber => exact hb.elim
      | zero t => exact ⟨.eq, rfl, rfl⟩
      | finite t n f hn => cases t <;> exact ⟨_, rfl, rfl⟩
  | finite s m e hm =>
      cases b with
      | infinity | notANumber => exact hb.elim
      | zero t => cases s <;> exact ⟨_, rfl, rfl⟩
      | finite t n f hn =>
          have hswap : ((compare e f).then (compare m n)).swap = (compare f e).then (compare n m) := by
            rw [Ordering.swap_then, Int.compare_swap, Nat.compare_swap]
          cases s with
          | positive =>
              cases t with
              | positive => exact ⟨_, rfl, congrArg some hswap.symm⟩
              | negative => exact ⟨_, rfl, rfl⟩
          | negative =>
              cases t with
              | positive => exact ⟨_, rfl, rfl⟩
              | negative =>
                  refine ⟨_, rfl, ?_⟩
                  rw [hswap]
                  rfl

theorem lt_iff_not_le {a b : UnpackedFloat} (ha : Canonical a) (hb : Canonical b) : a.lt b ↔ ¬ b.le a := by
  obtain ⟨o, hab, hba⟩ := compare_swap ha hb
  rw [UnpackedFloat.lt, UnpackedFloat.le, hab, hba]
  cases o <;> decide

theorem value_eq_of_compare {a b : UnpackedFloat} (ha : Canonical a) (hb : Canonical b)
    (h : a.compare b = some .eq) : value a = value b := by
  cases a with
  | infinity | notANumber => exact ha.elim
  | zero s =>
      cases b with
      | infinity | notANumber => exact hb.elim
      | zero t => rfl
      | finite t n f hn => cases t <;> cases h
  | finite s m e hm =>
      cases b with
      | infinity | notANumber => exact hb.elim
      | zero t => cases s <;> cases h
      | finite t n f hn =>
          have hsame (h : (compare e f).then (compare m n) = .eq) : e = f ∧ m = n := by
            rw [Ordering.then_eq_eq, compare_eq_iff_eq, compare_eq_iff_eq] at h
            exact h
          cases s with
          | positive =>
              cases t with
              | positive =>
                  obtain ⟨rfl, rfl⟩ := hsame (Option.some.inj h)
                  rfl
              | negative => cases h
          | negative =>
              cases t with
              | positive => cases h
              | negative =>
                  obtain ⟨rfl, rfl⟩ := hsame (Ordering.swap_eq_eq.mp (Option.some.inj h))
                  rfl

theorem value_le_of_le {a b : UnpackedFloat} (ha : Canonical a) (hb : Canonical b) (h : a.le b) :
    value a ≤ value b := by
  by_contra hlt
  rw [not_le] at hlt
  have hba := le_of_value_le hb ha hlt.le
  obtain ⟨o, hab, hswap⟩ := compare_swap ha hb
  rw [UnpackedFloat.le, hab] at h
  rw [UnpackedFloat.le, hswap] at hba
  cases o with
  | eq => exact hlt.ne (value_eq_of_compare ha hb hab).symm
  | lt => cases hba
  | gt => cases h

end Compare

structure Represents (x : Float32) (q : ℚ) : Prop where
  canonical : Canonical x.toModel.unpack
  value_eq : value x.toModel.unpack = q

namespace Represents

variable {x y : Float32} {p q : ℚ}

theorem of_rounds {a : UnpackedFloat} (h : Rounds a q) : Represents (.ofModel (.pack a)) (rounded q) := by
  have hu : (Float32.ofModel (.pack a)).toModel.unpack = a := unpack_pack h.1
  constructor
  · rw [hu]
    exact h.1
  · rw [hu]
    exact h.2

theorem ofInt {n : ℤ} (h : |n| < 2 ^ 127) : Represents (ofInt n) (rounded n) := by
  have hn := normalize_rounds n 0 .positive (by
    rw [zpow_zero, mul_one]
    exact_mod_cast h)
  rw [zpow_zero, mul_one] at hn
  exact of_rounds hn

theorem whole {n : ℤ} (hx : x = Single.ofInt n) (h : |n| < 2 ^ 24) : Represents x n := by
  have hn := ofInt (h.trans (by norm_num))
  rwa [rounded_intCast h, ← hx] at hn

theorem sub (hx : Represents x p) (hy : Represents y q) (h : |p - q| < 2 ^ 127) :
    Represents (x - y) (rounded (p - q)) := by
  obtain ⟨hcx, rfl⟩ := hx
  obtain ⟨hcy, rfl⟩ := hy
  exact of_rounds (sub_rounds hcx hcy h)

theorem div (hx : Represents x p) (hy : Represents y q) (h0 : q ≠ 0) (h : |p / q| < 2 ^ 127) :
    Represents (x / y) (rounded (p / q)) := by
  obtain ⟨hcx, rfl⟩ := hx
  obtain ⟨hcy, rfl⟩ := hy
  exact of_rounds (div_rounds hcx hcy h0 h)

theorem le (hx : Represents x p) (hy : Represents y q) (h : p ≤ q) : x ≤ y := by
  obtain ⟨hcx, rfl⟩ := hx
  obtain ⟨hcy, rfl⟩ := hy
  have hle : x.toModel ≤ y.toModel := le_of_value_le hcx hcy h
  exact decide_eq_true hle

theorem le_iff (hx : Represents x p) (hy : Represents y q) : x ≤ y ↔ p ≤ q := by
  refine ⟨fun h => ?_, hx.le hy⟩
  have hle : x.toModel ≤ y.toModel := of_decide_eq_true h
  rw [← hx.value_eq, ← hy.value_eq]
  exact value_le_of_le hx.canonical hy.canonical hle

theorem lt_iff (hx : Represents x p) (hy : Represents y q) : x < y ↔ p < q := by
  have hmodel : x < y ↔ x.toModel.unpack.lt y.toModel.unpack := decide_eq_true_iff
  have hle : y ≤ x ↔ y.toModel.unpack.le x.toModel.unpack := decide_eq_true_iff
  rw [hmodel, lt_iff_not_le hx.canonical hy.canonical, ← hle, hy.le_iff hx, not_le]

end Represents

theorem zero_represents : Represents 0 0 := ⟨trivial, rfl⟩

theorem one_represents : Represents 1 1 := by
  have hu : (1 : Float32).toModel.unpack = .finite .positive (2 ^ 23) (-23) (by decide) := by rfl
  constructor
  · rw [hu]
    exact ⟨by decide, by decide, by decide, by decide⟩
  · rw [hu, value_finite, signed]
    norm_num

def share (left whole : ℤ) : ℚ := rounded (rounded left / rounded whole)

theorem one_le_rounded {n : ℤ} (h : 0 < n) : 1 ≤ rounded n := by
  rw [← rounded_one]
  exact rounded_mono (by exact_mod_cast h)

theorem share_mono {left left' whole : ℤ} (hw : 0 < whole) (h : left' ≤ left) :
    share left' whole ≤ share left whole := by
  have hpos : 0 < rounded whole := one_pos.trans_le (one_le_rounded hw)
  have hl : rounded left' ≤ rounded left := rounded_mono (by exact_mod_cast h)
  exact rounded_mono (by gcongr)

theorem share_zero (whole : ℤ) : share 0 whole = 0 := by
  rw [share, Int.cast_zero, rounded_zero, zero_div, rounded_zero]

theorem share_self {whole : ℤ} (hw : 0 < whole) : share whole whole = 1 := by
  have hpos : 0 < rounded whole := one_pos.trans_le (one_le_rounded hw)
  rw [share, div_self hpos.ne']
  exact rounded_one

theorem abs_rounded_div_le {left whole : ℤ} (hw : 0 < whole) (hl : |left| ≤ 2 ^ 31) :
    |rounded left / rounded whole| ≤ 2 ^ (31 : ℤ) := by
  have hone := one_le_rounded hw
  have hleft : |rounded left| ≤ 2 ^ (31 : ℤ) := abs_rounded_le (by decide) (by exact_mod_cast hl)
  have hpos : 0 < rounded whole := one_pos.trans_le hone
  rw [abs_div, abs_of_pos hpos]
  exact (div_le_self (abs_nonneg _) hone).trans hleft

theorem fraction_represents {left whole : ℤ} (hw : 0 < whole) (hw' : whole ≤ 2 ^ 31)
    (hl : |left| ≤ 2 ^ 31) :
    Represents (1 - ofInt left / ofInt whole) (rounded (1 - share left whole)) := by
  have hquot := abs_rounded_div_le hw hl
  have hshare : |share left whole| ≤ 2 ^ (31 : ℤ) := abs_rounded_le (by decide) hquot
  have hleft : Represents (ofInt left) (rounded left) :=
    Represents.ofInt (hl.trans_lt (by norm_num))
  have hwhole : Represents (ofInt whole) (rounded whole) :=
    Represents.ofInt (by rw [abs_of_pos hw]; exact hw'.trans_lt (by norm_num))
  have hdiv : Represents (ofInt left / ofInt whole) (share left whole) :=
    hleft.div hwhole (by linarith [one_le_rounded hw]) (hquot.trans_lt (by norm_num))
  refine one_represents.sub hdiv ?_
  calc |1 - share left whole| ≤ |1| + |share left whole| := abs_sub _ _
    _ ≤ 1 + 2 ^ (31 : ℤ) := by
        rw [abs_one]
        gcongr
    _ < 2 ^ 127 := by norm_num

theorem rounded_rest_antitone {left left' whole : ℤ} (hw : 0 < whole) (h : left' ≤ left) :
    rounded (1 - share left whole) ≤ rounded (1 - share left' whole) :=
  rounded_mono (sub_le_sub_left (share_mono hw h) 1)

theorem fraction_antitone {left left' whole : ℤ} (hw : 0 < whole) (hw' : whole ≤ 2 ^ 31)
    (hl : |left| ≤ 2 ^ 31) (hl' : |left'| ≤ 2 ^ 31) (h : left' ≤ left) :
    (1 : Float32) - ofInt left / ofInt whole ≤ 1 - ofInt left' / ofInt whole :=
  (fraction_represents hw hw' hl).le (fraction_represents hw hw' hl') (rounded_rest_antitone hw h)

end Single

theorem scalar_zero : @OfNat.ofNat Float32 0 (Scalar.instOfNat 0) = 0 := by decide

theorem scalar_one : @OfNat.ofNat Float32 1 (Scalar.instOfNat 1) = 1 := by decide

end PlayerAnimation
