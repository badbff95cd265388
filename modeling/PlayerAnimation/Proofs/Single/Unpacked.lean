import PlayerAnimation.Proofs.Single.Rounding

namespace PlayerAnimation.Single

open Float.Model Float.Model.UnpackedFloat

def signed : Sign → ℚ → ℚ
  | .negative, x => -x
  | .positive, x => x

/-- The number that a float stands for. What is not a number stands for zero here. -/
def value : UnpackedFloat → ℚ
  | .finite s m e _ => signed s (m * 2 ^ e)
  | _ => 0

@[simp] theorem value_zero (s : Sign) : value (.zero s) = 0 := rfl

theorem value_finite (s : Sign) {m : ℕ} {e : ℤ} (h : 0 < m) :
    value (.finite s m e h) = signed s (m * 2 ^ e) := rfl

/-- What unpacking a number can give: a mantissa of 24 digits, all of them in use unless the exponent is the
least. -/
def Canonical : UnpackedFloat → Prop
  | .finite _ m e _ => m < 2 ^ 24 ∧ -149 ≤ e ∧ e ≤ 104 ∧ (2 ^ 23 ≤ m ∨ e = -149)
  | .zero _ => True
  | _ => False

/-- What a mantissa and its residual bits tell about a number. -/
structure Reads (em : ExtendedMantissa) (x : ℚ) : Prop where
  lower : em.mantissa ≤ x
  upper : x < em.mantissa + 1
  round : em.roundBit ↔ em.mantissa + 1 / 2 ≤ x
  sticky : em.stickyBit ↔ x ≠ em.mantissa ∧ x ≠ em.mantissa + 1 / 2

namespace Reads

variable {em : ExtendedMantissa} {x : ℚ}

theorem exact (m : ℕ) : Reads (.ofMantissaAndAccuracy m .exact) m where
  lower := le_refl _
  upper := by simp [ExtendedMantissa.ofMantissaAndAccuracy]
  round := by simp [ExtendedMantissa.ofMantissaAndAccuracy]
  sticky := by simp [ExtendedMantissa.ofMantissaAndAccuracy]

theorem inexact (h : Reads em x) : (em.roundBit || em.stickyBit) = true ↔ x ≠ em.mantissa := by
  rw [Bool.or_eq_true, h.round, h.sticky]
  constructor
  · rintro (hx | ⟨hx, -⟩)
    · exact fun e => by linarith
    · exact hx
  · intro hx
    by_cases hle : em.mantissa + 1 / 2 ≤ x
    · exact Or.inl hle
    · exact Or.inr ⟨hx, fun e => hle e.ge⟩

theorem shiftRightOne (h : Reads em x) : Reads em.shiftRightOne (x / 2) := by
  have hl := h.lower
  have hu := h.upper
  have hi := h.inexact
  obtain ⟨m, r, s⟩ := em
  dsimp only at hl hu hi
  obtain ⟨q, rfl | rfl⟩ : ∃ q, m = 2 * q ∨ m = 2 * q + 1 := ⟨m / 2, by omega⟩
  · have hs : ExtendedMantissa.shiftRightOne ⟨2 * q, r, s⟩ = ⟨q, false, r || s⟩ := by
      simp [ExtendedMantissa.shiftRightOne]
    push_cast at hl hu hi
    rw [hs]
    refine ⟨by dsimp only; linarith, by dsimp only; linarith, ?_, ?_⟩
    · simp only [Bool.false_eq_true, false_iff, not_le]
      linarith
    · rw [hi]
      exact ⟨fun hx => ⟨fun e => hx (by linarith), fun e => by linarith⟩,
        fun hx e => hx.1 (by linarith)⟩
  · have hs : ExtendedMantissa.shiftRightOne ⟨2 * q + 1, r, s⟩ = ⟨q, true, r || s⟩ := by
      simp [ExtendedMantissa.shiftRightOne]
      omega
    push_cast at hl hu hi
    rw [hs]
    refine ⟨by dsimp only; linarith, by dsimp only; linarith, ?_, ?_⟩
    · simp only [true_iff]
      linarith
    · rw [hi]
      exact ⟨fun hx => ⟨fun e => by linarith, fun e => hx (by linarith)⟩,
        fun hx e => hx.2 (by linarith)⟩

theorem shiftRight (h : Reads em x) (n : ℕ) : Reads (em >>> n) (x / 2 ^ n) := by
  induction n with
  | zero => simpa [HShiftRight.hShiftRight, Nat.repeat] using h
  | succ n ih =>
      rw [pow_succ, ← div_div]
      exact ih.shiftRightOne

theorem roundedMantissa_eq (h : Reads em x) : (em.roundedMantissa : ℤ) = nearest x := by
  have hf : ⌊x⌋ = em.mantissa := Int.floor_eq_iff.mpr ⟨by exact_mod_cast h.lower, by exact_mod_cast h.upper⟩
  have hfract : Int.fract x = x - em.mantissa := by rw [Int.fract, hf, Int.cast_natCast]
  have hr := h.round
  have hs := h.sticky
  rw [nearest, hfract, hf]
  obtain ⟨m, r, s⟩ := em
  cases r with
  | false =>
      have hlt : x - m < 1 / 2 := by
        simp only [Bool.false_eq_true, false_iff, not_le] at hr
        linarith
      rw [if_pos hlt]
      cases s <;> rfl
  | true =>
      have hle : m + 1 / 2 ≤ x := hr.mp rfl
      rw [if_neg (by linarith)]
      cases s with
      | false =>
          have hx : x = m + 1 / 2 := by
            by_contra hne
            exact absurd (hs.mpr ⟨fun e => by simp only at e; linarith, hne⟩) (by simp)
          rw [if_neg (by linarith)]
          simp [ExtendedMantissa.roundedMantissa, ExtendedMantissa.accuracy, Accuracy.roundToNearestEven]
      | true =>
          have hx := (hs.mp rfl).2
          rw [if_pos (by have := lt_of_le_of_ne hle (Ne.symm hx); linarith)]
          simp [ExtendedMantissa.roundedMantissa, ExtendedMantissa.accuracy, Accuracy.roundToNearestEven]

end Reads

section Round

variable {m : ℕ} {e : ℤ} {acc : Accuracy} {y : ℚ}

theorem log_eq (hm : m ≠ 0) (hl : m ≤ y) (hu : y < m + 1) : Int.log 2 (y * 2 ^ e) = m.log2 + e := by
  have hpos : 0 < y := lt_of_lt_of_le (by positivity) hl
  have hlow : ((2 ^ m.log2 : ℕ) : ℚ) ≤ m := by exact_mod_cast Nat.log2_self_le hm
  have hhigh : ((m + 1 : ℕ) : ℚ) ≤ (2 ^ (m.log2 + 1) : ℕ) := by exact_mod_cast Nat.lt_log2_self
  push_cast at hlow hhigh
  apply le_antisymm
  · have h : y * 2 ^ e < ((2 : ℕ) : ℚ) ^ ((m.log2 + e) + 1) := by
      calc y * 2 ^ e < 2 ^ (m.log2 + 1) * 2 ^ e := by gcongr; linarith
        _ = ((2 : ℕ) : ℚ) ^ ((m.log2 + e) + 1) := by
            rw [← zpow_natCast, ← zpow_add₀ (by norm_num)]
            push_cast
            ring_nf
    have := (Int.lt_zpow_iff_log_lt (by decide) (by positivity)).mp h
    omega
  · apply le_log_of_le
    calc (2 : ℚ) ^ (m.log2 + e) = 2 ^ m.log2 * 2 ^ e := by rw [zpow_add₀ (by norm_num), zpow_natCast]
      _ ≤ y * 2 ^ e := by gcongr; linarith

theorem targetExponent_eq (T : ℤ) : Format.binary32.targetExponent T = max (T - 24) (-149) := rfl

theorem place_eq_target (hm : m ≠ 0) (hl : m ≤ y) (hu : y < m + 1) :
    Format.binary32.targetExponent (totalExponent m e) = place (y * 2 ^ e) := by
  rw [targetExponent_eq, place, log_eq hm hl hu, totalExponent]
  omega

theorem target_eq_place (hy : Reads (.ofMantissaAndAccuracy m acc) y) (hpos : 0 < y)
    (he : e ≤ place (y * 2 ^ e)) :
    Format.binary32.targetExponent (totalExponent m e) = place (y * 2 ^ e) := by
  have hma : (ExtendedMantissa.ofMantissaAndAccuracy m acc).mantissa = m := by
    rcases acc with _ | _ | _ | _ <;> rfl
  have hl := hy.lower
  have hu := hy.upper
  rw [hma] at hl hu
  rcases Nat.eq_zero_or_pos m with rfl | hm
  · have hlog : Int.log 2 (y * 2 ^ e) < e := by
      apply (Int.lt_zpow_iff_log_lt (by decide) (by positivity)).mp
      push_cast
      calc y * 2 ^ e < (↑(0 : ℕ) + 1) * 2 ^ e := by gcongr
        _ = 2 ^ e := by simp
    rw [targetExponent_eq, totalExponent]
    have hlog0 : Nat.log2 0 = 0 := rfl
    have hplace := place_cases (y * 2 ^ e)
    omega
  · exact place_eq_target hm.ne' hl hu

theorem shift_reads (hy : Reads (.ofMantissaAndAccuracy m acc) y) (hpos : 0 < y)
    (he : e ≤ place (y * 2 ^ e)) :
    ∃ em, shiftToTargetExponent .binary32 m e acc = (em, place (y * 2 ^ e)) ∧
      Reads em (y * 2 ^ e / 2 ^ place (y * 2 ^ e)) := by
  have ht := target_eq_place hy hpos he
  generalize place (y * 2 ^ e) = p at ht he ⊢
  refine ⟨ExtendedMantissa.ofMantissaAndAccuracy m acc >>> (p - e).toNat, ?_, ?_⟩
  · rw [shiftToTargetExponent, ht, shiftToExponent]
    congr 1
    omega
  · have hs := hy.shiftRight (p - e).toNat
    have hz : (2 : ℚ) ^ p = 2 ^ (p - e).toNat * 2 ^ e := by
      rw [zpow_split he]
      push_cast
      rfl
    rw [hz, mul_div_mul_right _ _ (by positivity)]
    exact hs

theorem shift_exact {r : ℕ} {p : ℤ} (hp : -149 ≤ p) (hr : r < 2 ^ 24) :
    shiftToTargetExponent .binary32 r p .exact = (⟨r, false, false⟩, p) := by
  have ht : Format.binary32.targetExponent (totalExponent r p) ≤ p := by
    have : r.log2 < 24 := by
      rcases Nat.eq_zero_or_pos r with rfl | h
      · decide
      · exact (Nat.log2_lt h.ne').mpr hr
    rw [targetExponent_eq, totalExponent]
    omega
  have hn : (Format.binary32.targetExponent (totalExponent r p) - p).toNat = 0 := by omega
  simp [shiftToTargetExponent, shiftToExponent, hn, ExtendedMantissa.ofMantissaAndAccuracy,
    HShiftRight.hShiftRight, Nat.repeat]

theorem shift_carry {p : ℤ} (hp : -149 ≤ p) :
    shiftToTargetExponent .binary32 (2 ^ 24) p .exact = (⟨2 ^ 23, false, false⟩, p + 1) := by
  have ht : Format.binary32.targetExponent (totalExponent (2 ^ 24) p) = p + 1 := by
    rw [targetExponent_eq, totalExponent, Nat.log2_two_pow]
    omega
  have hn : (p + 1 - p).toNat = 1 := by omega
  rw [shiftToTargetExponent, ht, shiftToExponent, hn]
  rfl

theorem nearest_bounds {x : ℚ} (hx : 0 < x) :
    nearest (x / 2 ^ place x) ≤ 2 ^ 24 ∧ (2 ^ 23 ≤ nearest (x / 2 ^ place x) ∨ place x = -149) := by
  have hplace := place_cases x
  constructor
  · rw [← nearest_intCast (2 ^ 24)]
    apply nearest_mono
    rw [div_le_iff₀ (by positivity)]
    calc x ≤ ((2 : ℕ) : ℚ) ^ (Int.log 2 x + 1) := (Int.lt_zpow_succ_log_self (by decide) x).le
      _ ≤ 2 ^ (24 + place x) := by
          push_cast
          exact zpow_le_zpow_right₀ (by norm_num) (by omega)
      _ = ((2 ^ 24 : ℤ) : ℚ) * 2 ^ place x := by
          rw [zpow_add₀ (by norm_num)]
          norm_cast
  · by_cases hp : place x = -149
    · exact Or.inr hp
    left
    have hlog : place x = Int.log 2 x - 23 := by omega
    rw [← nearest_intCast (2 ^ 23)]
    apply nearest_mono
    rw [le_div_iff₀ (by positivity)]
    calc ((2 ^ 23 : ℤ) : ℚ) * 2 ^ place x = 2 ^ (23 + place x) := by
          rw [zpow_add₀ (by norm_num)]
          norm_cast
      _ = ((2 : ℕ) : ℚ) ^ Int.log 2 x := by
          rw [hlog]
          push_cast
          ring_nf
      _ ≤ x := Int.zpow_log_le_self (by decide) hx

theorem roundWithAccuracy_spec (s : Sign) (hy : Reads (.ofMantissaAndAccuracy m acc) y) (hpos : 0 < y)
    (he : e ≤ place (y * 2 ^ e)) (hmax : y * 2 ^ e < 2 ^ 127) :
    Canonical (roundWithAccuracy .binary32 s m e acc) ∧
      value (roundWithAccuracy .binary32 s m e acc) = signed s (roundAbs (y * 2 ^ e)) := by
  obtain ⟨em, hem, hread⟩ := shift_reads hy hpos he
  have hx : 0 < y * 2 ^ e := by positivity
  generalize y * 2 ^ e = x at hem hread hmax hx
  have hplace : -149 ≤ place x ∧ place x ≤ 103 := by
    have hlog : Int.log 2 x < 127 := (Int.lt_zpow_iff_log_lt (by decide) hx).mp hmax
    have hcases := place_cases x
    omega
  obtain ⟨hle, hge⟩ := nearest_bounds hx
  have hr := hread.roundedMantissa_eq
  have hround : roundAbs x = em.roundedMantissa * 2 ^ place x := by
    rw [roundAbs, ← hr]
    norm_cast
  rw [← hr] at hle hge
  rw [roundWithAccuracy, hem]
  dsimp only
  rw [hround]
  generalize em.roundedMantissa = r at hle hge
  rcases Nat.lt_or_ge r (2 ^ 24) with hlt | hfull
  · rw [shift_exact hplace.1 hlt]
    dsimp only
    split
    · next h0 =>
        rw [h0]
        cases s <;> simp [Canonical, value, signed]
    · exact ⟨⟨hlt, hplace.1, by omega, by omega⟩, rfl⟩
  · obtain rfl : r = 2 ^ 24 := by omega
    rw [shift_carry hplace.1]
    dsimp only
    rw [dif_neg (by decide)]
    refine ⟨⟨by decide, by omega, by omega, by omega⟩, ?_⟩
    rw [value, zpow_add₀ (by norm_num)]
    congr 1
    push_cast
    ring

end Round

end PlayerAnimation.Single
