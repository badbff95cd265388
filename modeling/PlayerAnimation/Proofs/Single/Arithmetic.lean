import PlayerAnimation.Number.Single
import PlayerAnimation.Proofs.Single.Unpacked

namespace PlayerAnimation.Single

open Float.Model Float.Model.UnpackedFloat

section Signs

theorem signed_apply (s : Sign) (n : ℕ) : ((s.apply n : ℤ) : ℚ) = signed s n := by
  cases s <;> simp [Sign.apply, signed]

theorem signed_mul (s : Sign) (x y : ℚ) : signed s (x * y) = signed s x * y := by
  cases s <;> simp [signed]

theorem signed_div (s t : Sign) (x y : ℚ) : signed (s / t) (x / y) = signed s x / signed t y := by
  cases s with
  | negative =>
      cases t with
      | negative => exact (neg_div_neg_eq x y).symm
      | positive => exact (neg_div y x).symm
  | positive =>
      cases t with
      | negative => exact (div_neg x).symm
      | positive => rfl

theorem signed_neg (s : Sign) (x : ℚ) : signed (-s) x = -signed s x := by
  cases s with
  | negative => exact (neg_neg x).symm
  | positive => rfl

theorem abs_signed (s : Sign) {x : ℚ} (h : 0 ≤ x) : |signed s x| = x := by
  cases s <;> simp [signed, abs_of_nonneg h]

theorem rounded_signed (s : Sign) {x : ℚ} (h : 0 ≤ x) : rounded (signed s x) = signed s (roundAbs x) := by
  cases s with
  | negative => rw [signed, signed, rounded_neg, rounded_of_nonneg h]
  | positive => rw [signed, signed, rounded_of_nonneg h]

end Signs

def Rounds (a : UnpackedFloat) (x : ℚ) : Prop := Canonical a ∧ value a = rounded x

theorem rounds_zero (s : Sign) : Rounds (.zero s) 0 :=
  ⟨trivial, by rw [value_zero, rounded_of_nonneg (le_refl _), roundAbs_zero]⟩

theorem decreaseExponent_eq (m : ℕ) (e t : ℤ) :
    ((decreaseExponent m e t).1 : ℚ) * 2 ^ (min e t) = m * 2 ^ e ∧
      (decreaseExponent m e t).2 = min e t := by
  have hsplit : (2 : ℚ) ^ e = 2 ^ (e - t).toNat * 2 ^ (min e t) := by
    rw [zpow_split (min_le_left e t)]
    push_cast
    congr 2
    omega
  constructor
  · rw [decreaseExponent, hsplit, Nat.shiftLeft_eq]
    push_cast
    ring
  · simp only [decreaseExponent]
    omega

theorem round_rounds (s : Sign) {m : ℕ} {e : ℤ} (hm : m ≠ 0) (hmax : m * (2 : ℚ) ^ e < 2 ^ 127) :
    Rounds (UnpackedFloat.round .binary32 s m e) (signed s (m * 2 ^ e)) := by
  have ht : Format.binary32.targetExponent (totalExponent m e) = place (m * 2 ^ e) :=
    place_eq_target hm (le_refl _) (by linarith)
  obtain ⟨hd, he⟩ := decreaseExponent_eq m e (place (m * 2 ^ e))
  rw [← he] at hd
  have hpos : 0 < ((decreaseExponent m e (place (m * 2 ^ e))).1 : ℚ) := by
    have hprod : 0 < m * (2 : ℚ) ^ e := by positivity
    rw [← hd] at hprod
    exact pos_of_mul_pos_left hprod (by positivity)
  have hs := roundWithAccuracy_spec s (Reads.exact _) hpos
    (by rw [hd, he]; exact min_le_right _ _) (by rw [hd]; exact hmax)
  rw [hd] at hs
  rw [UnpackedFloat.round, ht]
  exact ⟨hs.1, by rw [hs.2, rounded_signed s (by positivity)]⟩

theorem normalize_rounds (n : ℤ) (e : ℤ) (s : Sign) (hmax : |n * (2 : ℚ) ^ e| < 2 ^ 127) :
    Rounds (UnpackedFloat.normalize .binary32 n e s) (n * 2 ^ e) := by
  rw [UnpackedFloat.normalize]
  rcases lt_trichotomy n 0 with hn | rfl | hn
  · rw [Int.compare_eq_lt.mpr hn]
    have hc : (n : ℚ) = -((-n).toNat : ℕ) := by
      have : ((-n).toNat : ℤ) = -n := by omega
      rw [← Int.cast_natCast, this]
      push_cast
      ring
    rw [hc, neg_mul, abs_neg, abs_of_nonneg (by positivity)] at hmax
    rw [hc, neg_mul]
    exact round_rounds .negative (by omega) hmax
  · rw [Int.cast_zero, zero_mul]
    exact rounds_zero s
  · rw [Int.compare_eq_gt.mpr hn]
    have hc : (n : ℚ) = (n.toNat : ℕ) := by
      have : (n.toNat : ℤ) = n := by omega
      rw [← Int.cast_natCast, this]
    rw [hc, abs_of_nonneg (by positivity)] at hmax
    rw [hc]
    exact round_rounds .positive (by omega) hmax

theorem rounded_value {a : UnpackedFloat} (ha : Canonical a) : rounded (value a) = value a := by
  cases a with
  | infinity | notANumber => exact ha.elim
  | zero s => exact (rounds_zero s).2.symm
  | finite s m e hm =>
      obtain ⟨hlt, hlow, -, hfull⟩ := ha
      rw [value_finite, rounded_signed s (by positivity)]
      congr 1
      apply roundAbs_eq_self (n := m)
      have hlog : m.log2 < 24 := (Nat.log2_lt hm.ne').mpr hlt
      have hp : place (m * 2 ^ e) = e := by
        rw [place, log_eq hm.ne' (le_refl _) (by linarith)]
        rcases hfull with h | h
        · have : 23 ≤ m.log2 := (Nat.le_log2 hm.ne').mpr h
          omega
        · omega
      rw [hp]
      norm_cast

theorem sub_rounds {a b : UnpackedFloat} (ha : Canonical a) (hb : Canonical b)
    (hmax : |value a - value b| < 2 ^ 127) :
    Rounds (UnpackedFloat.sub .binary32 a b) (value a - value b) := by
  cases a with
  | infinity | notANumber => exact ha.elim
  | zero s =>
      cases b with
      | infinity | notANumber => exact hb.elim
      | zero t =>
          rw [value_zero, value_zero, sub_zero, UnpackedFloat.sub]
          split
          · exact rounds_zero _
          · exact rounds_zero _
      | finite t n f hn =>
          refine ⟨hb, ?_⟩
          rw [value_zero, zero_sub, rounded_neg, rounded_value hb]
          exact signed_neg t _
  | finite s m e hm =>
      cases b with
      | infinity | notANumber => exact hb.elim
      | zero t => exact ⟨ha, by rw [value_zero, sub_zero, rounded_value ha]; rfl⟩
      | finite t n f hn =>
          obtain ⟨hd, -⟩ := decreaseExponent_eq m e (min e f)
          obtain ⟨hd', -⟩ := decreaseExponent_eq n f (min e f)
          rw [min_eq_right (min_le_left e f)] at hd
          rw [min_eq_right (min_le_right e f)] at hd'
          have hv : ((s.apply (decreaseExponent m e (min e f)).1 -
              t.apply (decreaseExponent n f (min e f)).1 : ℤ) : ℚ) * 2 ^ min e f =
                value (.finite s m e hm) - value (.finite t n f hn) := by
            rw [Int.cast_sub, signed_apply, signed_apply, sub_mul, ← signed_mul, ← signed_mul, hd, hd']
            rfl
          rw [← hv] at hmax ⊢
          exact normalize_rounds _ _ _ hmax

theorem quotient_reads (m n : ℕ) (hn : 0 < n) :
    Reads (.ofMantissaAndAccuracy (m / n) (accuracyOfFraction (m % n) n)) (m / n : ℚ) := by
  have hn' : (0 : ℚ) < n := by exact_mod_cast hn
  have hx : (m / n : ℚ) = (m / n : ℕ) + (m % n : ℕ) / n := by
    have : (m : ℚ) = n * (m / n : ℕ) + (m % n : ℕ) := by exact_mod_cast (Nat.div_add_mod m n).symm
    field_simp
    exact this
  have hr : m % n < n := Nat.mod_lt m hn
  rw [hx]
  generalize m / n = q
  generalize m % n = r at hr
  have hr' : (r : ℚ) < n := by exact_mod_cast hr
  have hfrac : (r : ℚ) / n < 1 := (div_lt_one hn').mpr hr'
  have h0 : 0 ≤ (r : ℚ) / n := by positivity
  rcases Nat.eq_zero_or_pos r with rfl | hpos
  · simpa [accuracyOfFraction] using Reads.exact q
  have hpos' : 0 < (r : ℚ) / n := by positivity
  rw [accuracyOfFraction, if_neg hpos.ne']
  rcases lt_trichotomy (2 * r) n with h | h | h
  · have hhalf : (r : ℚ) / n < 1 / 2 := by
      rw [div_lt_iff₀ hn']
      have : (2 : ℚ) * r < n := by exact_mod_cast h
      linarith
    rw [Nat.compare_eq_lt.mpr h]
    refine ⟨by simpa [ExtendedMantissa.ofMantissaAndAccuracy] using h0, ?_, ?_, ?_⟩
    · simpa [ExtendedMantissa.ofMantissaAndAccuracy] using hfrac
    · simpa [ExtendedMantissa.ofMantissaAndAccuracy] using hhalf
    · simp only [ExtendedMantissa.ofMantissaAndAccuracy, true_iff]
      exact ⟨fun e => by linarith, fun e => by linarith⟩
  · have hhalf : (r : ℚ) / n = 1 / 2 := by
      rw [div_eq_iff hn'.ne']
      have : (2 : ℚ) * r = n := by exact_mod_cast h
      linarith
    rw [Nat.compare_eq_eq.mpr h, hhalf]
    refine ⟨?_, ?_, ?_, ?_⟩ <;> simp [ExtendedMantissa.ofMantissaAndAccuracy]
    norm_num
  · have hhalf : 1 / 2 < (r : ℚ) / n := by
      rw [lt_div_iff₀ hn']
      have : (n : ℚ) < 2 * r := by exact_mod_cast h
      linarith
    rw [Nat.compare_eq_gt.mpr h]
    refine ⟨by simpa [ExtendedMantissa.ofMantissaAndAccuracy] using h0, ?_, ?_, ?_⟩
    · simpa [ExtendedMantissa.ofMantissaAndAccuracy] using hfrac
    · simpa [ExtendedMantissa.ofMantissaAndAccuracy] using hhalf.le
    · simp only [ExtendedMantissa.ofMantissaAndAccuracy, true_iff]
      exact ⟨fun e => by linarith, fun e => by linarith⟩

theorem quotient_exponent {m n : ℕ} {e f : ℤ} (hm : 0 < m) (hn : 0 < n) :
    Format.binary32.targetExponent (totalExponent m e - totalExponent n f) ≤
      place (m * 2 ^ e / (n * 2 ^ f)) := by
  have hlow : (2 : ℚ) ^ (m.log2 + e) ≤ m * 2 ^ e := by
    rw [zpow_add₀ (by norm_num), zpow_natCast]
    gcongr
    exact_mod_cast Nat.log2_self_le hm.ne'
  have hhigh : n * (2 : ℚ) ^ f ≤ 2 ^ (n.log2 + 1 + f) := by
    rw [zpow_add₀ (by norm_num), ← Nat.cast_add_one, zpow_natCast]
    gcongr
    exact_mod_cast (Nat.lt_log2_self (n := n)).le
  have hlog : (m.log2 + e) - (n.log2 + 1 + f) ≤ Int.log 2 (m * (2 : ℚ) ^ e / (n * 2 ^ f)) := by
    apply le_log_of_le
    rw [zpow_sub₀ (by norm_num)]
    gcongr
  rw [targetExponent_eq, totalExponent, totalExponent, place]
  omega

theorem div_rounds {a b : UnpackedFloat} (ha : Canonical a) (hb : Canonical b) (h0 : value b ≠ 0)
    (hmax : |value a / value b| < 2 ^ 127) : Rounds (UnpackedFloat.div .binary32 a b) (value a / value b) := by
  cases b with
  | infinity | notANumber => exact hb.elim
  | zero t => exact absurd rfl h0
  | finite t n f hn =>
      cases a with
      | infinity | notANumber => exact ha.elim
      | zero s =>
          rw [value_zero, zero_div]
          exact rounds_zero _
      | finite s m e hm =>
          rw [value_finite, value_finite, ← signed_div] at hmax ⊢
          rw [abs_signed _ (by positivity)] at hmax
          have ht := quotient_exponent (e := e) (f := f) hm hn
          have hq : ∃ k : ℕ, ∃ p : ℤ, p ≤ place (m * 2 ^ e / (n * 2 ^ f)) ∧ e - f = p + k ∧
              divCore .binary32 m e n f =
                (m * 2 ^ k / n, p, accuracyOfFraction (m * 2 ^ k % n) n) := by
            rw [divCore, Nat.shiftLeft_eq]
            refine ⟨_, _, ?_, ?_, rfl⟩
            · omega
            · omega
          obtain ⟨k, p, hp, hk, hcore⟩ := hq
          have hx : ((m * 2 ^ k : ℕ) : ℚ) / n * 2 ^ p = m * 2 ^ e / (n * 2 ^ f) := by
            obtain rfl : e = f + (p + k) := by omega
            rw [zpow_add₀ (by norm_num), zpow_add₀ (by norm_num), zpow_natCast]
            push_cast
            field_simp
          have hs := roundWithAccuracy_spec (s / t) (e := p) (quotient_reads (m * 2 ^ k) n hn)
            (by positivity) (by rw [hx]; exact hp) (by rw [hx]; exact hmax)
          rw [hx] at hs
          rw [UnpackedFloat.div, hcore]
          exact ⟨hs.1, by rw [hs.2, rounded_signed _ (by positivity)]⟩

end PlayerAnimation.Single
