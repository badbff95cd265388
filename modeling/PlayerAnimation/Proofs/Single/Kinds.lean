import PlayerAnimation.Proofs.Single.Order

namespace PlayerAnimation.Single

open Float.Model Float.Model.UnpackedFloat

section Kinds

theorem canonical_normal (s : Sign) (exponent : BitVec 8) (mantissa : BitVec 23) (hlast : exponent ≠ -1#8)
    (hleast : exponent ≠ 0#8) (hpos : 0 < (1#1 ++ mantissa).toNat) :
    Canonical (.finite s (1#1 ++ mantissa).toNat (exponent.toNat - (127 + 23)) hpos) := by
  have hmantissa := mantissa.isLt
  have hexponent := exponent.isLt
  have hlow : exponent.toNat ≠ 0 := fun h => hleast (BitVec.eq_of_toNat_eq h)
  have hhigh : exponent.toNat ≠ 255 := fun h => hlast (BitVec.eq_of_toNat_eq h)
  rw [Canonical, implicit_bit]
  omega

theorem unpack_kinds (b : BitVec Format.binary32.numBits) :
    Canonical (unpack .binary32 b) ∨ (∃ s, unpack .binary32 b = .infinity s) ∨
      unpack .binary32 b = .notANumber := by
  rw [UnpackedFloat.unpack]
  split_ifs with hlast hzero hleast hnone
  · exact .inr (.inl ⟨_, rfl⟩)
  · exact .inr (.inr rfl)
  · exact .inl trivial
  · have hmantissa := (unpackMantissa b).isLt
    refine .inl ⟨hmantissa.trans (by decide), ?_, ?_, .inr ?_⟩
    all_goals
      rw [hleast]
      decide
  · exact .inl (canonical_normal _ (unpackExponent b) (unpackMantissa b) hlast hleast _)

end Kinds

section Clamp

theorem lt_iff_unpack {x y : Float32} : x < y ↔ x.toModel.unpack.lt y.toModel.unpack := decide_eq_true_iff

theorem infinity_lt {a : UnpackedFloat} (ha : Canonical a) : (UnpackedFloat.infinity .negative).lt a := by
  cases a with
  | infinity | notANumber => exact ha.elim
  | zero | finite => rfl

theorem lt_infinity {a : UnpackedFloat} (ha : Canonical a) : a.lt (.infinity .positive) := by
  cases a with
  | infinity | notANumber => exact ha.elim
  | zero s => rfl
  | finite s m e hm => cases s <;> rfl

variable {low high x : Float32} {l h q : ℚ}

theorem Represents.clamp (hlow : Represents low l) (hhigh : Represents high h) (hx : Represents x q)
    (hle : l ≤ h) : Represents (Scalar.clamp low high x) (max l (min h q)) := by
  have hbelow : x < low ↔ q < l := hx.lt_iff hlow
  have habove : high < x ↔ h < q := hhigh.lt_iff hx
  rw [Scalar.clamp]
  split
  · next hcut =>
      rw [min_eq_right ((hbelow.mp hcut).le.trans hle), max_eq_left (hbelow.mp hcut).le]
      exact hlow
  · next hcut =>
      have hlq : l ≤ q := not_lt.mp fun hlt => hcut (hbelow.mpr hlt)
      split
      · next hcut =>
          rw [min_eq_left (habove.mp hcut).le, max_eq_right hle]
          exact hhigh
      · next hcut =>
          rw [min_eq_right (not_lt.mp fun hlt => hcut (habove.mpr hlt)), max_eq_right hlq]
          exact hx

theorem clamp_kinds (hlow : Represents low l) (hhigh : Represents high h) (hle : l ≤ h) (x : Float32) :
    (∃ q, l ≤ q ∧ q ≤ h ∧ Represents (Scalar.clamp low high x) q) ∨
      (Scalar.clamp low high x).toModel.unpack = .notANumber := by
  obtain hnumber | ⟨s, hinfinite⟩ | hnan := unpack_kinds x.toModel.toBits.toBitVec
  · exact .inl ⟨_, le_max_left _ _, max_le hle (min_le_left _ _), hlow.clamp hhigh ⟨hnumber, rfl⟩ hle⟩
  · change x.toModel.unpack = .infinity s at hinfinite
    cases s with
    | negative =>
        have hcut : x < low := lt_iff_unpack.mpr (hinfinite ▸ infinity_lt hlow.canonical)
        rw [Scalar.clamp, if_pos hcut]
        exact .inl ⟨l, le_rfl, hle, hlow⟩
    | positive =>
        have hcut : high < x := lt_iff_unpack.mpr (hinfinite ▸ lt_infinity hhigh.canonical)
        rw [Scalar.clamp, if_pos hcut]
        split
        · exact .inl ⟨l, le_rfl, hle, hlow⟩
        · exact .inl ⟨h, hle, le_rfl, hhigh⟩
  · rw [Scalar.clamp]
    split_ifs
    · exact .inl ⟨l, le_rfl, hle, hlow⟩
    · exact .inl ⟨h, hle, le_rfl, hhigh⟩
    · exact .inr hnan

end Clamp

section Whole

theorem abs_roundToInt_le (s : Sign) (m : ℕ) (e : ℤ) : |(roundToInt s m e : ℚ)| ≤ m * 2 ^ e := by
  obtain ⟨hmantissa, hexponent⟩ := decreaseExponent_eq m e 0
  have hread := ((Reads.exact (decreaseExponent m e 0).1).shiftRight (0 - (decreaseExponent m e 0).2).toNat).lower
  rw [hexponent] at hread
  have hshift : ((decreaseExponent m e 0).1 : ℚ) / 2 ^ (0 - min e 0).toNat = m * 2 ^ e := by
    have hinverse : (2 : ℚ) ^ min e 0 = (2 ^ (0 - min e 0).toNat)⁻¹ := by
      rw [← zpow_natCast, ← zpow_neg]
      congr 1
      omega
    rw [← hmantissa, hinverse, div_eq_mul_inv]
  rw [hshift] at hread
  rw [roundToInt, signed_apply, abs_signed _ (Nat.cast_nonneg _)]
  dsimp only [shiftToExponent]
  rw [hexponent]
  exact hread

theorem toInt_notANumber {x : Float32} (h : x.toModel.unpack = .notANumber) : toInt x = 0 := by
  rw [toInt, h]
  rfl

theorem abs_toInt_le {x : Float32} {q : ℚ} {b : ℤ} (hx : Represents x q) (hb : b < 2 ^ 31) (hq : |q| ≤ b) :
    |toInt x| ≤ b := by
  obtain ⟨hcanonical, rfl⟩ := hx
  rw [toInt, UnpackedFloat.toInt32]
  generalize x.toModel.unpack = a at hcanonical hq
  cases a with
  | infinity | notANumber => exact hcanonical.elim
  | zero s =>
      have hpos : 0 ≤ b := by exact_mod_cast (abs_nonneg _).trans hq
      exact hpos
  | finite s m e hm =>
      have hwhole := abs_roundToInt_le s m e
      rw [value_finite, abs_signed s (by positivity)] at hq
      have hle : |roundToInt s m e| ≤ b := by exact_mod_cast hwhole.trans hq
      have hmin : Int32.minValue.toInt = -2 ^ 31 := rfl
      have hmax : Int32.maxValue.toInt = 2 ^ 31 - 1 := rfl
      rw [abs_le] at hle
      rw [UnpackedFloat.toInt, Int32.toInt_ofIntClamp (by omega) (by omega), abs_le]
      exact hle

end Whole

section Vanishing

inductive Vanishes : UnpackedFloat → Prop
  | zero (s : Sign) : Vanishes (.zero s)
  | notANumber : Vanishes .notANumber

variable {a b : UnpackedFloat}

theorem Vanishes.pack (h : Vanishes a) : Vanishes (Float32.ofModel (.pack a)).toModel.unpack := by
  cases h with
  | zero s => cases s <;> exact .zero _
  | notANumber => exact .notANumber

theorem Vanishes.mul (ha : Vanishes a) (hb : Vanishes b) : Vanishes (UnpackedFloat.mul .binary32 a b) := by
  cases ha with
  | notANumber => exact .notANumber
  | zero s =>
      cases hb with
      | notANumber => exact .notANumber
      | zero t => exact .zero _

theorem Vanishes.add (ha : Vanishes a) (hb : Vanishes b) : Vanishes (UnpackedFloat.add .binary32 a b) := by
  cases ha with
  | notANumber => exact .notANumber
  | zero s =>
      cases hb with
      | notANumber => exact .notANumber
      | zero t => cases s <;> cases t <;> exact .zero _

theorem Vanishes.sqrt (ha : Vanishes a) : Vanishes (UnpackedFloat.sqrt .binary32 a) := by
  cases ha with
  | notANumber => exact .notANumber
  | zero s => exact .zero s

theorem Vanishes.div (ha : Vanishes a) (b : UnpackedFloat) : Vanishes (UnpackedFloat.div .binary32 a b) := by
  cases ha with
  | notANumber => exact .notANumber
  | zero s =>
      cases b with
      | notANumber | zero => exact .notANumber
      | infinity | finite => exact .zero _

theorem vanishes_sub_self (a : UnpackedFloat) : Vanishes (UnpackedFloat.sub .binary32 a a) := by
  cases a with
  | notANumber => exact .notANumber
  | infinity s => cases s <;> exact .notANumber
  | zero s => cases s <;> exact .zero _
  | finite s m e hm =>
      rw [UnpackedFloat.sub]
      dsimp only
      rw [sub_self]
      exact .zero _

theorem not_lt_of_vanishes {c x : Float32} {q : ℚ} (hc : Represents c q) (hq : 0 ≤ q)
    (hx : Vanishes x.toModel.unpack) : ¬ c < x := by
  intro hlt
  generalize hkind : x.toModel.unpack = a at hx
  cases hx with
  | zero s =>
      have hzero : Represents x 0 := ⟨by rw [hkind]; trivial, by rw [hkind]; rfl⟩
      exact absurd ((hc.lt_iff hzero).mp hlt) (not_lt.mpr hq)
  | notANumber =>
      rw [lt_iff_unpack, hkind] at hlt
      generalize c.toModel.unpack = b at hlt
      cases b <;> cases hlt

end Vanishing

end PlayerAnimation.Single
