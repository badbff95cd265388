import PlayerAnimation.Proofs.Angle.Rotation

namespace PlayerAnimation.Angle

variable {a b d x : ℝ}

theorem wrap180_eq (x : ℝ) : wrap180 x = toIocMod degrees_pos (-180) x := by
  obtain ⟨hlow, hhigh⟩ := wrap360_mem x
  rw [eq_comm, toIocMod_eq_iff]
  refine ⟨?_, AddCommGroup.modEq_iff_eq_add_zsmul.mp (wrap180_modEq x)⟩
  simp only [wrap180, Exact.ofNat_eq]
  split
  · constructor <;> linarith
  · next h => constructor <;> linarith

theorem wrap360_of_mem (h : a ≡ x [PMOD 360]) (hlow : 0 ≤ x) (hhigh : x < 360) : wrap360 a = x := by
  rw [wrap360_congr h, wrap360_eq, toIcoMod_eq_self, zero_add]
  exact ⟨hlow, hhigh⟩

theorem wrap180_of_mem (h : a ≡ x [PMOD 360]) (hlow : -180 < x) (hhigh : x ≤ 180) : wrap180 a = x := by
  rw [wrap180_congr h, wrap180_eq, toIocMod_eq_self]
  constructor <;> linarith

theorem wrap180_mem (x : ℝ) : -180 < wrap180 x ∧ wrap180 x ≤ 180 := by
  obtain ⟨hlow, hhigh⟩ := toIocMod_mem_Ioc degrees_pos (-180) x
  rw [← wrap180_eq] at hlow hhigh
  exact ⟨hlow, by linarith⟩

theorem eq_wrap360_iff : x = wrap360 a ↔ (0 ≤ x ∧ x < 360) ∧ x ≡ a [PMOD 360] := by
  constructor
  · rintro rfl
    exact ⟨wrap360_mem a, wrap360_modEq a⟩
  · rintro ⟨⟨hlow, hhigh⟩, hmod⟩
    exact (wrap360_of_mem hmod.symm hlow hhigh).symm

theorem eq_wrap180_iff : x = wrap180 a ↔ (-180 < x ∧ x ≤ 180) ∧ x ≡ a [PMOD 360] := by
  constructor
  · rintro rfl
    exact ⟨wrap180_mem a, wrap180_modEq a⟩
  · rintro ⟨⟨hlow, hhigh⟩, hmod⟩
    exact (wrap180_of_mem hmod.symm hlow hhigh).symm

theorem wrap360_eq_iff : wrap360 a = wrap360 b ↔ a ≡ b [PMOD 360] := by
  rw [eq_wrap360_iff, and_iff_right (wrap360_mem a)]
  exact ⟨(wrap360_modEq a).symm.trans, (wrap360_modEq a).trans⟩

theorem wrap180_eq_iff : wrap180 a = wrap180 b ↔ a ≡ b [PMOD 360] := by
  rw [eq_wrap180_iff, and_iff_right (wrap180_mem a)]
  exact ⟨(wrap180_modEq a).symm.trans, (wrap180_modEq a).trans⟩

theorem diff_mem (a b : ℝ) : -180 < diff a b ∧ diff a b ≤ 180 := wrap180_mem (a - b)

theorem diff_eq_of_modEq (h : a - b ≡ d [PMOD 360]) (hlow : -180 < d) (hhigh : d ≤ 180) : diff a b = d :=
  wrap180_of_mem h hlow hhigh

theorem diff_wrap360 (a b : ℝ) : diff a (wrap360 b) = diff a b := wrap180_congr ((wrap360_modEq b).sub_left a)

theorem diff_add {turn : ℝ} (hlow : -180 < diff a b - turn) (hhigh : diff a b - turn ≤ 180) :
    diff a (b + turn) = diff a b - turn := by
  apply diff_eq_of_modEq _ hlow hhigh
  rw [← sub_sub]
  exact (diff_modEq a b).symm.sub_right turn

theorem add_diff_modEq (a b : ℝ) : b + diff a b ≡ a [PMOD 360] := by
  have h := (diff_modEq a b).add_left b
  rwa [add_sub_cancel] at h

theorem wrap360_add_diff (a b : ℝ) : wrap360 (b + diff a b) = wrap360 a := wrap360_congr (add_diff_modEq a b)

section Opposite

theorem diff_of_opposite (h : a - b ≡ 180 [PMOD 360]) : diff a b = 180 :=
  diff_eq_of_modEq h (by norm_num) le_rfl

theorem opposite_symm (h : a - b ≡ 180 [PMOD 360]) : b - a ≡ 180 [PMOD 360] := by
  have hneg := h.neg
  rw [neg_sub] at hneg
  exact hneg.trans (AddCommGroup.modEq_iff_zsmul.mpr ⟨1, by norm_num⟩)

theorem diff_eq_neg_iff : diff a b = -diff b a ↔ ¬ a - b ≡ 180 [PMOD 360] := by
  constructor
  · intro h hopposite
    rw [diff_of_opposite hopposite, diff_of_opposite (opposite_symm hopposite)] at h
    norm_num at h
  · intro hopposite
    obtain ⟨hlow, hhigh⟩ := diff_mem b a
    have hne : diff b a ≠ 180 := fun h => hopposite (opposite_symm (h ▸ (diff_modEq b a).symm))
    have hneg := (diff_modEq b a).neg
    rw [neg_sub] at hneg
    exact diff_eq_of_modEq hneg.symm (neg_lt_neg (lt_of_le_of_ne hhigh hne)) (by linarith)

end Opposite

theorem abs_diff_eq_dist (a b : ℝ) : |diff a b| = dist (a : AddCircle (360 : ℝ)) b := by
  have hclass : ((diff a b : ℝ) : AddCircle (360 : ℝ)) = a - b :=
    AddCommGroup.modEq_iff_eq_mod_zmultiples.mp (diff_modEq a b)
  obtain ⟨hlow, hhigh⟩ := diff_mem a b
  have hhalf : |diff a b| ≤ |(360 : ℝ)| / 2 := by
    rw [abs_of_pos degrees_pos, abs_le]
    constructor <;> linarith
  rw [dist_eq_norm, ← hclass, (AddCircle.norm_coe_eq_abs_iff 360 degrees_pos.ne').mpr hhalf]

theorem diff_eq_zero_iff : diff a b = 0 ↔ a ≡ b [PMOD 360] := by
  rw [← abs_eq_zero, abs_diff_eq_dist, dist_eq_zero, AddCommGroup.modEq_iff_eq_mod_zmultiples]

theorem diff_self (a : ℝ) : diff a a = 0 := diff_eq_zero_iff.mpr AddCommGroup.modEq_rfl

theorem abs_diff_comm (a b : ℝ) : |diff a b| = |diff b a| := by
  rw [abs_diff_eq_dist, abs_diff_eq_dist, dist_comm]

theorem abs_diff_triangle (a b c : ℝ) : |diff a c| ≤ |diff a b| + |diff b c| := by
  simp only [abs_diff_eq_dist]
  exact dist_triangle _ _ _

theorem abs_diff_le (h : x ≡ a - b [PMOD 360]) : |diff a b| ≤ |x| := by
  obtain ⟨hlow, hhigh⟩ := diff_mem a b
  obtain hshort | hlong := lt_or_ge |x| 180
  · obtain ⟨hlow, hhigh⟩ := abs_lt.mp hshort
    rw [diff_eq_of_modEq h.symm hlow hhigh.le]
  · exact (abs_le.mpr ⟨hlow.le, hhigh⟩).trans hlong

theorem isLeast_abs_diff (a b : ℝ) : IsLeast (Set.range fun k : ℤ => |a - b + 360 * k|) |diff a b| := by
  have hturns (k : ℤ) : a - b + k • 360 = a - b + 360 * k := by rw [zsmul_eq_mul, mul_comm]
  constructor
  · obtain ⟨k, hk⟩ := AddCommGroup.modEq_iff_eq_add_zsmul.mp (diff_modEq a b).symm
    rw [hk, hturns]
    exact Set.mem_range_self k
  · rintro _ ⟨k, rfl⟩
    exact abs_diff_le (AddCommGroup.modEq_iff_eq_add_zsmul.mpr ⟨k, (hturns k).symm⟩).symm

/-- The shortest rotation between two angles goes by their classes alone. Its length is the distance of these on
the circle and the least of all rotations, and it is reversed on the way back unless it is half a turn. -/
theorem distance_of_classes (a b : ℝ) :
    (∀ x, x = wrap360 a ↔ (0 ≤ x ∧ x < 360) ∧ x ≡ a [PMOD 360]) ∧
      (∀ x, x = wrap180 a ↔ (-180 < x ∧ x ≤ 180) ∧ x ≡ a [PMOD 360]) ∧
      (wrap360 a = wrap360 b ↔ wrap180 a = wrap180 b) ∧ (wrap180 a = wrap180 b ↔ a ≡ b [PMOD 360]) ∧
      (diff a b = -diff b a ↔ ¬ a - b ≡ 180 [PMOD 360]) ∧
      (a - b ≡ 180 [PMOD 360] → diff a b = 180 ∧ diff b a = 180) ∧
      diff (b + diff a b) a = 0 ∧
      |diff a b| = dist (a : AddCircle (360 : ℝ)) b ∧
      (|diff a b| = 0 ↔ a ≡ b [PMOD 360]) ∧ |diff a b| = |diff b a| ∧
      (∀ c, |diff a c| ≤ |diff a b| + |diff b c|) ∧
      IsLeast (Set.range fun k : ℤ => |a - b + 360 * k|) |diff a b| := by
  refine ⟨fun x => eq_wrap360_iff, fun x => eq_wrap180_iff, wrap360_eq_iff.trans wrap180_eq_iff.symm, wrap180_eq_iff,
    diff_eq_neg_iff, fun h => ⟨diff_of_opposite h, diff_of_opposite (opposite_symm h)⟩,
    diff_eq_zero_iff.mpr (add_diff_modEq a b), abs_diff_eq_dist a b, ?_, abs_diff_comm a b,
    abs_diff_triangle a b, isLeast_abs_diff a b⟩
  rw [abs_eq_zero, diff_eq_zero_iff]

end PlayerAnimation.Angle
