import PlayerAnimation.Proofs.Angle.Distance

namespace PlayerAnimation.SwingAngle

open Angle

variable {destination tolerance limit : ℝ}

theorem abs_diff_wrap360 {d : ℝ} (h : |d| < 180) : |diff destination (wrap360 (destination - d))| = |d| := by
  have hmod : destination - (destination - d) ≡ d [PMOD 360] := by rw [sub_sub_cancel]
  rw [abs_lt] at h
  rw [diff_wrap360, diff_eq_of_modEq hmod h.1 h.2.le]

theorem hold_close (hlimit : 1 / 2 ≤ limit) (angle : ℝ) :
    |diff destination (hold angle destination limit)| ≤ limit := by
  obtain ⟨hlow, hhigh⟩ := diff_mem destination angle
  have hback : |limit - 1| ≤ limit := by
    rw [abs_le]
    constructor <;> linarith
  simp only [hold, Exact.one_eq]
  split
  · next h =>
      rw [abs_diff_wrap360 (by linarith)]
      exact hback
  split
  · next h =>
      have hopp : destination + (limit - 1) = destination - -(limit - 1) := by ring
      rw [hopp, abs_diff_wrap360 (by rw [abs_neg]; linarith), abs_neg]
      exact hback
  · next h h' => exact abs_le.mpr ⟨not_lt.mp h', not_lt.mp h⟩

theorem awake_iff {s : SwingAngle ℝ} :
    s.awake destination tolerance = true ↔ s.swinging = true ∨ tolerance < |diff s.angle destination| := by
  rw [awake, Bool.or_eq_true, Bool.or_eq_true, decide_eq_true_iff, decide_eq_true_iff, lt_abs, lt_neg]

theorem swing_of_near {s : SwingAngle ℝ} (hrest : s.swinging = false)
    (hnear : |diff s.angle destination| ≤ tolerance) (speed duration : ℝ) :
    s.swing destination tolerance limit speed duration = s := by
  have hasleep : ¬ s.awake destination tolerance = true := by
    rw [awake_iff, hrest, not_or, not_lt]
    exact ⟨Bool.false_ne_true, hnear⟩
  rw [swing, if_neg hasleep]

theorem swing_close (s : SwingAngle ℝ) (hlimit : 1 / 2 ≤ limit) (htolerance : tolerance ≤ limit)
    (speed duration : ℝ) :
    |diff (s.swing destination tolerance limit speed duration).angle destination| ≤ limit := by
  rw [swing]
  split
  · rw [abs_diff_comm]
    exact hold_close hlimit _
  · next h =>
      rw [awake_iff, not_or, not_lt] at h
      exact h.2.trans htolerance

theorem swing_still (hself : 0 ≤ tolerance) (speed duration : ℝ) :
    (still destination).swing destination tolerance limit speed duration = still destination := by
  apply swing_of_near rfl
  rwa [still, diff_self, abs_zero]

section Limit

variable (s : SwingAngle ℝ) (destination tolerance speed duration : ℝ)

/-- After a swing the angle is within the limit exactly if it swung or was within the limit before. -/
theorem swing_within_iff (hlimit : 1 / 2 ≤ limit) :
    |diff destination (s.swing destination tolerance limit speed duration).angle| ≤ limit ↔
      s.swinging = true ∨ tolerance < |diff s.angle destination| ∨ |diff destination s.angle| ≤ limit := by
  rw [← or_assoc, ← awake_iff, swing]
  split
  · next h => exact iff_of_true (hold_close hlimit _) (Or.inl h)
  · next h => exact (or_iff_right h).symm

end Limit

theorem swing_within_iff_onTheWay :
    |diff 100 ((⟨0, true⟩ : SwingAngle ℝ).swing 100 90 45 0.001 50).angle| ≤ 45 :=
  (swing_within_iff ⟨0, true⟩ 100 90 0.001 50 (by norm_num)).mpr (Or.inl rfl)

theorem swing_beyond_limit : ¬ |diff 60 ((still 0 : SwingAngle ℝ).swing 60 90 45 0.2 50).angle| ≤ 45 := by
  have haway : diff (60 : ℝ) 0 = 60 := diff_eq_of_modEq (by rw [sub_zero]) (by norm_num) (by norm_num)
  have hnear : |diff (still (0 : ℝ)).angle 60| ≤ 90 := by
    rw [abs_diff_comm, still, haway]
    norm_num
  rw [swing_of_near rfl hnear, still, haway]
  norm_num

end PlayerAnimation.SwingAngle
