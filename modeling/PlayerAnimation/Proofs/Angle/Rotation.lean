import PlayerAnimation.Angle.Swing
import PlayerAnimation.Proofs.Exact

namespace PlayerAnimation

theorem rel_ite {β : Type} {R : β → β → Prop} {p : Prop} [Decidable p] {a a' b b' : β} (ha : R a a')
    (hb : R b b') : R (if p then a else b) (if p then a' else b') := by
  by_cases hp : p
  · rwa [if_pos hp, if_pos hp]
  · rwa [if_neg hp, if_neg hp]

namespace Angle

variable {a a' : ℝ}

theorem degrees_pos : (0 : ℝ) < 360 := by norm_num

theorem wrap360_eq (x : ℝ) : wrap360 x = toIcoMod degrees_pos 0 x := by
  obtain ⟨hlow, hhigh⟩ := abs_lt.mp (Exact.remainder_bounds degrees_pos x)
  have hmod := Exact.remainder_modEq x 360
  have hrest : wrap360 x =
      if Scalar.remainder x 360 < (0 : ℝ) then Scalar.remainder x 360 + 360
      else Scalar.remainder x 360 := by
    simp only [wrap360, Exact.zero_eq, Exact.ofNat_eq]
    refine if_neg (not_le.mpr ?_)
    split
    · linarith
    · exact hhigh
  rw [hrest, eq_comm, toIcoMod_eq_iff, zero_add]
  split
  · next h =>
      have hturn := (AddCommGroup.add_modEq_left.mpr AddCommGroup.self_modEq_zero).trans hmod
      exact ⟨⟨by linarith, by linarith⟩, AddCommGroup.modEq_iff_eq_add_zsmul.mp hturn⟩
  · next h => exact ⟨⟨not_lt.mp h, hhigh⟩, AddCommGroup.modEq_iff_eq_add_zsmul.mp hmod⟩

theorem wrap360_mem (x : ℝ) : 0 ≤ wrap360 x ∧ wrap360 x < 360 := by
  obtain ⟨hlow, hhigh⟩ := toIcoMod_mem_Ico degrees_pos 0 x
  rw [← wrap360_eq] at hlow hhigh
  exact ⟨hlow, by rwa [zero_add] at hhigh⟩

theorem wrap360_modEq (x : ℝ) : wrap360 x ≡ x [PMOD 360] := by
  rw [wrap360_eq, AddCommGroup.modEq_iff_zsmul]
  exact ⟨_, (self_sub_toIcoMod degrees_pos 0 x).symm⟩

theorem wrap360_congr (h : a' ≡ a [PMOD 360]) : wrap360 a' = wrap360 a := by
  rw [wrap360_eq, wrap360_eq, toIcoMod_eq_toIcoMod]
  exact AddCommGroup.modEq_iff_zsmul'.mp h

theorem wrap180_modEq (x : ℝ) : wrap180 x ≡ x [PMOD 360] := by
  have h := wrap360_modEq x
  simp only [wrap180, Exact.ofNat_eq]
  split
  · have hturn : x + 360 ≡ x [PMOD 360] := AddCommGroup.add_modEq_left.mpr AddCommGroup.self_modEq_zero
    exact AddCommGroup.sub_modEq_iff_modEq_add.mpr (h.trans hturn.symm)
  · exact h

theorem diff_modEq (a b : ℝ) : diff a b ≡ a - b [PMOD 360] := wrap180_modEq (a - b)

theorem wrap180_congr (h : a' ≡ a [PMOD 360]) : wrap180 a' = wrap180 a := by
  rw [wrap180, wrap180, wrap360_congr h]

/-- An angle as another one is, but turned by `δ`, whole turns aside. -/
def Turned (δ a a' : ℝ) : Prop := a' ≡ a + δ [PMOD 360]

namespace Turned

variable {δ b b' : ℝ}

theorem wrap360 (h : Turned δ a a') : Turned δ (wrap360 a) (wrap360 a') :=
  ((wrap360_modEq a').trans h).trans ((wrap360_modEq a).symm.add_right δ)

theorem add (h : Turned δ a a') (d : ℝ) : Turned δ (a + d) (a' + d) := by
  rw [Turned, add_right_comm]
  exact h.add_right d

theorem sub (h : Turned δ a a') (d : ℝ) : Turned δ (a - d) (a' - d) := by
  rw [Turned, sub_add_eq_add_sub]
  exact h.sub_right d

theorem diff_eq (ha : Turned δ a a') (hb : Turned δ b b') : diff a' b' = diff a b := by
  have h : a' - b' ≡ a - b [PMOD 360] := by
    have hsub := AddCommGroup.ModEq.sub ha hb
    rwa [add_sub_add_right_eq_sub] at hsub
  exact wrap180_congr h

end Turned

end Angle

namespace SwingAngle

open Angle

structure Turned (δ : ℝ) (s s' : SwingAngle ℝ) : Prop where
  angle : Angle.Turned δ s.angle s'.angle
  swinging : s'.swinging = s.swinging

variable {δ a a' destination destination' : ℝ} {s s' : SwingAngle ℝ}

theorem hold_turned (ha : Angle.Turned δ a a') (hd : Angle.Turned δ destination destination') (limit : ℝ) :
    Angle.Turned δ (hold a destination limit) (hold a' destination' limit) := by
  rw [hold, hold, hd.diff_eq ha]
  apply rel_ite
  · exact (hd.sub _).wrap360
  apply rel_ite
  · exact (hd.add _).wrap360
  · exact ha

namespace Turned

theorem still (h : Angle.Turned δ a a') : Turned δ (still a) (still a') := ⟨h, rfl⟩

theorem wake (h : Turned δ s s') (awake : Bool) :
    Turned δ { s with swinging := s.swinging || awake } { s' with swinging := s'.swinging || awake } :=
  ⟨h.angle, by rw [h.swinging]⟩

variable (h : Turned δ s s') (hd : Angle.Turned δ destination destination')

include h hd

theorem awake_eq (tolerance : ℝ) : s'.awake destination' tolerance = s.awake destination tolerance := by
  rw [awake, awake, h.swinging, h.angle.diff_eq hd]

theorem move (tolerance speed duration : ℝ) :
    Turned δ (s.move destination tolerance speed duration)
      (s'.move destination' tolerance speed duration) := by
  have hstep (step : ℝ) := (h.angle.add step).wrap360
  rw [SwingAngle.move, SwingAngle.move, hd.diff_eq h.angle]
  apply rel_ite
  · apply rel_ite
    · exact ⟨hstep _, rfl⟩
    · exact ⟨hstep _, rfl⟩
  · apply rel_ite
    · exact ⟨hstep _, rfl⟩
    · exact ⟨hstep _, rfl⟩

theorem swing (tolerance limit speed duration : ℝ) :
    Turned δ (s.swing destination tolerance limit speed duration)
      (s'.swing destination' tolerance limit speed duration) := by
  rw [SwingAngle.swing, SwingAngle.swing, h.awake_eq hd]
  have hmove := h.move hd tolerance speed duration
  apply rel_ite
  · exact ⟨hold_turned hmove.angle hd limit, hmove.swinging⟩
  · exact h

end Turned

end SwingAngle

end PlayerAnimation
