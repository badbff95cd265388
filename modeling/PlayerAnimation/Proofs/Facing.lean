import PlayerAnimation.Facing
import PlayerAnimation.Proofs.Angle.Swing

namespace PlayerAnimation

namespace Facing

open Angle

variable (f : Facing ℝ)

noncomputable def torsoAim : ℝ :=
  if f.es.isDead || f.es.isMantling || f.es.isProne || f.es.isFiring || f.es.isAiming || f.enhanced then
    f.viewYaw
  else f.legsDir * movementShare + f.viewYaw

def aimsFire : Bool := !f.es.isDead && !f.es.isMantling && !f.es.isProne && f.es.isFiring

noncomputable def restingLegs : ℝ :=
  if f.es.isDead || f.enhanced || f.es.isMantling then f.viewYaw else f.viewYaw + f.legsDir

noncomputable def turningLegs : ℝ :=
  if f.es.isMantling || f.strafing then f.viewYaw else f.viewYaw + f.legsDir

theorem torsoGoal_eq (hclimbing : f.climbing = false) :
    f.torsoGoal = (f.torsoAim, if f.aimsFire then 45 else 90) := by
  rw [torsoGoal, torsoAim, aimsFire, hclimbing]
  simp only [Exact.ofNat_eq]
  cases f.es.isDead <;> cases f.es.isMantling <;> cases f.es.isProne <;> cases f.es.isFiring <;>
    cases f.es.isAiming <;> cases f.enhanced <;> rfl

theorem torso_close (hclimbing : f.climbing = false) (hgun : f.es.onMountedGun = false) (lf : LerpFrame ℝ) :
    |diff (f.torso lf).yaw.angle f.torsoAim| ≤ if f.aimsFire then 45 else 90 := by
  have hfree (yaw : SwingAngle ℝ) : f.forced yaw = yaw := by simp [forced, hclimbing, hgun]
  rw [torso, hfree, f.torsoGoal_eq hclimbing]
  apply SwingAngle.swing_close
  · split <;> norm_num
  · rw [Exact.zero_eq]
    split <;> norm_num

theorem pitch_close (lf : LerpFrame ℝ) : |diff (f.torso lf).pitch.angle f.pitchGoal| ≤ 45 := by
  simp only [torso, Exact.zero_eq, Exact.ofNat_eq]
  apply SwingAngle.swing_close
  · norm_num
  · norm_num

theorem legsYaw_resting (hclimbing : f.climbing = false) (h : f.es.isDead || f.es.isProne) (yaw : SwingAngle ℝ) :
    f.legsYaw yaw = .still f.restingLegs := by
  rw [legsYaw, restingLegs, legsGoal, hclimbing]
  cases hdead : f.es.isDead with
  | true => rfl
  | false =>
      rw [hdead, Bool.false_or] at h
      simp only [h, if_true, Bool.false_or]
      rw [SwingAngle.swing_still (by rw [Exact.one_eq]; exact zero_le_one)]
      cases f.enhanced <;> cases f.es.isMantling <;> rfl

theorem legsYaw_close (hclimbing : f.climbing = false) (hdead : f.es.isDead = false)
    (hprone : f.es.isProne = false) (yaw : SwingAngle ℝ) :
    |diff (f.legsYaw yaw).angle f.turningLegs| ≤ 150 := by
  have hlimit : (legsLimit : ℝ) = 150 := Exact.ofNat_eq 150
  have htolerance : (legsTolerance : ℝ) = 40 := Exact.ofNat_eq 40
  rw [legsYaw, turningLegs, legsGoal, hdead, hprone, hclimbing, hlimit]
  cases f.strafing with
  | true =>
      simp only [Bool.or_true, if_true]
      apply SwingAngle.swing_close
      · norm_num
      · rw [Exact.zero_eq]
        norm_num
  | false =>
      simp only [Bool.or_false]
      apply SwingAngle.swing_close
      · norm_num
      · rw [htolerance, Exact.zero_eq]
        split <;> norm_num

end Facing

/-- Torso and legs keep up with the view and the direction of movement. On a gun or a ladder they are there at
once; off it the torso is within 45 or 90 degrees of it and the legs within 150, or there if the player is dead
or prone. -/
theorem facing_keeps_up (frame : Frame) (host : Host ℝ) (es : EntityState ℝ) (ci : ClientInfo ℝ)
    (swingSpeed : ℝ) :
    let f := Facing.of frame host es ci swingSpeed
    let faced := facePlayer frame host es ci swingSpeed
    (if es.onMountedGun then faced.torso.yaw.angle = f.viewYaw ∧ faced.legs.yaw.angle = f.viewYaw
      else if f.climbing then
        faced.torso.yaw.angle = f.viewYaw + ci.movementYaw ∧ faced.legs.yaw.angle = f.viewYaw + ci.movementYaw
      else
        |Angle.diff faced.torso.yaw.angle f.torsoAim| ≤ (if f.aimsFire then 45 else 90) ∧
          if es.isDead || es.isProne then faced.legs.yaw.angle = f.restingLegs
          else |Angle.diff faced.legs.yaw.angle f.turningLegs| ≤ 150) ∧
      |Angle.diff faced.torso.pitch.angle f.pitchGoal| ≤ 45 := by
  intro f faced
  refine ⟨?_, f.pitch_close ci.torso⟩
  have hes : f.es = es := rfl
  have hdir : f.legsDir = ci.movementYaw := rfl
  split
  · next hgun =>
      have hforced (yaw : SwingAngle ℝ) : (f.forced yaw).angle = f.viewYaw := by
        rw [Facing.forced, hes, if_pos hgun]
      exact ⟨hforced _, hforced _⟩
  split
  · next hgun hclimbing =>
      have hforced (yaw : SwingAngle ℝ) : (f.forced yaw).angle = f.viewYaw + ci.movementYaw := by
        rw [Facing.forced, hes, if_neg hgun, if_pos hclimbing, hdir]
      exact ⟨hforced _, hforced _⟩
  · next hgun hclimbing =>
      rw [Bool.not_eq_true] at hgun hclimbing
      have hfree (yaw : SwingAngle ℝ) : f.forced yaw = yaw := by
        rw [Facing.forced, hes, hgun, hclimbing]
        rfl
      refine ⟨f.torso_close hclimbing hgun ci.torso, ?_⟩
      change if es.isDead || es.isProne then (f.forced (f.legsYaw _)).angle = f.restingLegs
        else |Angle.diff (f.forced (f.legsYaw _)).angle f.turningLegs| ≤ 150
      rw [hfree]
      split
      · next hrest => rw [f.legsYaw_resting hclimbing hrest, SwingAngle.still]
      · next hturn =>
          rw [Bool.not_eq_true, Bool.or_eq_false_iff] at hturn
          exact f.legsYaw_close hclimbing hturn.1 hturn.2 _

end PlayerAnimation
