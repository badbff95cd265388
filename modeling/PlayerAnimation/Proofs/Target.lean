import PlayerAnimation.Proofs.Angle.Rotation
import PlayerAnimation.Target.Enhanced

namespace PlayerAnimation

namespace Controllers

variable {α : Type} [Scalar α]

def headPitch (p : Controllers α) : α :=
  p.pelvis.x + p.backLow.x + p.backMid.x + p.backUp.x + p.neck.x + p.head.x

def headYaw (p : Controllers α) : α :=
  p.originAngles.y + p.backLow.y + p.backMid.y + p.backUp.y + p.neck.y + p.head.y

end Controllers

namespace Vec3

@[simp] theorem mul_x (a b : Vec3 ℝ) : (a * b).x = a.x * b.x := rfl

@[simp] theorem mul_y (a b : Vec3 ℝ) : (a * b).y = a.y * b.y := rfl

end Vec3

namespace Target

theorem waist_cancels (es : EntityState ℝ) :
    waist es es.waistPitch es.torsoPitch + waist es es.torsoPitch es.waistPitch ≡ 0 [PMOD 360] := by
  rw [waist, waist]
  split
  · have h := (Angle.diff_modEq es.waistPitch es.torsoPitch).add
      (Angle.diff_modEq es.torsoPitch es.waistPitch)
    rwa [sub_add_sub_cancel, sub_self] at h
  · simp only [Exact.zero_eq, add_zero]
    exact AddCommGroup.modEq_rfl

section Shares

variable (es : EntityState ℝ) (p : Posture ℝ)

-- A lean only rolls the torso and the head, so it is in none of the sums.

theorem upright_pitch :
    (upright es p).headPitch = p.torso.x + p.head.x +
      (waist es es.waistPitch es.torsoPitch + waist es es.torsoPitch es.waistPitch) := by
  simp only [Controllers.headPitch, upright, assemble, Vec3.addX, Vec3.mul_x, apply_ite Vec3.x, ite_self]
  simp only [backLowShare, backMidShare, backUpShare, neckShare, headShare, Exact.ofScientific_eq]
  ring

theorem upright_yaw : (upright es p).headYaw = p.originAngles.y + p.torso.y + p.head.y := by
  simp only [Controllers.headYaw, upright, assemble, Vec3.addX, Vec3.addZ, Vec3.mul_y, apply_ite Vec3.y,
    ite_self]
  simp only [backLowShare, backMidShare, backUpShare, neckShare, headShare, Exact.ofScientific_eq]
  ring

theorem prone_pitch :
    (prone es p).headPitch = p.torso.x + p.head.x +
      (waist es es.waistPitch es.torsoPitch + waist es es.torsoPitch es.waistPitch) := by
  simp only [Controllers.headPitch, prone, assemble, Vec3.mul_x, apply_ite Vec3.x, ite_self]
  simp only [neckShare, headShare, Exact.ofScientific_eq, Exact.zero_eq]
  ring

end Shares

end Target

namespace Posture

variable (es : EntityState ℝ) (ci : ClientInfo ℝ) (moveTypes : MoveTypes)

theorem pitch_modEq :
    (of es ci moveTypes).torso.x + (of es ci moveTypes).head.x ≡ ci.viewAngles.x [PMOD 360] := by
  have htorso : (of es ci moveTypes).torso.x ≡ torsoPitch es ci moveTypes [PMOD 360] := by
    refine (Angle.diff_modEq (torsoPitch es ci moveTypes) _).trans ?_
    rw [Exact.zero_eq, sub_zero]
  have h := htorso.add (Angle.diff_modEq ci.viewAngles.x (torsoPitch es ci moveTypes))
  rwa [add_sub_cancel] at h

theorem originYaw_modEq :
    originYaw es ci ≡ ci.legs.yaw.angle - (if es.isDead then 0 else ci.viewAngles.y) [PMOD 360] := by
  rw [originYaw]
  split
  · rw [sub_zero]
  · exact Angle.diff_modEq _ _

theorem yaw_modEq :
    (of es ci moveTypes).originAngles.y + (of es ci moveTypes).torso.y + (of es ci moveTypes).head.y ≡
      if es.isDead then ci.viewAngles.y else 0 [PMOD 360] := by
  have htorso := Angle.diff_modEq ci.torso.yaw.angle ci.legs.yaw.angle
  have hhead := Angle.diff_modEq ci.viewAngles.y ci.torso.yaw.angle
  have h := ((originYaw_modEq es ci).add htorso).add hhead
  have hsum : ci.legs.yaw.angle - (if es.isDead then 0 else ci.viewAngles.y) +
      (ci.torso.yaw.angle - ci.legs.yaw.angle) + (ci.viewAngles.y - ci.torso.yaw.angle) =
        if es.isDead then ci.viewAngles.y else 0 := by
    split <;> ring
  rwa [hsum] at h

end Posture

/-- The bones from the pelvis to the head pitch the head of a plain pose to the view. Of a player who is not
prone, they and the origin also yaw it there. -/
theorem head_along_view (frame : Frame) (host : Host ℝ) (store : Store ℝ) (es : EntityState ℝ)
    (ci : ClientInfo ℝ) (neutral : Bool) (hplain : frame.compat = .legacy)
    (hneutral : ¬ (neutral = true ∧ frame.role = .server)) (hgun : es.onMountedGun = false) :
    ∃ built, buildTarget frame host store es ci neutral = .ok built ∧
      built.target.headPitch ≡ ci.viewAngles.x [PMOD 360] ∧
      (es.isProne = false →
        built.target.headYaw ≡ if es.isDead then ci.viewAngles.y else 0 [PMOD 360]) := by
  have hbuilt : buildTarget frame host store es ci neutral =
      .ok ⟨Target.base es ci (host.moveTypes ci), store, []⟩ := by
    have hn : (neutral && decide (frame.role = .server)) = false := by simpa using hneutral
    rw [buildTarget, hn, hgun, hplain]
    rfl
  refine ⟨_, hbuilt, ?_, fun hprone => ?_⟩
  · have hwaist := (Posture.pitch_modEq es ci (host.moveTypes ci)).add (Target.waist_cancels es)
    rw [add_zero] at hwaist
    rw [Target.base]
    split
    · rwa [Target.prone_pitch]
    · rwa [Target.upright_pitch]
  · rw [Target.base, hprone, if_neg Bool.false_ne_true, Target.upright_yaw]
    exact Posture.yaw_modEq es ci (host.moveTypes ci)

section Example

noncomputable def onlooker : ClientInfo ℝ :=
  { ClientInfo.initial 0 with
    viewAngles := ⟨-80, 10.0, 5⟩
    legs := ⟨.still 350, .still 0, ⟨0⟩, none, 0⟩
    torso := ⟨.still 355, .still 340, ⟨0⟩, none, 0⟩
    lean := -0.5 }

noncomputable def bent (flags : EntityFlags) : EntityState ℝ :=
  { EntityState.initial 0 with flags, torsoPitch := 170, waistPitch := -40 }

theorem head_along_view_ladder :
    let frame : Frame := ⟨.client, .legacy, 1000, 50⟩
    let host : Host ℝ := .ofScript #[] .climbUp false
    (∃ built, buildTarget frame host .fresh (bent .crouch) onlooker true = .ok built ∧
      built.target.headPitch ≡ -80 [PMOD 360] ∧ built.target.headYaw ≡ 0 [PMOD 360]) ∧
    ∃ built, buildTarget frame host .fresh (bent .dead) onlooker true = .ok built ∧
      built.target.headPitch ≡ -80 [PMOD 360] ∧ built.target.headYaw ≡ 10 [PMOD 360] := by
  intro frame host
  constructor
  · obtain ⟨built, hbuilt, hpitch, hyaw⟩ := head_along_view frame host .fresh (bent .crouch) onlooker true
      rfl (by decide) (by rw [EntityState.onMountedGun, bent]; decide)
    exact ⟨built, hbuilt, hpitch, hyaw (by rw [EntityState.isProne, bent]; decide)⟩
  · obtain ⟨built, hbuilt, hpitch, hyaw⟩ := head_along_view frame host .fresh (bent .dead) onlooker true
      rfl (by decide) (by rw [EntityState.onMountedGun, bent]; decide)
    have hview : onlooker.viewAngles.y = 10 := by norm_num [onlooker]
    have hturned : built.target.headYaw ≡ onlooker.viewAngles.y [PMOD 360] :=
      hyaw (by rw [EntityState.isProne, bent]; decide)
    rw [hview] at hturned
    exact ⟨built, hbuilt, hpitch, hturned⟩

end Example

end PlayerAnimation
