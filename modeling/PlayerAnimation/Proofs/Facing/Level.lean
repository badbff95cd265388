import PlayerAnimation.Facing
import PlayerAnimation.Number.Single

namespace PlayerAnimation

open Angle

variable {α : Type} [Scalar α]

def ClientInfo.pitched (ci : ClientInfo α) (pitch : α) : ClientInfo α :=
  { ci with viewAngles := { ci.viewAngles with x := pitch } }

namespace Facing

variable (f : Facing α) (lf : LerpFrame α)

def pitched (pitch : α) : Facing α := { f with viewPitch := pitch }

/-- Whether the torso is level whatever the pitch of the view. On a ledge it is so only if the player has no
other flag. -/
def isLevel : Bool :=
  f.es.isDead || f.es.onMountedGun || f.climbing || f.es.flags = EntityFlags.mantle

def turnPitch (goal : α) (pitch : SwingAngle α) : SwingAngle α :=
  { pitch with swinging := pitch.swinging || f.torsoAwake }.swing goal 0 45 f.pitchSpeed f.duration

theorem pitchGoal_level (h : f.isLevel = true) : f.pitchGoal = 0 := if_pos h

theorem pitchGoal_free (h : ¬ f.isLevel = true) : f.pitchGoal = wrap180 f.viewPitch * pitchShare := if_neg h

theorem torso_pitch : (f.torso lf).pitch = f.turnPitch f.pitchGoal lf.pitch := rfl

theorem torso_pitched (pitch : α) :
    (f.pitched pitch).torso lf =
      { f.torso lf with pitch := f.turnPitch (f.pitched pitch).pitchGoal lf.pitch } := rfl

theorem torso_level (h : f.isLevel = true) : (f.torso lf).pitch = f.turnPitch 0 lf.pitch := by
  rw [torso_pitch, f.pitchGoal_level h]

theorem torso_free (h : ¬ f.isLevel = true) :
    (f.torso lf).pitch = f.turnPitch (wrap180 f.viewPitch * pitchShare) lf.pitch := by
  rw [torso_pitch, f.pitchGoal_free h]

theorem legs_dead (hdead : f.es.isDead = true) :
    (f.legs lf).yaw =
      .still (if f.climbing && !f.es.onMountedGun then f.viewYaw + f.legsDir else f.viewYaw) := by
  have hlegs (yaw : SwingAngle α) : f.legsYaw yaw = .still f.viewYaw := by rw [legsYaw, if_pos hdead]
  rw [legs, hlegs, forced]
  cases f.es.onMountedGun <;> cases f.climbing <;> rfl

end Facing

variable (frame : Frame) (host : Host α) (es : EntityState α) (ci : ClientInfo α) (swingSpeed : α)

/-- The torso of a dead player becomes level. The legs point along the view and rest, but on a ladder they
still turn into the direction of movement. -/
theorem dead_facing (hdead : es.isDead = true) :
    let f := Facing.of frame host es ci swingSpeed
    let faced := facePlayer frame host es ci swingSpeed
    faced.torso.pitch = f.turnPitch 0 ci.torso.pitch ∧
      faced.legs.yaw = .still
        (if (host.moveTypes ci).intersects MoveTypes.climb && !es.onMountedGun then
          wrap360 ci.viewAngles.y + ci.movementYaw
        else wrap360 ci.viewAngles.y) := by
  intro f faced
  have hlevel : f.isLevel = true := by
    change (es.isDead || _ || _ || _) = true
    rw [hdead, Bool.true_or, Bool.true_or, Bool.true_or]
  exact ⟨f.torso_level ci.torso hlevel, f.legs_dead ci.legs hdead⟩

section Example

def sidling (pitch : Float32) : ClientInfo Float32 :=
  { ClientInfo.initial 0 with
    viewAngles := ⟨pitch, 100, 0⟩
    movementYaw := 45
    torso := { LerpFrame.initial with pitch := .still 10 } }

def sidle (flags : EntityFlags) (moveTypes : MoveTypes) (pitch : Float32) : ClientInfo Float32 :=
  facePlayer ⟨.client, .enhanced, 1000, 50⟩ (.ofScript #[] moveTypes false)
    { EntityState.initial 0 with flags } (sidling pitch) 0.2

theorem dead_facing_runner :
    (sidle (.dead ||| .firing) .run 30).torso.pitch = .still 0 ∧
      (sidle (.dead ||| .firing) .run 30).legs.yaw = .still (wrap360 100) := by
  obtain ⟨hpitch, hlegs⟩ := dead_facing ⟨.client, .enhanced, 1000, 50⟩ (.ofScript #[] .run false)
    { EntityState.initial 0 with flags := .dead ||| .firing } (sidling 30) 0.2 (by decide)
  refine ⟨hpitch.trans ?_, hlegs⟩
  decide +kernel

/-- On a ladder the legs of a dead player are not along the view. -/
theorem dead_facing_ladder : (sidle .dead .climbUp 30).legs.yaw ≠ .still (wrap360 100) := by
  decide

end Example

theorem facePlayer_pitched (pitch : α) (hmoves : host.moveTypes (ci.pitched pitch) = host.moveTypes ci)
    (hfires : host.isFiring (ci.pitched pitch) = host.isFiring ci) :
    facePlayer frame host es (ci.pitched pitch) swingSpeed =
      { (facePlayer frame host es ci swingSpeed).pitched pitch with
        torso := ((Facing.of frame host es ci swingSpeed).pitched pitch).torso ci.torso } := by
  have hof : Facing.of frame host es (ci.pitched pitch) swingSpeed =
      (Facing.of frame host es ci swingSpeed).pitched pitch := by
    rw [Facing.of, hmoves, hfires]
    rfl
  rw [facePlayer, hof]
  rfl

/-- The pitch of the view changes nothing but the pitch of the torso, and not even that for a player who is
dead, on a mounted gun, on a ladder, or on a ledge without another flag. -/
theorem view_pitch_ignored (pitch : α) (hmoves : host.moveTypes (ci.pitched pitch) = host.moveTypes ci)
    (hfires : host.isFiring (ci.pitched pitch) = host.isFiring ci) :
    let f := Facing.of frame host es ci swingSpeed
    let faced := facePlayer frame host es ci swingSpeed
    let other := facePlayer frame host es (ci.pitched pitch) swingSpeed
    other.torso.yaw = faced.torso.yaw ∧ other.legs = faced.legs ∧
      if es.isDead || es.onMountedGun || (host.moveTypes ci).intersects MoveTypes.climb ||
          es.flags = EntityFlags.mantle then
        other = faced.pitched pitch ∧ faced.torso.pitch = f.turnPitch 0 ci.torso.pitch
      else
        faced.torso.pitch = f.turnPitch (wrap180 ci.viewAngles.x * Facing.pitchShare) ci.torso.pitch ∧
          other.torso.pitch = f.turnPitch (wrap180 pitch * Facing.pitchShare) ci.torso.pitch := by
  intro f faced other
  have hother : other = { faced.pitched pitch with torso := (f.pitched pitch).torso ci.torso } :=
    facePlayer_pitched frame host es ci swingSpeed pitch hmoves hfires
  rw [hother]
  refine ⟨rfl, rfl, ?_⟩
  change if f.isLevel = true then _ else _
  split
  · next hlevel =>
      have hsame : (f.pitched pitch).torso ci.torso = f.torso ci.torso := by
        rw [f.torso_pitched, (f.pitched pitch).pitchGoal_level hlevel, ← f.torso_level ci.torso hlevel]
      refine ⟨?_, f.torso_level ci.torso hlevel⟩
      rw [hsame]
      rfl
  · next hfree => exact ⟨f.torso_free ci.torso hfree, (f.pitched pitch).torso_free ci.torso hfree⟩

theorem view_pitch_ignored_ladder :
    sidle .empty .climbUp (-20) = (sidle .empty .climbUp 30).pitched (-20) := by
  obtain ⟨-, -, hlevel⟩ := view_pitch_ignored ⟨.client, .enhanced, 1000, 50⟩ (.ofScript #[] .climbUp false)
    (EntityState.initial 0) (sidling 30) 0.2 (-20) (Eq.refl _) (Eq.refl _)
  exact hlevel.1

theorem view_pitch_followed_aiming :
    (sidle (.mantle ||| .aiming) .empty 30).torso.pitch ≠ (sidle (.mantle ||| .aiming) .empty 0).torso.pitch := by
  have hdown : (sidle (.mantle ||| .aiming) .empty 30).torso.pitch = .still 18 := by decide +kernel
  have hlevel : (sidle (.mantle ||| .aiming) .empty 0).torso.pitch = .still 0 := by decide +kernel
  rw [hdown, hlevel]
  decide

end PlayerAnimation
