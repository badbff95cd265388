import PlayerAnimation.Frame

namespace PlayerAnimation

structure Facing (α : Type) where
  enhanced : Bool
  es : EntityState α
  climbing : Bool
  still : Bool
  firing : Bool
  strafing : Bool
  legsDir : α
  viewPitch : α
  viewYaw : α
  /-- How fast the torso and the legs turn, in degrees per millisecond. -/
  speed : α
  duration : α

namespace Facing

open Angle

variable {α : Type} [Scalar α]

def enhancedSpeed : α := 1

def pitchShare : α := 0.6

def movementShare : α := 0.3

def legsLimit : α := 150

def legsTolerance : α := 40

def of (frame : Frame) (host : Host α) (es : EntityState α) (ci : ClientInfo α) (swingSpeed : α) :
    Facing α where
  enhanced := frame.compat.isEnhanced
  es := es
  climbing := (host.moveTypes ci).intersects MoveTypes.climb
  still := (host.moveTypes ci).intersects MoveTypes.idleUpright
  firing := host.isFiring ci
  strafing := (host.animation es.legsAnim.index).any fun a =>
    a.flags.intersects (AnimFlags.strafeLeft ||| AnimFlags.strafeRight)
  legsDir := ci.movementYaw
  viewPitch := ci.viewAngles.x
  viewYaw := wrap360 ci.viewAngles.y
  speed := if frame.compat.isEnhanced then enhancedSpeed else swingSpeed
  duration := Scalar.ofInt frame.frameTime

variable (f : Facing α)

def holding : Bool := f.es.onMountedGun || f.climbing || f.es.isMantling

def torsoAwake : Bool := f.holding || !f.still || f.firing

def legsAwake : Bool := f.holding || !f.still

def torsoGoal : α × α :=
  if f.es.isDead then (f.viewYaw, 90)
  else if f.climbing then (f.viewYaw + f.legsDir, 0)
  else if f.es.isMantling then (f.viewYaw, 90)
  else if f.es.isProne then (f.viewYaw, 90)
  else if f.es.isFiring then (f.viewYaw, 45)
  else if f.es.isAiming || f.enhanced then (f.viewYaw, 90)
  else (f.legsDir * movementShare + f.viewYaw, 90)

def legsGoal : α :=
  if !f.es.isDead && !f.climbing && f.es.isMantling then f.viewYaw else f.viewYaw + f.legsDir

def legsYaw (yaw : SwingAngle α) : SwingAngle α :=
  if f.es.isDead then .still f.viewYaw
  else if f.es.isProne then
    let goal := if f.enhanced then f.viewYaw else f.legsGoal
    (SwingAngle.still goal).swing goal 1 legsLimit f.speed f.duration
  else if f.strafing then
    (SwingAngle.still yaw.angle).swing f.viewYaw 0 legsLimit f.speed f.duration
  else
    let tolerance := if yaw.swinging || f.enhanced then 0 else legsTolerance
    yaw.swing f.legsGoal tolerance legsLimit f.speed f.duration

def forced (yaw : SwingAngle α) : SwingAngle α :=
  if f.es.onMountedGun then { yaw with angle := f.viewYaw }
  else if f.climbing then { yaw with angle := f.viewYaw + f.legsDir }
  else yaw

def pitchGoal : α :=
  if f.es.isDead || f.es.onMountedGun || f.climbing || f.es.flags = EntityFlags.mantle then 0
  else wrap180 f.viewPitch * pitchShare

def pitchSpeed : α := if f.enhanced then enhancedSpeed else 0.15

def torso (lf : LerpFrame α) : LerpFrame α :=
  let yaw := { lf.yaw with swinging := lf.yaw.swinging || f.torsoAwake }
  let pitch := { lf.pitch with swinging := lf.pitch.swinging || f.torsoAwake }
  { lf with
    yaw := f.forced (yaw.swing f.torsoGoal.1 0 f.torsoGoal.2 f.speed f.duration)
    pitch := pitch.swing f.pitchGoal 0 45 f.pitchSpeed f.duration }

def legs (lf : LerpFrame α) : LerpFrame α :=
  let yaw := { lf.yaw with swinging := lf.yaw.swinging || f.legsAwake }
  { lf with yaw := f.forced (f.legsYaw yaw) }

end Facing

/-- Turns the torso and the legs of a player towards the view and the direction of movement.
`swingSpeed` is how fast they turn without the enhanced animations, in degrees per millisecond. -/
def facePlayer {α : Type} [Scalar α] (frame : Frame) (host : Host α) (es : EntityState α)
    (ci : ClientInfo α) (swingSpeed : α) : ClientInfo α :=
  let facing := Facing.of frame host es ci swingSpeed
  { ci with torso := facing.torso ci.torso, legs := facing.legs ci.legs }

end PlayerAnimation
