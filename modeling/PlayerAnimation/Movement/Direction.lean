import PlayerAnimation.Frame

namespace PlayerAnimation

structure MoveStep (α : Type) where
  origin : Vec3 α
  previousOrigin : Vec3 α
  /-- How long the step took, in seconds. -/
  duration : α
  viewYaw : α
  forwardMove : Int
  rightMove : Int
  onGround : Bool
  prone : Bool
  onMountedGun : Bool
  proneDirection : α

namespace MoveStep

open Angle

variable {α : Type} [Scalar α]

def minSpeed : α := 5

def moved (m : MoveStep α) : Vec3 α := m.origin - m.previousOrigin

def speed (m : MoveStep α) : α := m.moved.length / m.duration

def isWalking (m : MoveStep α) : Bool :=
  (m.forwardMove != 0 || m.rightMove != 0) && m.onGround && decide (minSpeed < m.speed)

def heading (m : MoveStep α) : α :=
  diff (Scalar.toDegrees (Scalar.atan2 m.moved.y m.moved.x)) m.viewYaw

/-- Whether a movement counts as backward. With the enhanced animations, holding back while going
forward or sideways does not. -/
def isBackward (m : MoveStep α) (compat : Compat) : Bool :=
  m.forwardMove < 0 && (!compat.isEnhanced || !(-90 ≤ m.heading && m.heading ≤ 90))

def legsHeading (m : MoveStep α) (compat : Compat) : α :=
  if m.isBackward compat then wrap180 (m.heading + 180) else m.heading

def exactYaw (m : MoveStep α) (compat : Compat) : α :=
  if m.prone && !m.onMountedGun then Scalar.clamp (-90) 90 (diff m.proneDirection m.viewYaw)
  else if m.isWalking then Scalar.clamp (-90) 90 (m.legsHeading compat)
  else 0

/-- The direction in which the legs should point relative to the view: whole degrees in [-90, 90],
positive to the left, and 0 while standing still. -/
def yaw (m : MoveStep α) (compat : Compat) : Int := Scalar.toInt (m.exactYaw compat)

end MoveStep

end PlayerAnimation
