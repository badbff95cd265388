import PlayerAnimation.Player

namespace PlayerAnimation

def ControllerMovement.spec : FlagSpec where
  name := "ControllerMovement"
  width := 32
  flags :=
    [("DEFAULT", 0), ("STRAIGHT_STANCE", 1), ("TURNING_STANCE", 2), ("MOVING_LEFT", 3),
      ("MOVING_RIGHT", 4), ("MOVING", 5), ("MOVING_BACKWARDS", 6), ("STAND_LEAN_LEFT", 7),
      ("CROUCH_LEAN_LEFT", 8), ("PRONE_FORWARD_RELOAD", 9), ("PRONE_BACKWARDS_FIRE", 10),
      ("PRONE_BACKWARDS_RELOAD", 11), ("CLIMBUP", 12), ("CLIMBDOWN", 13),
      ("MOVING_LEFT_STRAFE", 14), ("MOVING_RIGHT_STRAFE", 15), ("STAND", 16), ("CROUCH", 17),
      ("PRONE", 18)]

abbrev ControllerMovement := Flags ControllerMovement.spec

namespace ControllerMovement

def base : ControllerMovement := .bit 0
def straightStance : ControllerMovement := .bit 1
def turningStance : ControllerMovement := .bit 2
def movingLeft : ControllerMovement := .bit 3
def movingRight : ControllerMovement := .bit 4
def moving : ControllerMovement := .bit 5
def movingBackwards : ControllerMovement := .bit 6
def standLeanLeft : ControllerMovement := .bit 7
def crouchLeanLeft : ControllerMovement := .bit 8
def proneForwardReload : ControllerMovement := .bit 9
def proneBackwardsFire : ControllerMovement := .bit 10
def proneBackwardsReload : ControllerMovement := .bit 11
def climbUp : ControllerMovement := .bit 12
def climbDown : ControllerMovement := .bit 13
def strafeLeft : ControllerMovement := .bit 14
def strafeRight : ControllerMovement := .bit 15
def stand : ControllerMovement := .bit 16
def crouch : ControllerMovement := .bit 17
def prone : ControllerMovement := .bit 18

end ControllerMovement

structure Locomotion where
  forward : Bool
  backward : Bool
  left : Bool
  right : Bool
deriving DecidableEq

namespace Locomotion

def of (moveTypes : MoveTypes) (legs : AnimFlags) : Locomotion where
  forward := moveTypes.intersects MoveTypes.forward
  backward := moveTypes.intersects MoveTypes.backward
  left := legs.contains AnimFlags.strafeLeft
  right := legs.contains AnimFlags.strafeRight

def isMoving (l : Locomotion) : Bool := l.forward || l.backward

def isSideways (l : Locomotion) : Bool := l.left || l.right

variable {α : Type} [Scalar α]

def strafeYaw : α := 20

def strafesLeft (l : Locomotion) (yaw : α) : Bool :=
  (l.forward && decide (strafeYaw < yaw)) || (l.backward && decide (yaw < -strafeYaw))

def strafesRight (l : Locomotion) (yaw : α) : Bool :=
  (l.forward && decide (yaw < -strafeYaw)) || (l.backward && decide (strafeYaw < yaw))

open ControllerMovement in
def movement (l : Locomotion) (yaw : α) : ControllerMovement :=
  base
    ||| (if l.forward then moving else if l.backward then movingBackwards else .empty)
    ||| (if l.left then movingLeft else if l.right then movingRight else .empty)
    ||| (if l.strafesLeft yaw then strafeLeft else if l.strafesRight yaw then strafeRight else .empty)

end Locomotion

end PlayerAnimation
