import PlayerAnimation.Angle.Swing
import PlayerAnimation.Controllers
import PlayerAnimation.Script

namespace PlayerAnimation

def EntityFlags.spec : FlagSpec where
  name := "EntityFlags"
  width := 32
  flags :=
    [("CROUCH", 2), ("PRONE", 3), ("FIRING", 6), ("MG", 8), ("MANTLE", 14), ("DEAD", 17), ("ADS", 18)]

abbrev EntityFlags := Flags EntityFlags.spec

namespace EntityFlags

def crouch : EntityFlags := .bit 2
def prone : EntityFlags := .bit 3
def firing : EntityFlags := .bit 6
def mountedGun : EntityFlags := .bit 8
def mantle : EntityFlags := .bit 14
def dead : EntityFlags := .bit 17
def aiming : EntityFlags := .bit 18

end EntityFlags

structure EntityState (α : Type) where
  clientNum : Nat
  flags : EntityFlags
  legsAnim : AnimNum
  torsoHeight : α
  torsoPitch : α
  waistPitch : α

namespace EntityState

variable {α : Type} (es : EntityState α)

def isProne : Bool := es.flags.contains EntityFlags.prone

def isCrouching : Bool := es.flags.contains EntityFlags.crouch

def isDead : Bool := es.flags.contains EntityFlags.dead

def onMountedGun : Bool := es.flags.contains EntityFlags.mountedGun

def isMantling : Bool := es.flags.contains EntityFlags.mantle

def isFiring : Bool := es.flags.contains EntityFlags.firing

def isAiming : Bool := es.flags.contains EntityFlags.aiming

end EntityState

inductive Body
  | legs
  | torso
deriving DecidableEq

structure LerpFrame (α : Type) where
  yaw : SwingAngle α
  pitch : SwingAngle α
  animationNumber : AnimNum
  animation : Option UInt32
  /-- How long the animation is blended in, in milliseconds. -/
  animationTime : Int
deriving DecidableEq

structure ClientInfo (α : Type) where
  clientNum : Nat
  viewAngles : Vec3 α
  legs : LerpFrame α
  torso : LerpFrame α
  /-- The smoothed lean in [-1, 1], negative to the left. -/
  lean : α
  /-- The direction of movement relative to the view, in [-90, 90] and positive to the left. -/
  movementYaw : α
  control : Controllers α
deriving DecidableEq

namespace ClientInfo

variable {α : Type}

def lerpFrame (ci : ClientInfo α) : Body → LerpFrame α
  | .legs => ci.legs
  | .torso => ci.torso

def setLerpFrame (ci : ClientInfo α) (body : Body) (frame : LerpFrame α) : ClientInfo α :=
  match body with
  | .legs => { ci with legs := frame }
  | .torso => { ci with torso := frame }

end ClientInfo

section Default

variable {α : Type} [Scalar α]

def EntityState.initial (clientNum : Nat) : EntityState α := ⟨clientNum, .empty, ⟨0⟩, 0, 0, 0⟩

def LerpFrame.initial : LerpFrame α := ⟨.still 0, .still 0, ⟨0⟩, none, 0⟩

def ClientInfo.initial (clientNum : Nat) : ClientInfo α :=
  ⟨clientNum, .zero, .initial, .initial, 0, 0, .zero⟩

end Default

end PlayerAnimation
