import PlayerAnimation.Target
import PlayerAnimation.Text.Split

namespace PlayerAnimation

structure Enhanced (α : Type) where
  movement : ControllerMovement
  blendTime : Int
  pose : Controllers α

namespace Enhanced

open Angle

variable {α : Type} [Scalar α]

def mark (e : Enhanced α) (flag : ControllerMovement) : Enhanced α :=
  { e with movement := e.movement ||| flag }

def locomotion (host : Host α) (es : EntityState α) (ci : ClientInfo α) : Locomotion :=
  .of (host.moveTypes ci) (((host.animation es.legsAnim.index).map Animation.flags).getD .empty)

section Upright

def leansIntoMove (l : Locomotion) (lean yaw : α) : Bool :=
  lean < 0 && l.isMoving && 0 < yaw && yaw < 90

def tilt (p : Controllers α) (amount : α) : Controllers α :=
  let angles := p.originAngles.addX amount
  { p with originAngles := { angles with z := angles.z - amount } }

def bend (p : Controllers α) (lean : α) : Controllers α :=
  { p with
    backLow := (p.backLow.addX (40 * -lean)).addY (30 * -lean)
    backMid := p.backMid.addX (-20 * -lean)
    backUp := p.backUp.addX (-20 * -lean) }

def straighten (p : Controllers α) : Controllers α :=
  { p with backLow := reproject p.originAngles p.backLow }

def upright (es : EntityState α) (l : Locomotion) (yaw lean : α) (p : Controllers α) : Enhanced α :=
  let crouching := es.isCrouching
  let movement := l.movement yaw ||| (if crouching then .crouch else .stand : ControllerMovement)
  let into := leansIntoMove l lean yaw
  let p := if into then tilt p (-lean * (if crouching then 3.8 else 7.2)) else p
  let p := if crouching && lean < 0 && l.isMoving then bend p lean else p
  let e : Enhanced α := ⟨movement, 250, straighten p⟩
  if into then e.mark (if crouching then .crouchLeanLeft else .standLeanLeft) else e

end Upright

section Prone

def flatness (lean : α) : α :=
  if lean < 0 then (0.25 + lean) / 0.25
  else if 0 < lean then (0.25 - lean) / 0.25
  else 1

def flatten (l : Locomotion) (scale : α) (p : Controllers α) : Controllers α :=
  let low := p.backLow.addX (-30 * scale)
  let mid := p.backMid.addX (30 * scale)
  let along := l.isMoving && !l.isSideways
  { p with
    backLow := if along then low.addX (-10 * scale) else low
    backMid := if along then mid.addX (10 * scale) else mid
    pelvis := p.pelvis.addX 3 }

def reloads (a : Animation α) : Bool := Text.occursIn "reload".toList a.name.toList

def crawlBack (p : Controllers α) : Controllers α :=
  { p with
    originOffset := ((p.originOffset.addY (-8)).addZ (-3)).addZ (-3)
    backLow := p.backLow.addX (-20)
    pelvis := p.pelvis.addX 7 }

def prone (l : Locomotion) (lean yaw : α) (torso : Option (Animation α)) (p : Controllers α) :
    Enhanced α :=
  let scale := flatness lean
  let movement := l.movement yaw ||| (.prone : ControllerMovement)
  let p := flatten l scale p
  if l.backward && scale != 0 then
    let p := crawlBack p
    match torso with
    | none => ⟨movement, 400, p⟩
    | some a =>
        if reloads a then
          Enhanced.mark ⟨movement, 400, { p with pelvis := p.pelvis.addX 14 }⟩ .proneBackwardsReload
        else Enhanced.mark ⟨movement, 100, { p with pelvis := p.pelvis.addX 13 }⟩ .proneBackwardsFire
  else if l.isSideways && scale != 0 then
    ⟨movement, 150, { p with originOffset := p.originOffset.addZ (-1) }⟩
  else if l.forward && torso.any reloads then
    Enhanced.mark ⟨movement, 400, { p with pelvis := p.pelvis.addX 3 }⟩ .proneForwardReload
  else ⟨movement, 400, p⟩

end Prone

section Ladder

def ladderLook (ci : ClientInfo α) : Vec3 α :=
  ⟨Scalar.clamp (-80) 70 ci.viewAngles.x, wrap180 (ci.viewAngles.y - ci.torso.yaw.angle), 0⟩

/-- The neck of a player on a ladder. Its base angles cancel the turn of the head that the animations of
climbing have. -/
def ladderNeck (ci : ClientInfo α) (pitch : α) : Vec3 α :=
  reproject .zero (⟨pitch, -12, -9⟩ + ladderLook ci)

def lookDown (ci : ClientInfo α) (neck : Vec3 α) : Vec3 α :=
  let sinOf (low high x : α) : α := Scalar.sin (Scalar.toRadians (Scalar.clamp low high x))
  let down := sinOf 0 90 ci.viewAngles.x
  (neck.addX (down * sinOf (-90) 0 ci.movementYaw * 45)).addY
    (down * sinOf 0 90 ci.movementYaw * 30)

def ladder (ci : ClientInfo α) (moveTypes : MoveTypes) (e : Enhanced α) : Enhanced α :=
  if moveTypes.contains MoveTypes.climbUp then
    Enhanced.mark { e with pose := { e.pose with neck := lookDown ci (ladderNeck ci 30) } } .climbUp
  else if moveTypes.contains MoveTypes.climbDown then
    Enhanced.mark { e with pose := { e.pose with neck := ladderNeck ci (-30) } } .climbDown
  else e

end Ladder

def of (host : Host α) (es : EntityState α) (ci : ClientInfo α) (p : Controllers α) : Enhanced α :=
  let l := locomotion host es ci
  let e :=
    if es.isProne then prone l ci.lean ci.movementYaw (ci.torso.animation.bind host.animation) p
    else upright es l ci.movementYaw (leanCurve ci.lean) p
  ladder ci (host.moveTypes ci) e

section Stance

/-- The part of going down to prone after which the body touches the ground. -/
def touchdown : α := 0.4

/-- A pose on its way down to prone: the head stays centred on the view while the body falls, and the
body bounces off the ground. -/
def dropping (progress : α) (p : Controllers α) : Controllers α :=
  let falling := raisedCosine (Scalar.clamp 0 1 (progress / (1 - touchdown)))
  let landed := raisedCosine (Scalar.clamp 0 1 ((progress - touchdown) / (1 - touchdown)))
  { p with
    originOffset := (p.originOffset.addX (falling * -5)).addZ (landed * 12)
    originAngles := p.originAngles.addX (landed * -10)
    backLow := p.backLow.addX (landed * 10) }

def rising (progress : α) (p : Controllers α) : Controllers α :=
  { p with originOffset := p.originOffset.addX (raisedCosine progress * -5) }

def inTransition (transition : StanceTransition) (progress : α) (p : Controllers α) : Controllers α :=
  if progress ≤ 0 ∨ 1 ≤ progress then p
  else match transition with
    | .crouchToProne => dropping progress p
    | .proneToCrouch => rising progress p
    | _ => p

end Stance

/-- Whether a player throws a grenade with the animation of another stance. -/
def throwMismatch (host : Host α) (es : EntityState α) (ci : ClientInfo α) : Bool :=
  (ci.legs.animation.bind host.animation).any fun legs =>
    (legs.name == "pb_stand_grenade_throw" && (es.isProne || es.isCrouching)) ||
      (legs.name == "pb_crouch_grenade_throw" && !es.isCrouching)

end Enhanced

structure Built (α : Type) where
  target : Controllers α
  store : Store α
  edits : List HostEdit

/-- The pose that a player should have. With the enhanced animations it also records what the player is
doing. If `neutral` is set, the server resets the player to the neutral animation instead; on a mounted
gun the pose is left to the animation. -/
def buildTarget {α : Type} [Scalar α] (frame : Frame) (host : Host α) (store : Store α)
    (es : EntityState α) (ci : ClientInfo α) (neutral : Bool) : Except Fault (Built α) :=
  if neutral && frame.role = .server then
    pure ⟨.zero, store, [.resetAnimations es.clientNum]⟩
  else if es.onMountedGun then pure ⟨.zero, store, []⟩
  else
    let base := Target.base es ci (host.moveTypes ci)
    if frame.compat.isEnhanced then do
      let key ← PlayerKey.of ci.clientNum frame.role
      let data := store.entry key
      let enhanced := Enhanced.of host es ci base
      let progress ← data.stance.progress frame.time
      pure
        { target := Enhanced.inTransition data.stance.transition progress enhanced.pose
          store := store.put key
            { data with movement := enhanced.movement, movementTime := enhanced.blendTime }
          edits :=
            if frame.role = .server && Enhanced.throwMismatch host es ci then
              [.clearLegsTimer es.clientNum]
            else [] }
    else pure ⟨base, store, []⟩

end PlayerAnimation
