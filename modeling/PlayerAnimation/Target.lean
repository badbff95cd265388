import PlayerAnimation.Store

namespace PlayerAnimation

/-- What the pose of a player starts from: how the torso is turned on the origin, how the head is turned
on the torso, and the origin itself. -/
structure Posture (α : Type) where
  lean : α
  torso : Vec3 α
  head : Vec3 α
  originAngles : Vec3 α
  originOffset : Vec3 α

namespace Posture

open Angle

variable {α : Type} [Scalar α]

def leanRoll : α := 50 * 0.925

def leanShift (crouching : Bool) (lean : α) : α :=
  if crouching then (if lean ≤ 0 then 12.5 else 2.5)
  else (if lean ≤ 0 then 5 else 2.5)

def torsoPitch (es : EntityState α) (ci : ClientInfo α) (moveTypes : MoveTypes) : α :=
  if moveTypes.intersects MoveTypes.climb then 0
  else if es.isProne then
    let pitch := wrap180 ci.torso.pitch.angle
    pitch * (if pitch ≤ 0 then 0.25 else 0.5)
  else ci.torso.pitch.angle

def originYaw (es : EntityState α) (ci : ClientInfo α) : α :=
  if es.isDead then ci.legs.yaw.angle else diff ci.legs.yaw.angle ci.viewAngles.y

def of (es : EntityState α) (ci : ClientInfo α) (moveTypes : MoveTypes) : Posture α :=
  let torso : Vec3 α := ⟨torsoPitch es ci moveTypes, ci.torso.yaw.angle, 0⟩
  let lean := leanCurve ci.lean
  let roll := lean * leanRoll
  { lean
    torso := { diffs torso ⟨0, ci.legs.yaw.angle, 0⟩ with z := roll }
    head := { diffs ci.viewAngles torso with z := roll }
    originAngles := ⟨0, originYaw es ci, 0⟩
    originOffset :=
      ⟨0, if lean != 0 then 0 + -lean * leanShift es.isCrouching lean else 0, es.torsoHeight⟩ }

end Posture

namespace Target

open Angle

variable {α : Type} [Scalar α]

def waist (es : EntityState α) (a b : α) : α :=
  if es.torsoPitch != 0 || es.waistPitch != 0 then diff a b else 0

def backLowShare : Vec3 α := ⟨0.2, 0.4, 0.5⟩

def backMidShare : Vec3 α := ⟨0.3, 0.4, 0.5⟩

def backUpShare : Vec3 α := ⟨0.5, 0.2, -0.6⟩

def neckShare : Vec3 α := ⟨0.3, 0.3, 0⟩

def headShare : Vec3 α := ⟨0.7, 0.7, -0.3⟩

def assemble (es : EntityState α) (backLow backMid backUp head originAngles originOffset : Vec3 α) :
    Controllers α where
  backLow := backLow
  backMid := backMid
  backUp := backUp
  neck := head * neckShare
  head := head * headShare
  pelvis := ⟨waist es es.waistPitch es.torsoPitch, 0, 0⟩
  originAngles := originAngles
  originOffset := originOffset

def prone (es : EntityState α) (p : Posture α) : Controllers α :=
  let torso := p.torso
  let head := if p.lean != 0 then { p.head with z := p.head.z * 0.5 } else p.head
  let sin := Scalar.sin (Scalar.toRadians torso.y)
  let cos := Scalar.cos (Scalar.toRadians torso.y)
  let shift := p.originOffset.y + sin * -12
  assemble es
    ⟨waist es es.torsoPitch es.waistPitch, torso.z * -1.2, torso.z * 0.3⟩
    ⟨0, torso.y * 0.1 - torso.z * 0.2, torso.z * 0.2⟩
    ⟨torso.x, torso.y * 0.8 + torso.z, torso.z * -0.2⟩
    head
    (p.originAngles.addX es.torsoPitch)
    { p.originOffset with
      x := p.originOffset.x + (1 - cos) * -24
      y := if 0 < p.lean * sin then shift + -p.lean * (1 - cos) * 16 else shift }

def upright (es : EntityState α) (p : Posture α) : Controllers α :=
  let leans := p.lean != 0 && (!es.isCrouching || p.lean ≤ 0)
  let torso := if leans then { p.torso with z := p.torso.z * 1.25 } else p.torso
  let head := if leans then { p.head with z := p.head.z * 1.25 } else p.head
  let backLow := torso * backLowShare
  assemble es
    (backLow.addX (waist es es.torsoPitch es.waistPitch))
    (torso * backMidShare)
    (torso * backUpShare)
    head
    (p.originAngles.addZ (p.lean * 3.75))
    p.originOffset

def base (es : EntityState α) (ci : ClientInfo α) (moveTypes : MoveTypes) : Controllers α :=
  let posture := Posture.of es ci moveTypes
  if es.isProne then prone es posture else upright es posture

end Target

end PlayerAnimation
