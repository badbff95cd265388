import PlayerAnimation.Vec3

namespace PlayerAnimation.Angle

variable {α : Type} [Scalar α]

def wrap360 (angle : α) : α :=
  let rest := Scalar.remainder angle 360
  let rest := if rest < 0 then rest + 360 else rest
  if 360 ≤ rest then 0 else rest

def wrap180 (angle : α) : α :=
  let angle := wrap360 angle
  if 180 < angle then angle - 360 else angle

def diff (a b : α) : α := wrap180 (a - b)

def diffs (a b : Vec3 α) : Vec3 α := Vec3.zip diff a b

/-- Turns the pitch and roll of a child by its yaw relative to its parent. They apply in the frame of the
parent, so without this a bone that is yawed relative to its parent tilts about the wrong axis. -/
def reproject (parent child : Vec3 α) : Vec3 α :=
  let yaw := Scalar.toRadians (child.y - parent.y)
  let sin := Scalar.sin yaw
  let cos := Scalar.cos yaw
  ⟨child.x * cos - child.z * sin, child.y, child.x * sin + child.z * cos⟩

def leanCurve (lean : α) : α := (2 - Scalar.abs lean) * lean

def raisedCosine (fraction : α) : α := 0.5 * (1 - Scalar.cos (Scalar.turn * fraction))

def approach (goal limit current : α) : α :=
  let diff := goal - current
  if limit < diff then current + limit
  else if diff < -limit then current - limit
  else goal

def approachEach (goal : Vec3 α) (limit : α) (current : Vec3 α) : Vec3 α :=
  Vec3.zip (fun goal current => approach goal limit current) goal current

def approachAlong (goal : Vec3 α) (limit : α) (current : Vec3 α) : Vec3 α :=
  let diff := goal - current
  let distance := diff.length
  if distance == 0 then current
  else if limit < distance then current + diff.scale (limit / distance)
  else goal

end PlayerAnimation.Angle
