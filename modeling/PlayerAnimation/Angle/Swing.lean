import PlayerAnimation.Angle

namespace PlayerAnimation

@[ext] structure SwingAngle (α : Type) where
  angle : α
  swinging : Bool
deriving DecidableEq

namespace SwingAngle

open Angle

variable {α : Type} [Scalar α]

def still (angle : α) : SwingAngle α := ⟨angle, false⟩

def awake (s : SwingAngle α) (destination tolerance : α) : Bool :=
  s.swinging ||
    (let away := diff s.angle destination
     tolerance < away || away < -tolerance)

def pace (away tolerance : α) : α :=
  if Scalar.abs away < tolerance * 0.5 then 0.5
  else if Scalar.abs away < tolerance then 1
  else 2

def move (s : SwingAngle α) (destination tolerance speed duration : α) : SwingAngle α :=
  let away := diff destination s.angle
  let scale := pace away tolerance
  if 0 ≤ away then
    let step := duration * scale * speed
    if away ≤ step then still (wrap360 (s.angle + away)) else ⟨wrap360 (s.angle + step), true⟩
  else
    let step := duration * scale * -speed
    if step ≤ away then still (wrap360 (s.angle + away)) else ⟨wrap360 (s.angle + step), true⟩

/-- Brings an angle that is more than `limit` away from its destination to one degree less than that. -/
def hold (angle destination limit : α) : α :=
  let away := diff destination angle
  if limit < away then wrap360 (destination - (limit - 1))
  else if away < -limit then wrap360 (destination + (limit - 1))
  else angle

/-- Swings an angle towards its destination for `duration` milliseconds, at `speed` degrees in each. A
swing starts once the angle is more than `tolerance` away, and an angle that has swung is then no more
than `limit` away. -/
def swing (s : SwingAngle α) (destination tolerance limit speed duration : α) : SwingAngle α :=
  if s.awake destination tolerance then
    let moved := s.move destination tolerance speed duration
    { moved with angle := hold moved.angle destination limit }
  else s

end SwingAngle

end PlayerAnimation
