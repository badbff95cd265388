import PlayerAnimation.Number.Scalar

namespace PlayerAnimation

/-- Of a rotation, `x` is the pitch, `y` the yaw and `z` the roll. -/
@[ext] structure Vec3 (α : Type) where
  x : α
  y : α
  z : α
deriving DecidableEq

namespace Vec3

variable {α : Type}

def zip (f : α → α → α) (a b : Vec3 α) : Vec3 α := ⟨f a.x b.x, f a.y b.y, f a.z b.z⟩

variable [Scalar α]

def zero : Vec3 α := ⟨0, 0, 0⟩

instance : Add (Vec3 α) := ⟨zip (· + ·)⟩

instance : Sub (Vec3 α) := ⟨zip (· - ·)⟩

instance : Mul (Vec3 α) := ⟨zip (· * ·)⟩

def scale (a : Vec3 α) (k : α) : Vec3 α := ⟨a.x * k, a.y * k, a.z * k⟩

def length (a : Vec3 α) : α := Scalar.sqrt (a.x * a.x + a.y * a.y + a.z * a.z)

def lerp (a b : Vec3 α) (fraction : α) : Vec3 α := a + (b - a).scale fraction

def addX (a : Vec3 α) (d : α) : Vec3 α := { a with x := a.x + d }

def addY (a : Vec3 α) (d : α) : Vec3 α := { a with y := a.y + d }

def addZ (a : Vec3 α) (d : α) : Vec3 α := { a with z := a.z + d }

end Vec3

end PlayerAnimation
