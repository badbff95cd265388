namespace PlayerAnimation

/-- Arithmetic for poses: the four operations and comparisons, remainders, the functions of an angle,
and whole numbers going in and out. -/
class Scalar (α : Type) where
  [toAdd : Add α]
  [toSub : Sub α]
  [toMul : Mul α]
  [toDiv : Div α]
  [toNeg : Neg α]
  [toLT : LT α]
  [toLE : LE α]
  [toBEq : BEq α]
  /-- The number written with these digits, the last `places` of them after the point. -/
  decimal (digits places : Nat) : α
  ofInt : Int → α
  /-- The whole part, with what lies outside a 32-bit word cut to the nearer end of it. -/
  toInt : α → Int
  /-- What a division rounded towards zero leaves over; it has the sign of the dividend. -/
  remainder : α → α → α
  sqrt : α → α
  sin : α → α
  cos : α → α
  atan2 : α → α → α
  turn : α
  radiansPerDegree : α
  degreesPerRadian : α
  /-- Whether the clock can hold this many milliseconds. -/
  holds : Int → Bool
  decLt : (a b : α) → Decidable (a < b)
  decLe : (a b : α) → Decidable (a ≤ b)

namespace Scalar

variable {α : Type} [Scalar α]

instance (priority := 10) : Add α := toAdd

instance (priority := 10) : Sub α := toSub

instance (priority := 10) : Mul α := toMul

instance (priority := 10) : Div α := toDiv

instance (priority := 10) : Neg α := toNeg

instance (priority := 10) : LT α := toLT

instance (priority := 10) : LE α := toLE

instance (priority := 10) : BEq α := toBEq

instance (priority := 10) (a b : α) : Decidable (a < b) := decLt a b

instance (priority := 10) (a b : α) : Decidable (a ≤ b) := decLe a b

instance (priority := 10) (n : Nat) : OfNat α n := ⟨decimal n 0⟩

instance (priority := 10) : OfScientific α where
  ofScientific digits afterPoint places :=
    if afterPoint then decimal digits places else decimal (digits * Nat.pow 10 places) 0

def abs (x : α) : α := if x < 0 then -x else x

def clamp (low high x : α) : α := if x < low then low else if high < x then high else x

def toRadians (degrees : α) : α := degrees * radiansPerDegree

def toDegrees (radians : α) : α := radians * degreesPerRadian

end Scalar

end PlayerAnimation
