import PlayerAnimation.Number.Scalar

namespace PlayerAnimation.Single

open Float.Model

def ofInt (n : Int) : Float32 := .ofModel (.ofInt n)

/-- The whole part of a number. Numbers outside a 32-bit word become the nearer end of it, and what is
not a number becomes zero. -/
def toInt (x : Float32) : Int := x.toModel.unpack.toInt32.toInt

/-- The remainder of a division rounded towards zero. It needs no rounding: both numbers are brought to
the smaller exponent, and the remainder of the mantissas has no more digits than they have. -/
def remainder (x y : Float32) : Float32 :=
  match x.toModel.unpack, y.toModel.unpack with
  | .finite s m e _, .finite _ n f _ =>
      let low := min e f
      let rest := (m <<< (e - low).toNat) % (n <<< (f - low).toNat)
      .ofModel (.pack (.normalize .binary32 (s.apply rest) low s))
  | .zero _, .finite .. | .zero _, .infinity _ | .finite .., .infinity _ => x
  | _, _ => .ofModel (.pack .notANumber)

def holds (n : Int) : Bool := -0x80000000 ≤ n && n < 0x80000000

end Single

/-- The three constants are the single precision numbers nearest to 2π, π / 180 and 180 / π. -/
instance Single.instScalar : Scalar Float32 where
  decimal digits places := Float32.ofScientific digits true places
  ofInt := Single.ofInt
  toInt := Single.toInt
  remainder := Single.remainder
  sqrt := Float32.sqrt
  sin := Float32.sin
  cos := Float32.cos
  atan2 := Float32.atan2
  turn := .ofBits 0x40c90fdb
  radiansPerDegree := .ofBits 0x3c8efa35
  degreesPerRadian := .ofBits 0x42652ee1
  holds := Single.holds
  decLt := inferInstance
  decLe := inferInstance

end PlayerAnimation
