namespace PlayerAnimation.Config

structure NumberText where
  negative : Bool
  whole : List Char
  fraction : List Char
  exponent : Int

namespace NumberText

def leading (acc : Nat) : List Char → Nat × List Char
  | [] => (acc, [])
  | c :: cs =>
      let next := 10 * acc + (c.toNat - '0'.toNat)
      if next < UInt64.size then leading next cs else (acc, c :: cs)

/-- The significant digits of a number and their power of ten. Digits left out before the point count for
the power; those after it do not. -/
def significand (n : NumberText) : Nat × Int :=
  let (whole, dropped) := leading 0 n.whole
  let (digits, rest) := leading whole n.fraction
  (digits, dropped.length - (n.fraction.length - rest.length) + n.exponent)

def maxPower : Int := 308

def scale (x : Float) (power : Int) : Option Float :=
  if power.natAbs ≤ maxPower.natAbs then
    if 0 ≤ power then
      let y := x * Float.ofScientific 1 false power.natAbs
      if y.isInf then none else some y
    else some (x / Float.ofScientific 1 false power.natAbs)
  else if x == 0 then some x
  else if 0 ≤ power then none
  else scale (x / Float.ofScientific 1 false maxPower.natAbs) (power + maxPower)
termination_by power.natAbs
decreasing_by
  simp only [maxPower] at *
  omega

/-- The value of a number, worked out as the JSON reader of `serde_json` does it, which is not always the nearest
float to what is written. -/
def value (n : NumberText) : Option Float := do
  let (digits, power) := n.significand
  let x ← scale (UInt64.ofNat digits).toFloat power
  pure (if n.negative then -x else x)

end NumberText

end PlayerAnimation.Config
