namespace PlayerAnimation.Shortest

/-- A positive number and the interval of what rounds to it, as numerators of one denominator. The ends
round to the number if `closed` is set. -/
structure Interval where
  low : Nat
  value : Nat
  high : Nat
  den : Nat
  closed : Bool

namespace Interval

/-- The interval of the number `m * 2 ^ e`. The numbers below a power of two are twice as dense, except
for the smallest ones. -/
def ofBinary (m : Nat) (e : Int) : Interval :=
  let below := if m = 1 <<< 52 ∧ -1074 < e then 1 else 2
  let up := 1 <<< (e - 2).toNat
  { low := (4 * m - below) * up
    value := 4 * m * up
    high := (4 * m + 2) * up
    den := 1 <<< (2 - e).toNat
    closed := m % 2 = 0 }

def holds (i : Interval) (n : Nat) : Bool :=
  if i.closed then i.low ≤ n && n ≤ i.high else i.low < n && n < i.high

def scaled (i : Interval) (k : Int) : Interval :=
  let up := Nat.pow 10 k.toNat
  { i with
    low := i.low * up
    value := i.value * up
    high := i.high * up
    den := i.den * Nat.pow 10 (-k).toNat }

/-- The whole number in the interval that is nearest to its value, if one is in it: one of the two
neighbours of the value, and the upper one if the value is halfway between them. -/
def whole? (i : Interval) : Option Nat :=
  let n := i.value / i.den
  let down := i.holds (n * i.den)
  let up := i.holds ((n + 1) * i.den)
  if down && (!up || 2 * i.value < (2 * n + 1) * i.den) then some n
  else if up then some (n + 1)
  else none

/-- The digits and the power of ten of the shortest decimal in the interval: that of the coarsest grid of
decimals which has a point in it. -/
def shortest (i : Interval) : Nat × Int :=
  ((List.range 640).findSome? fun n : Nat =>
    let k : Int := 309 - n
    ((i.scaled (-k)).whole?).map (·, k)).getD (0, 0)

end Interval

def positional (digits : Nat) (power : Int) : List Char :=
  if 0 ≤ power then Nat.toDigits 10 (digits * Nat.pow 10 power.toNat)
  else
    let places := (-power).toNat
    let unit := Nat.pow 10 places
    let fraction := Nat.toDigits 10 (digits % unit)
    Nat.toDigits 10 (digits / unit) ++
      '.' :: (List.replicate (places - fraction.length) '0' ++ fraction)

def signed (negative : Bool) (cs : List Char) : List Char := if negative then '-' :: cs else cs

/-- The shortest text that reads back as the number, never with an exponent. Zero keeps its sign. -/
def text (x : Float) : List Char :=
  match x.toModel.unpack with
  | .notANumber => "NaN".toList
  | .infinity s => signed (s matches .negative) "inf".toList
  | .zero s => signed (s matches .negative) "0".toList
  | .finite s m e _ =>
      let (digits, power) := (Interval.ofBinary m e).shortest
      signed (s matches .negative) (positional digits power)

end PlayerAnimation.Shortest
