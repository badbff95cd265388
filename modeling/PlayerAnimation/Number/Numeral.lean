import PlayerAnimation.Text.Split

namespace PlayerAnimation

inductive Numeral
  | decimal (negative : Bool) (digits : Nat) (exponent : Int)
  | infinite (negative : Bool)
  | notANumber
deriving DecidableEq

namespace Numeral

def digitsValue (acc : Nat) (cs : List Char) : Nat :=
  cs.foldl (fun n c => 10 * n + (c.toNat - '0'.toNat)) acc

def takeSign : List Char → Bool × List Char
  | '-' :: cs => (true, cs)
  | '+' :: cs => (false, cs)
  | cs => (false, cs)

def exponent? (cs : List Char) : Option Int :=
  let (negative, digits) := takeSign cs
  if digits.isEmpty || !digits.all Char.isDigit then none
  else some (if negative then -digitsValue 0 digits else digitsValue 0 digits)

def unsigned? (negative : Bool) (cs : List Char) : Option Numeral :=
  let whole := cs.takeWhile Char.isDigit
  let rest := cs.dropWhile Char.isDigit
  let pointed := rest.head? = some '.'
  let fraction := if pointed then rest.tail.takeWhile Char.isDigit else []
  let rest := if pointed then rest.tail.dropWhile Char.isDigit else rest
  if whole.isEmpty && fraction.isEmpty then none
  else
    let digits := digitsValue (digitsValue 0 whole) fraction
    match rest with
    | [] => some (.decimal negative digits (-fraction.length))
    | mark :: more =>
        if mark = 'e' ∨ mark = 'E' then
          (exponent? more).map fun e => .decimal negative digits (e - fraction.length)
        else none

def ofText? (cs : List Char) : Option Numeral :=
  let (negative, body) := takeSign cs
  let lower := String.ofList (body.map Char.toLower)
  if lower = "inf" ∨ lower = "infinity" then some (.infinite negative)
  else if lower = "nan" then some .notANumber
  else unsigned? negative body

def toSingle : Numeral → Float32
  | .decimal negative digits exponent =>
      let x := Float32.ofScientific digits (exponent < 0) exponent.natAbs
      if negative then -x else x
  | .infinite negative => if negative then .ofBits 0xff800000 else .ofBits 0x7f800000
  | .notANumber => .ofBits 0x7fc00000

end Numeral

def parseNumbers (text : String) : Option (List Float32) :=
  (Text.words text.toList).mapM fun word => (Numeral.ofText? word).map Numeral.toSingle

end PlayerAnimation
