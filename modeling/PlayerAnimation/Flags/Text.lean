import PlayerAnimation.Flags.Basic
import PlayerAnimation.Text.Split

namespace PlayerAnimation.Flags

variable {spec : FlagSpec}

def hexText (n : Nat) : String := "0x" ++ .ofList (Nat.toDigits 16 n)

def parts (f : Flags spec) : List String :=
  (spec.flags.filter fun flag => f.contains (bit flag.2)).map Prod.fst ++
    if f.unknown = empty then [] else [hexText f.unknown.bits.toNat]

/-- The text of a word. Writing and reading follow the text format that the library `bitflags` documents; the
library itself is not part of the program. -/
def toText (f : Flags spec) : String := " | ".intercalate f.parts

def toLogText (f : Flags spec) : String :=
  spec.name ++ "(" ++ (if f = empty then "0x0" else f.toText) ++ ")"

def hexDigit? (c : Char) : Option Nat :=
  if c.isDigit then some (c.toNat - '0'.toNat)
  else if 'a' ≤ c ∧ c ≤ 'f' then some (c.toNat - 'a'.toNat + 10)
  else if 'A' ≤ c ∧ c ≤ 'F' then some (c.toNat - 'A'.toNat + 10)
  else none

def hexValue? : Nat → List Char → Option Nat
  | acc, [] => some acc
  | acc, c :: cs => do hexValue? (16 * acc + (← hexDigit? c)) cs

def ofHex? (cs : List Char) : Option (Flags spec) := do
  let digits := if cs.head? = some '+' then cs.tail else cs
  if digits = [] then none
  else
    let n ← hexValue? 0 digits
    let bits := BitVec.ofNat spec.width n
    if bits.toNat = n then some ⟨bits⟩ else none

def ofName? (name : String) : Option (Flags spec) :=
  (spec.flags.lookup name).map bit

def ofPart? : List Char → Option (Flags spec)
  | '0' :: 'x' :: digits => ofHex? digits
  | cs => ofName? (.ofList cs)

/-- Reads a text. White space around the parts does not matter, nor does their order; each part has to be
readable on its own, so that none is empty, except that a blank text is the word without bits. -/
def ofText? (text : String) : Option (Flags spec) :=
  let cs := text.toList
  if Text.trim cs = [] then some empty
  else ((Text.pieces (· == '|') cs).mapM fun part => ofPart? (Text.trim part)).map unions

end PlayerAnimation.Flags
