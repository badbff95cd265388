import PlayerAnimation.Config.Number
import PlayerAnimation.Flags.Text
import PlayerAnimation.Number.Numeral
import PlayerAnimation.Number.Shortest

namespace PlayerAnimation

inductive ConfigValue
  | number (x : Float)
  | text (s : String)

def ConfigValue.toText : ConfigValue → String
  | number x => .ofList (Shortest.text x)
  | text s => s

/-- The values of a configuration file by the names of their variables, in the order of the names. -/
structure Config where
  entries : List (String × ConfigValue)

namespace Config

def insert (name : String) (value : ConfigValue) :
    List (String × ConfigValue) → List (String × ConfigValue)
  | [] => [(name, value)]
  | entry :: rest =>
      if name < entry.1 then (name, value) :: entry :: rest
      else if name = entry.1 then (name, value) :: rest
      else entry :: insert name value rest

def ofEntries (entries : List (String × ConfigValue)) : Config :=
  ⟨entries.foldl (fun sorted entry => insert entry.1 entry.2 sorted) []⟩

namespace Reader

def isSpace (c : Char) : Bool := c == ' ' || c == '\t' || c == '\n' || c == '\r'

def skip (cs : List Char) : List Char := cs.dropWhile isSpace

def mark? (c : Char) (cs : List Char) : Option (List Char) :=
  match skip cs with
  | [] => none
  | d :: rest => if c = d then some rest else none

def unit? (a b c d : Char) : Option Nat := Flags.hexValue? 0 [a, b, c, d]

def escape? : Char → Option Char
  | '"' => some '"'
  | '\\' => some '\\'
  | '/' => some '/'
  | 'b' => some '\x08'
  | 'f' => some '\x0c'
  | 'n' => some '\n'
  | 'r' => some '\r'
  | 't' => some '\t'
  | _ => none

def pair? (high low : Nat) : Option Char :=
  if 0xd800 ≤ high ∧ high < 0xdc00 ∧ 0xdc00 ≤ low ∧ low < 0xe000 then
    some (Char.ofNat (0x10000 + (high - 0xd800) * 0x400 + (low - 0xdc00)))
  else none

def plain? (unit : Nat) : Option Char :=
  if 0xd800 ≤ unit ∧ unit < 0xe000 then none else some (Char.ofNat unit)

/-- Reads the first character of a string, with what it takes to write it. A surrogate has to be half of
a pair, and control characters have to be escaped. -/
def char? : List Char → Option (Char × List Char)
  | '\\' :: 'u' :: a :: b :: c :: d :: rest => do
      let unit ← unit? a b c d
      match plain? unit with
      | some char => pure (char, rest)
      | none =>
          match rest with
          | '\\' :: 'u' :: a :: b :: c :: d :: rest => do
              pure (← pair? unit (← unit? a b c d), rest)
          | _ => none
  | '\\' :: c :: rest => (escape? c).map (·, rest)
  | c :: rest => if c.toNat < 0x20 || c = '\\' then none else some (c, rest)
  | [] => none

def body? : Nat → List Char → List Char → Option (String × List Char)
  | 0, _, _ => none
  | fuel + 1, read, cs =>
      match cs with
      | '"' :: rest => some (.ofList read.reverse, rest)
      | cs => do
          let (c, rest) ← char? cs
          body? fuel (c :: read) rest

def string? (cs : List Char) : Option (String × List Char) := do
  let cs ← mark? '"' cs
  body? (cs.length + 1) [] cs

def exponent? : List Char → Option (Int × List Char)
  | [] => some (0, [])
  | c :: cs =>
      if c = 'e' ∨ c = 'E' then
        let (negative, cs) := Numeral.takeSign cs
        let digits := cs.takeWhile Char.isDigit
        let n : Int := Numeral.digitsValue 0 digits
        if digits.isEmpty then none
        else some (if negative then -n else n, cs.dropWhile Char.isDigit)
      else some (0, c :: cs)

def number? (cs : List Char) : Option (Float × List Char) := do
  let negative := cs.head? = some '-'
  let cs := if negative then cs.tail else cs
  let whole := cs.takeWhile Char.isDigit
  let rest := cs.dropWhile Char.isDigit
  if whole.isEmpty || (whole.head? = some '0' && 1 < whole.length) then none
  else
    let pointed := rest.head? = some '.'
    let fraction := if pointed then rest.tail.takeWhile Char.isDigit else []
    let rest := if pointed then rest.tail.dropWhile Char.isDigit else rest
    if pointed && fraction.isEmpty then none
    else
      let (exponent, rest) ← exponent? rest
      pure (← NumberText.value ⟨negative, whole, fraction, exponent⟩, rest)

def value? (cs : List Char) : Option (ConfigValue × List Char) :=
  match skip cs with
  | '"' :: rest => (string? ('"' :: rest)).map fun (s, rest) => (.text s, rest)
  | cs => (number? cs).map fun (x, rest) => (.number x, rest)

def entry? (cs : List Char) : Option ((String × ConfigValue) × List Char) := do
  let (name, cs) ← string? cs
  let cs ← mark? ':' cs
  let (value, cs) ← value? cs
  pure ((name, value), cs)

def more? : Nat → List (String × ConfigValue) → List Char →
    Option (List (String × ConfigValue) × List Char)
  | 0, _, _ => none
  | fuel + 1, read, cs => do
      let (entry, cs) ← entry? cs
      match skip cs with
      | ',' :: cs => more? fuel (entry :: read) cs
      | '}' :: cs => pure ((entry :: read).reverse, cs)
      | _ => none

def entries? (cs : List Char) : Option (List (String × ConfigValue) × List Char) := do
  let cs ← mark? '{' cs
  match skip cs with
  | '}' :: cs => pure ([], cs)
  | cs => more? (cs.length + 1) [] cs

def file? (cs : List Char) : Option (List (String × ConfigValue) × List Char) :=
  match skip cs with
  | '{' :: cs =>
      match skip cs with
      | '}' :: cs => some ([], cs)
      | cs => do
          let (member, cs) ← string? cs
          if member = "cvars" then
            let (entries, cs) ← entries? (← mark? ':' cs)
            pure (entries, ← mark? '}' cs)
          else none
  | '[' :: cs =>
      match skip cs with
      | ']' :: cs => some ([], cs)
      | cs => do
          let (entries, cs) ← entries? cs
          pure (entries, ← mark? ']' cs)
  | _ => none

end Reader

/-- Reads a configuration file. It accepts what the JSON reader of the library `serde_json` is documented to accept;
the library itself is not part of the program. -/
def parse? (text : String) : Option Config := do
  let (entries, rest) ← Reader.file? text.toList
  if Reader.skip rest = [] then pure (ofEntries entries) else none

end Config

end PlayerAnimation
