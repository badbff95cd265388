import PlayerAnimation.Console.Variable
import PlayerAnimation.Frame
import PlayerAnimation.Number.Numeral
import PlayerAnimation.Number.Single

namespace PlayerAnimation

inductive SetError
  | unknown (name : String)
  | notRegistered (var : Variable)
  | invalidValue (var : Variable) (value : String)
deriving DecidableEq

def SetError.message : SetError → String
  | unknown name => "unknown console variable `" ++ name ++ "`"
  | notRegistered v => "console variable `" ++ v.name ++ "` is not registered"
  | invalidValue v value => "invalid value for `" ++ v.name ++ "`: `" ++ value ++ "`"

structure Console where
  value : Variable → Option String

namespace Console

def empty : Console := ⟨fun _ => none⟩

def put (c : Console) (v : Variable) (text : Option String) : Console :=
  ⟨fun w => if w = v then text else c.value w⟩

def isRegistered (c : Console) (v : Variable) : Bool := (c.value v).isSome

def sameName (a b : String) : Bool := a.toList.map Char.toLower == b.toList.map Char.toLower

def find? (name : String) : Option Variable := Variable.all.find? fun v => sameName v.name name

def register : List Variable → Console → Console × Option Fault
  | [], c => (c, none)
  | v :: vs, c =>
      if c.isRegistered v then (c, some (.alreadyRegistered v.name))
      else register vs (c.put v (some v.initial))

def registerAll (c : Console) : Console × Option Fault := register Variable.all c

def deregisterAll (c : Console) : Console := Variable.all.foldl (fun c v => c.put v none) c

def isValue (text : String) : Bool := (parseNumbers text).any fun numbers => !numbers.isEmpty

/-- Sets a registered variable to a trimmed text. The second part of the result tells whether this
changes it. -/
def setVariable (c : Console) (v : Variable) (text : String) : Except SetError (Console × Bool) :=
  match c.value v with
  | none => .error (.notRegistered v)
  | some current =>
      if isValue text then
        if current = text then .ok (c, false) else .ok (c.put v (some text), true)
      else .error (.invalidValue v text)

def numbers (c : Console) (v : Variable) : Except Fault (List Float32) :=
  match c.value v with
  | none => .error (.notRegistered v.name)
  | some text => .ok ((parseNumbers text).getD [])

def single (c : Console) (v : Variable) : Except Fault Float32 := do
  pure ((← c.numbers v).head?.getD 0)

def isSet (c : Console) (v : Variable) : Except Fault Bool := do
  pure ((← c.single v) != 0)

def int (c : Console) (v : Variable) : Except Fault Int := do
  pure (Single.toInt (← c.single v))

def vec3 (c : Console) (v : Variable) : Except Fault (Vec3 Float32) := do
  let numbers ← c.numbers v
  let component (i : Nat) : Float32 := numbers[i]?.getD 0
  pure ⟨component 0, component 1, component 2⟩

end Console

end PlayerAnimation
