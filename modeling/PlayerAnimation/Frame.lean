import PlayerAnimation.Player

namespace PlayerAnimation

/-- The two simulations. A listen server runs both, and each keeps its own data. -/
inductive Role
  | server
  | client
deriving DecidableEq

def Role.name : Role → String
  | server => "Server"
  | client => "Client"

inductive Compat
  | legacy
  | enhanced
deriving DecidableEq

namespace Compat

def name : Compat → String
  | legacy => "Legacy"
  | enhanced => "Enhanced"

def isEnhanced : Compat → Bool
  | legacy => false
  | enhanced => true

def enhancedVersion : Int := 3

def ofVersion (version : Int) : Compat := if enhancedVersion ≤ version then enhanced else legacy

end Compat

/-- When a pass runs and for whom. Times are in milliseconds. -/
structure Frame where
  role : Role
  compat : Compat
  time : Int
  frameTime : Int

structure Host (α : Type) where
  animation : UInt32 → Option (Animation α)
  moveTypes : ClientInfo α → MoveTypes
  isFiring : ClientInfo α → Bool

def Host.ofScript {α : Type} (script : Array (Animation α)) (moveTypes : MoveTypes) (firing : Bool) :
    Host α where
  animation i := script[i.toNat]?
  moveTypes _ := moveTypes
  isFiring _ := firing

inductive HostEdit
  | clearLegsTimer (clientNum : Nat)
  | resetAnimations (clientNum : Nat)
deriving DecidableEq

/-- Why the game stops: it was used against its rules. -/
inductive Fault
  | addOverflow
  | subOverflow
  | clientOutOfRange (limit clientNum : Nat)
  | notRegistered (variableName : String)
  | alreadyRegistered (variableName : String)
deriving DecidableEq

def Fault.message : Fault → String
  | addOverflow => "attempt to add with overflow"
  | subOverflow => "attempt to subtract with overflow"
  | clientOutOfRange limit n =>
      "index out of bounds: the len is " ++ toString limit ++ " but the index is " ++ toString n
  | notRegistered name => "console variable `" ++ name ++ "` is not registered"
  | alreadyRegistered name => "`" ++ name ++ "` is already registered"

namespace Clock

variable (α : Type) [Scalar α]

def add (a b : Int) : Except Fault Int :=
  if Scalar.holds α (a + b) then .ok (a + b) else .error .addOverflow

def sub (a b : Int) : Except Fault Int :=
  if Scalar.holds α (a - b) then .ok (a - b) else .error .subOverflow

end Clock

end PlayerAnimation
