import PlayerAnimation.Frame

namespace PlayerAnimation

/-- The stance that an animation is played in. An animation may be made for two of them. -/
structure StancePose where
  crouching : Bool
  prone : Bool
deriving DecidableEq

namespace StancePose

def ofMoveTypes (moveTypes : MoveTypes) : StancePose where
  crouching := moveTypes.intersects MoveTypes.crouch
  prone := moveTypes.intersects MoveTypes.prone

def standing (p : StancePose) : Bool := !p.crouching && !p.prone

def of {α : Type} (host : Host α) (n : AnimNum) : StancePose :=
  ofMoveTypes (((host.animation n.index).map Animation.moveTypes).getD .empty)

end StancePose

inductive StanceTransition
  | none
  | standToCrouch
  | crouchToProne
  | proneToCrouch
  | crouchToStand
deriving DecidableEq

namespace StanceTransition

def all : List StanceTransition := [none, standToCrouch, crouchToProne, proneToCrouch, crouchToStand]

def name : StanceTransition → String
  | none => "None"
  | standToCrouch => "StandToCrouch"
  | crouchToProne => "CrouchToProne"
  | proneToCrouch => "ProneToCrouch"
  | crouchToStand => "CrouchToStand"

def number : StanceTransition → Nat
  | none => 0
  | standToCrouch => 1
  | crouchToProne => 2
  | proneToCrouch => 3
  | crouchToStand => 4

def between (old new : StancePose) : StanceTransition :=
  if old.standing && new.crouching then standToCrouch
  else if old.crouching && new.prone then crouchToProne
  else if old.prone && new.crouching then proneToCrouch
  else if old.crouching && new.standing then crouchToStand
  else none

def classify {α : Type} (host : Host α) (old new : AnimNum) : StanceTransition :=
  between (.of host old) (.of host new)

def crouchTime : Int := 150

def proneTime : Int := 400

def duration : StanceTransition → Int
  | none => 0
  | standToCrouch | crouchToStand => crouchTime
  | crouchToProne | proneToCrouch => proneTime

/-- The share of the transition to prone in which the animation is blended in: the view drops faster. -/
def crouchToProneShare : Float := 0.58

def blendTime : StanceTransition → Int
  -- The product is cut to whole milliseconds, and in double precision it is just under 232.
  | crouchToProne => (Float.ofInt proneTime * crouchToProneShare).toModel.unpack.toInt32.toInt
  | t => t.duration

end StanceTransition

structure StanceTimer where
  transition : StanceTransition
  duration : Int
  finish : Int
deriving DecidableEq

namespace StanceTimer

def initial : StanceTimer := ⟨.none, 0, 0⟩

variable {α : Type} [Scalar α]

/-- How far along the transition is: 0 at its start, 1 at its end, and beyond these before and after it.
It is 0 if there is no transition. -/
def progress (s : StanceTimer) (time : Int) : Except Fault α :=
  if s.transition = .none ∨ s.duration ≤ 0 then pure 0
  else do
    let left ← Clock.sub α s.finish time
    pure (1 - Scalar.ofInt left / Scalar.ofInt s.duration)

def fraction (s : StanceTimer) (time : Int) : Except Fault α := do
  pure (Scalar.clamp 0 1 (← s.progress time))

def start (α : Type) [Scalar α] (transition : StanceTransition) (time : Int) :
    Except Fault StanceTimer := do
  pure ⟨transition, transition.duration, ← Clock.add α time transition.duration⟩

end StanceTimer

end PlayerAnimation
