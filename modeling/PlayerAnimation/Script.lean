import PlayerAnimation.Flags.Basic

namespace PlayerAnimation

def MoveTypes.spec : FlagSpec where
  name := "MoveTypes"
  width := 64
  flags :=
    [("IDLE", 1), ("IDLECR", 2), ("IDLEPRONE", 3), ("WALK", 4), ("WALKBK", 5), ("WALKCR", 6),
      ("WALKCRBK", 7), ("WALKPRONE", 8), ("WALKPRONEBK", 9), ("RUN", 10), ("RUNBK", 11),
      ("RUNCR", 12), ("RUNCRBK", 13), ("TURNRIGHT", 14), ("TURNLEFT", 15), ("TURNRIGHTCR", 16),
      ("TURNLEFTCR", 17), ("CLIMBUP", 18), ("CLIMBDOWN", 19), ("MANTLE_ROOT", 20),
      ("MANTLE_UP_57", 21), ("MANTLE_UP_51", 22), ("MANTLE_UP_45", 23), ("MANTLE_UP_39", 24),
      ("MANTLE_UP_33", 25), ("MANTLE_UP_27", 26), ("MANTLE_UP_21", 27), ("MANTLE_OVER_HIGH", 28),
      ("MANTLE_OVER_MID", 29), ("MANTLE_OVER_LOW", 30), ("FLINCH_FORWARD", 31),
      ("FLINCH_BACKWARD", 32), ("FLINCH_LEFT", 33), ("FLINCH_RIGHT", 34), ("STUMBLE_FORWARD", 35),
      ("STUMBLE_BACKWARD", 36), ("STUMBLE_WALK_FORWARD", 37), ("STUMBLE_WALK_BACKWARD", 38),
      ("STUMBLE_CROUCH_FORWARD", 39), ("STUMBLE_CROUCH_BACKWARD", 40)]

abbrev MoveTypes := Flags MoveTypes.spec

namespace MoveTypes

def idle : MoveTypes := .bit 1
def idleCrouch : MoveTypes := .bit 2
def idleProne : MoveTypes := .bit 3
def walk : MoveTypes := .bit 4
def walkBack : MoveTypes := .bit 5
def walkCrouch : MoveTypes := .bit 6
def walkCrouchBack : MoveTypes := .bit 7
def walkProne : MoveTypes := .bit 8
def walkProneBack : MoveTypes := .bit 9
def run : MoveTypes := .bit 10
def runBack : MoveTypes := .bit 11
def runCrouch : MoveTypes := .bit 12
def runCrouchBack : MoveTypes := .bit 13
def turnRightCrouch : MoveTypes := .bit 16
def turnLeftCrouch : MoveTypes := .bit 17
def climbUp : MoveTypes := .bit 18
def climbDown : MoveTypes := .bit 19
def stumbleCrouchForward : MoveTypes := .bit 39
def stumbleCrouchBackward : MoveTypes := .bit 40

def forward : MoveTypes := run ||| walk ||| runCrouch ||| walkCrouch ||| walkProne

def backward : MoveTypes := runBack ||| walkBack ||| runCrouchBack ||| walkCrouchBack ||| walkProneBack

def climb : MoveTypes := climbUp ||| climbDown

def idleUpright : MoveTypes := idle ||| idleCrouch

def crouch : MoveTypes :=
  idleCrouch ||| walkCrouch ||| walkCrouchBack ||| runCrouch ||| runCrouchBack |||
    turnRightCrouch ||| turnLeftCrouch ||| stumbleCrouchForward ||| stumbleCrouchBackward

def prone : MoveTypes := idleProne ||| walkProne ||| walkProneBack

end MoveTypes

def AnimFlags.spec : FlagSpec where
  name := "AnimFlags"
  width := 32
  flags := [("STRAFE_LEFT", 4), ("STRAFE_RIGHT", 5)]

abbrev AnimFlags := Flags AnimFlags.spec

namespace AnimFlags

def strafeLeft : AnimFlags := .bit 4
def strafeRight : AnimFlags := .bit 5

end AnimFlags

/-- An animation as it is sent over the network: its index in the script and a bit that toggles whenever
an animation is started, so that starting the same one again is noticed. -/
structure AnimNum where
  word : UInt32
deriving DecidableEq, Inhabited

namespace AnimNum

def toggleBit : UInt32 := 0x200

def index (n : AnimNum) : UInt32 := n.word &&& ~~~toggleBit

def neutral (n : AnimNum) : AnimNum := ⟨(n.word &&& toggleBit) ^^^ toggleBit⟩

end AnimNum

structure Animation (α : Type) where
  name : String
  moveTypes : MoveTypes
  flags : AnimFlags
  /-- How long the animation asks to be blended in, in milliseconds. -/
  initialLerp : Int
  moveSpeed : α

end PlayerAnimation
