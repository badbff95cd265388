import PlayerAnimation.Controllers

namespace PlayerAnimation

inductive Variable
  | version
  | debug
  | offsetEnable
  | offsetNeutral
  | offset (slot : Controller)
  | swingSpeed
deriving DecidableEq

namespace Variable

def name : Variable → String
  | version => "g_cod2x"
  | debug => "player_debug"
  | offsetEnable => "player_offsetEnable"
  | offsetNeutral => "player_offsetNeutral"
  | offset .backLow => "player_offsetAngleBackLow"
  | offset .backMid => "player_offsetAngleBackMid"
  | offset .backUp => "player_offsetAngleBackUp"
  | offset .neck => "player_offsetAngleNeck"
  | offset .head => "player_offsetAngleHead"
  | offset .pelvis => "player_offsetAnglePelvis"
  | offset .originAngles => "player_offsetAngleOrigin"
  | offset .originOffset => "player_offsetPositionOrigin"
  | swingSpeed => "bg_swingSpeed"

def initial : Variable → String
  | version | debug | offsetEnable | offsetNeutral => "0"
  | offset _ => "0 0 0"
  | swingSpeed => "0.2"

def description : Variable → String
  | version =>
      "Compatibility version of the server. Versions 3 and above enable the enhanced animations, " ++
        "lower versions behave exactly like the original game."
  | debug =>
      "Logs controller changes.\n\n- `0` - disabled.\n- `1` - log movement changes.\n" ++
        "- `2` - also log the controller targets every frame."
  | offsetEnable => "Set to `1` to add the `player_offset*` variables to the controller targets."
  | offsetNeutral =>
      "Set to `1` to keep the players in the neutral animation, which makes the offsets easier to " ++
        "see. Only takes effect on the server."
  | offset .backLow => "Lower back angle offset."
  | offset .backMid => "Middle back angle offset."
  | offset .backUp => "Upper back angle offset."
  | offset .neck => "Neck angle offset."
  | offset .head => "Head angle offset."
  | offset .pelvis => "Pelvis angle offset."
  | offset .originAngles => "Model origin angle offset."
  | offset .originOffset => "Model origin position offset."
  | swingSpeed =>
      "Turning speed of the torso and legs with the original animations, in degrees per millisecond."

end Variable

structure Feature where
  name : String
  description : String
  vars : List Variable

namespace Feature

def compatibility : Feature where
  name := "Animation compatibility"
  description :=
    "Switching between the original and the enhanced player animations.\n\n" ++
      "Enhanced animations only look right when the server and all clients agree on them, so the " ++
      "server announces its version through `g_cod2x`."
  vars := [.version]

def console : Feature where
  name := "Console variables"
  description := "Makes cod2x-rs able to register console variables."
  vars := []

def controllers : Feature where
  name := "Player controllers"
  description :=
    "Bending the player model's spine, neck and head to follow the view, movement, leaning and " ++
      "stance changes.\n\n" ++
      "The offset variables are meant for tuning the poses and only apply with the enhanced " ++
      "animations."
  vars := [.debug, .offsetEnable, .offsetNeutral] ++ Controller.all.map .offset

def facing : Feature where
  name := "Player facing"
  description :=
    "Turning the player's torso and legs towards the view and the movement direction.\n\n" ++
      "With the enhanced animations the torso follows the view immediately and the legs point " ++
      "where the player is actually going."
  vars := [.swingSpeed]

def all : List Feature := [compatibility, console, controllers, facing]

end Feature

def Variable.all : List Variable := Feature.all.flatMap Feature.vars

theorem Variable.mem_all (v : Variable) : v ∈ all := by
  cases v with
  | offset slot => cases slot <;> decide
  | _ => decide

end PlayerAnimation
