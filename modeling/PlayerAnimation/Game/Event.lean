import PlayerAnimation.Console
import PlayerAnimation.Flags.Text
import PlayerAnimation.Store

namespace PlayerAnimation

inductive Level
  | debug
  | info
  | warn
deriving DecidableEq

def Level.name : Level → String
  | debug => "DEBUG"
  | info => "INFO"
  | warn => "WARN"

inductive Field
  | int (n : Int)
  | text (s : String)
deriving DecidableEq

inductive Event
  | pose (event : PoseEvent)
  | variableSet (var : Variable) (value : String)
  | loading (path : String)
  | skipped (name : String) (error : SetError)
  | compatChanged (version : Int) (compat : Compat)
  | playerMoved (role : Role) (clientNum : Nat) (time : Int) (movement : ControllerMovement)
      (duration : Int)
  | playerPosed (role : Role) (clientNum : Nat)
deriving DecidableEq

namespace Event

def level : Event → Level
  | pose _ | variableSet .. => .debug
  | loading _ | compatChanged .. | playerMoved .. | playerPosed .. => .info
  | skipped .. => .warn

def message? : Event → Option String
  | pose (.stanceTransition ..) => some "stance transition"
  | pose (.movementChanged ..) | playerMoved .. => some "controller movement changed"
  | pose (.movementFinished _) => some "controller movement finished"
  | variableSet .. => some "setting console variable"
  | loading path => some ("loading config from " ++ path)
  | skipped name error => some ("skipping `" ++ name ++ "`: " ++ error.message)
  | compatChanged .. => some "animation compatibility changed"
  | playerPosed .. => none

def fields : Event → List (String × Field)
  | pose (.stanceTransition role clientNum transition finish) =>
      [("role", .text role.name), ("client_num", .int clientNum),
        ("transition", .text transition.name), ("end", .int finish)]
  | pose (.movementChanged time movement duration) =>
      [("time", .int time), ("movement", .text movement.toLogText), ("duration", .int duration)]
  | pose (.movementFinished time) => [("time", .int time)]
  | variableSet v value => [("name", .text v.name), ("value", .text value)]
  | loading _ | skipped .. => []
  | compatChanged version compat => [("version", .int version), ("compat", .text compat.name)]
  | playerMoved role clientNum time movement duration =>
      [("role", .text role.name), ("client_num", .int clientNum), ("time", .int time),
        ("movement", .text movement.toLogText), ("duration", .int duration)]
  | playerPosed role clientNum => [("role", .text role.name), ("client_num", .int clientNum)]

end Event

end PlayerAnimation
