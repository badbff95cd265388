import PlayerAnimation.Blend
import PlayerAnimation.Config
import PlayerAnimation.Facing
import PlayerAnimation.Game.Event
import PlayerAnimation.Movement.Direction
import PlayerAnimation.Stance.Start

namespace PlayerAnimation

structure Game where
  console : Console
  compat : Compat
  store : Store Float32

inductive ConfigError
  | unreadable
  | malformed
  | rejected (error : SetError)
deriving DecidableEq

def ConfigError.message : ConfigError → String
  | unreadable => "error reading the config"
  | malformed => "error parsing the config"
  | rejected error => error.message

/-- A pass over a player: who runs it and when, and what the game tells about the player. -/
structure Visit where
  role : Role
  time : Int
  frameTime : Int
  host : Host Float32
  es : EntityState Float32
  ci : ClientInfo Float32

namespace Game

def initial : Game where
  console := (Console.registerAll .empty).1
  compat := .legacy
  store := .fresh

section Console

def setVariable (g : Game) (name value : String) : Except SetError (Game × List Event) :=
  match Console.find? name with
  | none => .error (.unknown name)
  | some v => do
      let text := Text.trimmed value
      let (console, changed) ← g.console.setVariable v text
      pure ({ g with console }, if changed then [.variableSet v text] else [])

def setOrSkip (g : Game) (name value : String) : Game × List Event × Option SetError :=
  match g.setVariable name value with
  | .ok (g, events) => (g, events, none)
  | .error e => (g, [.skipped name e], some e)

def setEach (g : Game) : List (String × ConfigValue) → Game × List Event × Option SetError
  | [] => (g, [], none)
  | (name, value) :: rest =>
      let (g, events, error) := g.setOrSkip name value.toText
      let (g, more, later) := g.setEach rest
      (g, events ++ more, error.or later)

def applyConfig (g : Game) (config : Config) : Game × List Event × Option ConfigError :=
  let (g, events, error) := g.setEach config.entries
  (g, events, error.map .rejected)

def configure (g : Game) (text : String) : Game × List Event × Option ConfigError :=
  match Config.parse? text with
  | none => (g, [], some .malformed)
  | some config => g.applyConfig config

def loadConfig (g : Game) (path : String) (file : Option ByteArray) :
    Game × List Event × Option ConfigError :=
  match file.bind String.fromUTF8? with
  | none => (g, [.loading path], some .unreadable)
  | some text =>
      let (g, events, error) := g.configure text
      (g, .loading path :: events, error)

def tuning (g : Game) : Except Fault (Tuning Float32) := do
  let neutral ← g.console.isSet .offsetNeutral
  if ← g.console.isSet .offsetEnable then
    let backLow ← g.console.vec3 (.offset .backLow)
    let backMid ← g.console.vec3 (.offset .backMid)
    let backUp ← g.console.vec3 (.offset .backUp)
    let neck ← g.console.vec3 (.offset .neck)
    let head ← g.console.vec3 (.offset .head)
    let pelvis ← g.console.vec3 (.offset .pelvis)
    let originAngles ← g.console.vec3 (.offset .originAngles)
    let originOffset ← g.console.vec3 (.offset .originOffset)
    pure ⟨neutral,
      some { backLow, backMid, backUp, neck, head, pelvis, originAngles, originOffset }⟩
  else pure ⟨neutral, none⟩

end Console

def version (g : Game) : Int :=
  match g.console.int .version with
  | .ok version => version
  | .error _ => 0

/-- Looks at how players are animated. When this has changed, the data of all players is dropped. -/
def observe (g : Game) : Game × Compat × List Event :=
  let compat := Compat.ofVersion g.version
  if compat = g.compat then (g, compat, [])
  else ({ g with compat, store := .fresh }, compat, [.compatChanged g.version compat])

def resetStore (g : Game) : Game := { g with store := .fresh }

def playerData (g : Game) (clientNum : Nat) (role : Role) : Except Fault (PlayerData Float32) := do
  pure (g.store.entry (← PlayerKey.of clientNum role))

section Hooks

def face (g : Game) (v : Visit) : Except Fault (ClientInfo Float32 × Game × List Event) := do
  let (g, compat, switched) := g.observe
  let speed ← g.console.single .swingSpeed
  pure (facePlayer ⟨v.role, compat, v.time, v.frameTime⟩ v.host v.es v.ci speed, g, switched)

def report (v : Visit) (debug : Int) (before after : PlayerData Float32) : List Event :=
  (if 1 ≤ debug && after.movementLast ≠ before.movementLast then
    [.playerMoved v.role v.ci.clientNum v.time after.movementLast after.movementTime]
  else []) ++
    (if 2 ≤ debug then [.playerPosed v.role v.ci.clientNum] else [])

def pose (g : Game) (v : Visit) : Except Fault (Posed Float32 × Game × List Event) := do
  let (g, compat, switched) := g.observe
  let tuning ← g.tuning
  let debug ← g.console.int .debug
  let key ← PlayerKey.of v.ci.clientNum v.role
  let posed ← poseController ⟨v.role, compat, v.time, v.frameTime⟩ v.host g.store v.es v.ci tuning
  let reported := report v debug (g.store.entry key) (posed.store.entry key)
  pure (posed, { g with store := posed.store }, switched ++ posed.events.map .pose ++ reported)

def start (g : Game) (v : Visit) (body : Body) (number : AnimNum) :
    Except Fault (Started Float32 × Game × List Event) := do
  let (g, compat, switched) := g.observe
  let started ← startAnimation ⟨v.role, compat, v.time, 0⟩ v.host g.store v.ci body number
  pure (started, { g with store := started.store }, switched ++ started.events.map .pose)

def direction (g : Game) (step : MoveStep Float32) : Int × Game × List Event :=
  let (g, compat, switched) := g.observe
  (step.yaw compat, g, switched)

end Hooks

end Game

end PlayerAnimation
