import PlayerAnimation.Game

namespace PlayerAnimation

inductive Operation
  | registerAll
  | deregisterAll
  | setVariable (name value : String)
  | applyConfig (config : Config)
  | configure (text : String)
  | loadConfig (path : String) (file : Option ByteArray)
  | readVariable (var : Variable)
  | readTuning
  | observe
  | resetStore
  | playerData (clientNum : Nat) (role : Role)
  | face (visit : Visit)
  | pose (visit : Visit)
  | start (visit : Visit) (body : Body) (number : AnimNum)
  | direction (step : MoveStep Float32)

inductive Answer
  | done
  | setFailed (error : SetError)
  | configFailed (error : ConfigError)
  | value (single : Float32) (switch : Bool) (int : Int) (vec3 : Vec3 Float32)
  | tuning (tuning : Tuning Float32)
  | compat (compat : Compat)
  | playerData (data : PlayerData Float32)
  | faced (client : ClientInfo Float32)
  | posed (posed : Posed Float32)
  | started (started : Started Float32)
  | direction (yaw : Int)

def Answer.ofConfig : Option ConfigError → Answer
  | none => done
  | some error => configFailed error

namespace Game

def step (g : Game) : Operation → Except Fault (Answer × Game × List Event)
  | .registerAll =>
      match g.console.registerAll with
      | (console, none) => pure (.done, { g with console }, [])
      | (_, some fault) => throw fault
  | .deregisterAll => pure (.done, { g with console := g.console.deregisterAll }, [])
  | .setVariable name value =>
      match g.setVariable name value with
      | .ok (g, events) => pure (.done, g, events)
      | .error e => pure (.setFailed e, g, [])
  | .applyConfig config =>
      let (g, events, error) := g.applyConfig config
      pure (.ofConfig error, g, events)
  | .configure text =>
      let (g, events, error) := g.configure text
      pure (.ofConfig error, g, events)
  | .loadConfig path file =>
      let (g, events, error) := g.loadConfig path file
      pure (.ofConfig error, g, events)
  | .readVariable v => do
      pure (.value (← g.console.single v) (← g.console.isSet v) (← g.console.int v)
        (← g.console.vec3 v), g, [])
  | .readTuning => do pure (.tuning (← g.tuning), g, [])
  | .observe =>
      let (g, compat, events) := g.observe
      pure (.compat compat, g, events)
  | .resetStore => pure (.done, g.resetStore, [])
  | .playerData clientNum role => do pure (.playerData (← g.playerData clientNum role), g, [])
  | .face visit => do
      let (client, g, events) ← g.face visit
      pure (.faced client, g, events)
  | .pose visit => do
      let (posed, g, events) ← g.pose visit
      pure (.posed posed, g, events)
  | .start visit body number => do
      let (started, g, events) ← g.start visit body number
      pure (.started started, g, events)
  | .direction step =>
      let (yaw, g, events) := g.direction step
      pure (.direction yaw, g, events)

def run (g : Game) : List Operation → Except Fault (List (Answer × List Event) × Game)
  | [] => pure ([], g)
  | op :: ops => do
      let (answer, g, events) ← g.step op
      let (answers, g) ← g.run ops
      pure ((answer, events) :: answers, g)

theorem run_append (g : Game) (ops ops' : List Operation) :
    g.run (ops ++ ops') = (do
      let (answers, g) ← g.run ops
      let (answers', g) ← g.run ops'
      pure (answers ++ answers', g)) := by
  induction ops generalizing g with
  | nil => simp [run]
  | cons op ops ih => simp [run, ih]

end Game

end PlayerAnimation
