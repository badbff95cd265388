import PlayerAnimation.Game.Operation
import PlayerAnimation.Proofs.Console
import PlayerAnimation.Proofs.Store.Edit

namespace PlayerAnimation

open Relation (ReflTransGen)

namespace Operation

def looks : Operation → Bool
  | observe | face _ | pose _ | start .. | direction _ => true
  | _ => false

def configures : Operation → Bool
  | setVariable .. | applyConfig _ | configure _ | loadConfig .. | readVariable _ | readTuning
  | playerData .. => true
  | _ => false

def reads : Operation → Bool
  | readVariable _ | readTuning | playerData .. => true
  | _ => false

/-- Whether the variables are registered after an operation, if they all are or are not before it. -/
def registers (registered : Bool) : Operation → Bool
  | registerAll => true
  | deregisterAll => false
  | _ => registered

variable {op : Operation}

theorem not_looks_of_configures (h : op.configures) : ¬ op.looks := by
  cases op with
  | observe | face | pose | start | direction => cases h
  | _ => exact Bool.false_ne_true

theorem registers_of_configures (h : op.configures) (registered : Bool) :
    op.registers registered = registered := by
  cases op with
  | registerAll | deregisterAll => cases h
  | _ => rfl

theorem registers_of_looks (h : op.looks) (registered : Bool) : op.registers registered = registered := by
  cases op with
  | registerAll | deregisterAll => cases h
  | _ => rfl

end Operation

namespace Game

/-- A game at its start, with any console; `initial` is one of them. -/
def opening (console : Console) : Game := ⟨console, .legacy, .fresh⟩

theorem run_cons {g g' : Game} {op : Operation} {ops : List Operation} {answers : List (Answer × List Event)} :
    g.run (op :: ops) = .ok (answers, g') ↔
      ∃ answer events h rest, g.step op = .ok (answer, h, events) ∧ h.run ops = .ok (rest, g') ∧
        answers = (answer, events) :: rest := by
  simp only [run, bind_eq_ok, pure_eq_ok, Prod.exists, Prod.mk.injEq]
  constructor
  · rintro ⟨answer, h, events, hh, rest, k, hk, rfl, rfl⟩
    exact ⟨answer, events, h, rest, hh, hk, rfl⟩
  · rintro ⟨answer, events, h, rest, hh, hk, rfl⟩
    exact ⟨answer, h, events, hh, rest, g', hk, rfl, rfl⟩

theorem run_concat {g g' : Game} {ops : List Operation} {op : Operation} {answers : List (Answer × List Event)}
    (h : g.run (ops ++ [op]) = .ok (answers, g')) :
    ∃ first k answer events, g.run ops = .ok (first, k) ∧ k.step op = .ok (answer, g', events) := by
  rw [run_append] at h
  obtain ⟨⟨first, k⟩, hfirst, h⟩ := bind_eq_ok.mp h
  obtain ⟨⟨_, _⟩, hlast, h⟩ := bind_eq_ok.mp h
  obtain ⟨-, rfl⟩ := Prod.mk.inj (pure_eq_ok.mp h)
  obtain ⟨answer, events, _, _, hstep, hnil, -⟩ := run_cons.mp hlast
  obtain ⟨-, rfl⟩ := Prod.mk.inj (pure_eq_ok.mp hnil)
  exact ⟨first, k, answer, events, hfirst, hstep⟩

structure Configured (g g' : Game) : Prop where
  compat : g'.compat = g.compat
  store : g'.store = g.store
  sets : ReflTransGen Console.Sets g.console g'.console

namespace Configured

theorem refl (g : Game) : Configured g g := ⟨rfl, rfl, .refl⟩

theorem trans {f g h : Game} (hfg : Configured f g) (hgh : Configured g h) : Configured f h where
  compat := hgh.compat.trans hfg.compat
  store := hgh.store.trans hfg.store
  sets := hfg.sets.trans hgh.sets

theorem registered {g g' : Game} (h : Configured g g') (v : Variable) :
    g'.console.isRegistered v = g.console.isRegistered v :=
  Console.sets_registered h.sets v

end Configured

section Configure

variable (g : Game)

theorem setVariable_ok {g g' : Game} {name value : String} {events : List Event}
    (h : g.setVariable name value = .ok (g', events)) :
    ∃ v console changed, g.console.setVariable v (Text.trimmed value) = .ok (console, changed) ∧
      g' = { g with console } ∧ events = if changed then [.variableSet v (Text.trimmed value)] else [] := by
  rw [setVariable] at h
  split at h
  · cases h
  · next v _ =>
      dsimp only at h
      cases hset : g.console.setVariable v (Text.trimmed value) with
      | error e =>
          rw [hset] at h
          cases h
      | ok result =>
          rw [hset] at h
          cases h
          exact ⟨v, _, _, hset, rfl, rfl⟩

theorem setVariable_configured {g g' : Game} {name value : String} {events : List Event}
    (h : g.setVariable name value = .ok (g', events)) : Configured g g' := by
  obtain ⟨v, console, changed, hset, rfl, -⟩ := setVariable_ok h
  exact ⟨rfl, rfl, .single ⟨v, _, _, hset⟩⟩

theorem setOrSkip_configured (name value : String) : Configured g (g.setOrSkip name value).1 := by
  rw [setOrSkip]
  split
  · next h => exact setVariable_configured h
  · exact .refl g

theorem setEach_configured (entries : List (String × ConfigValue)) :
    Configured g (g.setEach entries).1 := by
  induction entries generalizing g with
  | nil => exact .refl g
  | cons entry entries ih => exact (g.setOrSkip_configured entry.1 entry.2.toText).trans (ih _)

theorem configure_configured (text : String) : Configured g (g.configure text).1 := by
  rw [configure]
  split
  · exact .refl g
  · exact g.setEach_configured _

theorem loadConfig_configured (path : String) (file : Option ByteArray) :
    Configured g (g.loadConfig path file).1 := by
  rw [loadConfig]
  split
  · exact .refl g
  · exact g.configure_configured _

end Configure

variable (g : Game)

/-- The data of the players as of a look at how they are animated. -/
def current : Store Float32 := if Compat.ofVersion g.version = g.compat then g.store else .fresh

theorem observe_eq :
    g.observe = (⟨g.console, .ofVersion g.version, g.current⟩, .ofVersion g.version, g.observe.2.2) := by
  rw [observe, current]
  split
  · next h =>
      rw [h]
  · rfl

theorem pose_eq (v : Visit) :
    g.pose v = (do
      let tuning ← g.tuning
      let debug ← g.console.int .debug
      let key ← PlayerKey.of v.ci.clientNum v.role
      let posed ←
        poseController ⟨v.role, .ofVersion g.version, v.time, v.frameTime⟩ v.host g.current v.es v.ci tuning
      let reported := report v debug (g.current.entry key) (posed.store.entry key)
      pure (posed, ⟨g.console, .ofVersion g.version, posed.store⟩,
        g.observe.2.2 ++ posed.events.map .pose ++ reported)) := by
  rw [pose, observe_eq]
  rfl

theorem start_eq (v : Visit) (body : Body) (number : AnimNum) :
    g.start v body number = (do
      let started ←
        startAnimation ⟨v.role, .ofVersion g.version, v.time, 0⟩ v.host g.current v.ci body number
      pure (started, ⟨g.console, .ofVersion g.version, started.store⟩,
        g.observe.2.2 ++ started.events.map .pose)) := by
  rw [start, observe_eq]

theorem face_eq (v : Visit) :
    g.face v = (do
      let speed ← g.console.single .swingSpeed
      pure (facePlayer ⟨v.role, .ofVersion g.version, v.time, v.frameTime⟩ v.host v.es v.ci speed,
        ⟨g.console, .ofVersion g.version, g.current⟩, g.observe.2.2)) := by
  rw [face, observe_eq]

section Hooks

variable {g' : Game} {v : Visit} {answer : Answer} {events : List Event}

theorem step_pose (h : g.step (.pose v) = .ok (answer, g', events)) :
    ∃ tuning debug key posed, g.tuning = .ok tuning ∧ g.console.int .debug = .ok debug ∧
      PlayerKey.of v.ci.clientNum v.role = .ok key ∧
      poseController ⟨v.role, .ofVersion g.version, v.time, v.frameTime⟩ v.host g.current v.es v.ci tuning =
        .ok posed ∧
      answer = .posed posed ∧ g' = ⟨g.console, .ofVersion g.version, posed.store⟩ ∧
      events = g.observe.2.2 ++ posed.events.map .pose ++
        report v debug (g.current.entry key) (posed.store.entry key) := by
  obtain ⟨_, hpose, h⟩ := bind_eq_ok.mp h
  cases h
  rw [pose_eq] at hpose
  obtain ⟨tuning, htuning, hpose⟩ := bind_eq_ok.mp hpose
  obtain ⟨debug, hdebug, hpose⟩ := bind_eq_ok.mp hpose
  obtain ⟨key, hkey, hpose⟩ := bind_eq_ok.mp hpose
  obtain ⟨posed, hposed, hpose⟩ := bind_eq_ok.mp hpose
  cases hpose
  exact ⟨tuning, debug, key, posed, htuning, hdebug, hkey, hposed, rfl, rfl, rfl⟩

theorem step_start {body : Body} {number : AnimNum}
    (h : g.step (.start v body number) = .ok (answer, g', events)) :
    ∃ started, startAnimation ⟨v.role, .ofVersion g.version, v.time, 0⟩ v.host g.current v.ci body number =
        .ok started ∧
      g' = ⟨g.console, .ofVersion g.version, started.store⟩ ∧
      events = g.observe.2.2 ++ started.events.map .pose := by
  obtain ⟨_, hstart, h⟩ := bind_eq_ok.mp h
  cases h
  rw [start_eq] at hstart
  obtain ⟨started, hstarted, hstart⟩ := bind_eq_ok.mp hstart
  cases hstart
  exact ⟨started, hstarted, rfl, rfl⟩

theorem step_face (h : g.step (.face v) = .ok (answer, g', events)) :
    g' = ⟨g.console, .ofVersion g.version, g.current⟩ ∧ events = g.observe.2.2 := by
  obtain ⟨_, hface, h⟩ := bind_eq_ok.mp h
  cases h
  rw [face_eq] at hface
  obtain ⟨_, -, hface⟩ := bind_eq_ok.mp hface
  cases hface
  exact ⟨rfl, rfl⟩

end Hooks

theorem step_reads {g g' : Game} {op : Operation} {answer : Answer} {events : List Event} (hop : op.reads)
    (h : g.step op = .ok (answer, g', events)) : g' = g ∧ events = [] := by
  cases op with
  | readVariable v =>
      obtain ⟨_, -, h⟩ := bind_eq_ok.mp h
      obtain ⟨_, -, h⟩ := bind_eq_ok.mp h
      obtain ⟨_, -, h⟩ := bind_eq_ok.mp h
      obtain ⟨_, -, h⟩ := bind_eq_ok.mp h
      cases h
      exact ⟨rfl, rfl⟩
  | readTuning | playerData =>
      obtain ⟨_, -, h⟩ := bind_eq_ok.mp h
      cases h
      exact ⟨rfl, rfl⟩
  | _ => cases hop

def call? : Operation → Option (Call Float32)
  | .pose v => g.tuning.toOption.map fun tuning =>
      .pose ⟨v.role, .ofVersion g.version, v.time, v.frameTime⟩ v.host v.es v.ci tuning
  | .start v body number => some (.start ⟨v.role, .ofVersion g.version, v.time, 0⟩ v.host v.ci body number)
  | _ => none

theorem call?_of_configures {g : Game} {op : Operation} (h : op.configures) : g.call? op = none := by
  cases op with
  | pose | start => cases h
  | _ => rfl

theorem call?_frame {g : Game} {op : Operation} {call : Call Float32} (h : g.call? op = some call) :
    (∃ v, op = .pose v ∧ call.frame? = some ⟨v.role, .ofVersion g.version, v.time, v.frameTime⟩) ∨
      ∃ v body number, op = .start v body number ∧
        call.frame? = some ⟨v.role, .ofVersion g.version, v.time, 0⟩ := by
  cases op with
  | pose v =>
      obtain ⟨tuning, -, rfl⟩ := Option.map_eq_some_iff.mp h
      exact Or.inl ⟨v, rfl, rfl⟩
  | start v body number =>
      obtain rfl := Option.some.inj h
      exact Or.inr ⟨v, body, number, rfl, rfl⟩
  | _ => cases h

/-- What an operation can do to a game. -/
inductive Change : Operation → Game → Prop
  | register {console} (h : g.console.registerAll = (console, none)) : Change .registerAll { g with console }
  | deregister : Change .deregisterAll { g with console := g.console.deregisterAll }
  | configure {op g'} (hop : op.configures) (h : Configured g g') : Change op g'
  | drop : Change .resetStore g.resetStore
  | look {op outcomes store} (hlooks : op.looks)
      (hrun : g.current.run (g.call? op).toList = .ok (outcomes, store)) :
      Change op ⟨g.console, .ofVersion g.version, store⟩

theorem change_look {op : Operation} (hlooks : op.looks) (hcall : g.call? op = none) :
    Change g op ⟨g.console, .ofVersion g.version, g.current⟩ := by
  have hrun : g.current.run (g.call? op).toList = .ok ([], g.current) := by
    rw [hcall]
    rfl
  exact .look hlooks hrun

theorem change_call {op : Operation} {call : Call Float32} {store : Store Float32} (hlooks : op.looks)
    (hcall : g.call? op = some call) (h : ∃ outcome, g.current.call call = .ok (outcome, store)) :
    Change g op ⟨g.console, .ofVersion g.version, store⟩ := by
  obtain ⟨outcome, h⟩ := h
  have hrun : g.current.run (g.call? op).toList = .ok ([outcome], store) := by
    rw [hcall]
    exact Store.run_cons.mpr ⟨outcome, store, [], h, rfl, rfl⟩
  exact .look hlooks hrun

theorem step_change {g g' : Game} {op : Operation} {answer : Answer} {events : List Event}
    (h : g.step op = .ok (answer, g', events)) : Change g op g' := by
  cases op with
  | registerAll =>
      rw [step] at h
      split at h
      · next console hconsole =>
          cases h
          exact .register hconsole
      · cases h
  | deregisterAll =>
      cases h
      exact .deregister
  | setVariable name value =>
      rw [step] at h
      split at h
      · next hset =>
          cases h
          exact .configure rfl (setVariable_configured hset)
      · cases h
        exact .configure rfl (.refl g)
  | applyConfig config =>
      cases h
      exact .configure rfl (g.setEach_configured config.entries)
  | configure text =>
      cases h
      exact .configure rfl (g.configure_configured text)
  | loadConfig path file =>
      cases h
      exact .configure rfl (g.loadConfig_configured path file)
  | readVariable | readTuning | playerData =>
      obtain ⟨rfl, -⟩ := step_reads rfl h
      exact .configure rfl (.refl _)
  | observe =>
      rw [step, observe_eq] at h
      cases h
      exact g.change_look rfl rfl
  | resetStore =>
      cases h
      exact .drop
  | face v =>
      obtain ⟨rfl, -⟩ := g.step_face h
      exact g.change_look rfl rfl
  | pose v =>
      obtain ⟨tuning, debug, key, posed, htuning, -, -, hposed, -, rfl, -⟩ := g.step_pose h
      have hcall : g.call? (.pose v) = some
          (.pose ⟨v.role, .ofVersion g.version, v.time, v.frameTime⟩ v.host v.es v.ci tuning) := by
        rw [call?, htuning]
        rfl
      exact g.change_call rfl hcall ⟨_, Store.call_pose.mpr ⟨posed, hposed, rfl, rfl⟩⟩
  | start v body number =>
      obtain ⟨started, hstarted, rfl, -⟩ := g.step_start h
      exact g.change_call rfl rfl ⟨_, Store.call_start.mpr ⟨started, hstarted, rfl, rfl⟩⟩
  | direction move =>
      rw [step, direction, observe_eq] at h
      cases h
      exact g.change_look rfl rfl

end Game

end PlayerAnimation
