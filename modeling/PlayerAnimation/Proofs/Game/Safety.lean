import Mathlib.Tactic.Choose
import PlayerAnimation.Proofs.Game.Step
import PlayerAnimation.Proofs.Store.Safety

namespace PlayerAnimation

def Visit.orderly (v : Visit) : Bool :=
  v.ci.clientNum < maxClients && 0 ≤ v.time && v.time ≤ 0x7fffffff - 400

namespace Operation

/-- Whether an operation keeps to the rules while the variables are all registered, or none is. -/
def allowed (registered : Bool) : Operation → Bool
  | registerAll => !registered
  | readVariable _ | readTuning | face _ => registered
  | playerData clientNum _ => clientNum < maxClients
  | pose v => registered && v.orderly
  | start v _ _ => v.orderly
  | _ => true

def wellBehaved (registered : Bool) : List Operation → Bool
  | [] => true
  | op :: ops => op.allowed registered && wellBehaved (op.registers registered) ops

end Operation

theorem Visit.orderly_iff {v : Visit} : v.orderly ↔
    (∃ key, PlayerKey.of v.ci.clientNum v.role = .ok key) ∧ 0 ≤ v.time ∧ v.time ≤ 0x7fffffff - 400 := by
  rw [orderly, PlayerKey.of]
  by_cases h : v.ci.clientNum < maxClients
  · simp [h]
  · simp [h]

namespace Game

open Operation

/-- What a game that keeps to the rules relies on. -/
structure Ready (registered : Bool) (g : Game) : Prop where
  console : ∀ v, g.console.isRegistered v = registered
  players : ∀ key, InTime (g.store.entry key)

variable {g g' : Game} {registered : Bool} {op : Operation}

theorem ready_opening {console : Console} (h : ∀ v, console.isRegistered v = registered) :
    Ready registered (opening console) where
  console := h
  players := InTime.fresh_entry

theorem Ready.current (hg : Ready registered g) (key : PlayerKey) : InTime (g.current.entry key) := by
  rw [Game.current]
  split
  · exact hg.players key
  · exact InTime.fresh_entry key

theorem keeps_call (hop : op.allowed registered) {call : Call Float32} (hcall : call ∈ (g.call? op).toList)
    {frame : Frame} (hframe : call.frame? = some frame) :
    Keeps (InTime : PlayerData Float32 → Prop) frame.time := by
  obtain ⟨v, rfl, hf⟩ | ⟨v, body, number, rfl, hf⟩ := call?_frame (Option.mem_toList.mp hcall)
  · obtain rfl := Option.some.inj (hframe.symm.trans hf)
    have horderly : v.orderly := (Bool.and_eq_true_iff.mp hop).2
    obtain ⟨-, h0, h1⟩ := Visit.orderly_iff.mp horderly
    exact InTime.keeps h0 h1
  · obtain rfl := Option.some.inj (hframe.symm.trans hf)
    obtain ⟨-, h0, h1⟩ := Visit.orderly_iff.mp hop
    exact InTime.keeps h0 h1

theorem Change.ready (h : Change g op g') (hop : op.allowed registered) (hg : Ready registered g) :
    Ready (op.registers registered) g' := by
  cases h with
  | register hregister =>
      obtain rfl : registered = false := by simpa [allowed] using hop
      obtain ⟨console, hconsole, hall⟩ := Console.registerAll_ok hg.console
      rw [hconsole] at hregister
      obtain rfl := (Prod.mk.inj hregister).1
      exact ⟨hall, hg.players⟩
  | deregister => exact ⟨g.console.isRegistered_deregisterAll, hg.players⟩
  | configure hop' hset =>
      rw [registers_of_configures hop']
      refine ⟨fun v => (hset.registered v).trans (hg.console v), ?_⟩
      rw [hset.store]
      exact hg.players
  | drop => exact ⟨hg.console, InTime.fresh_entry⟩
  | look hlooks hrun =>
      rw [registers_of_looks hlooks]
      refine ⟨hg.console, fun key => ?_⟩
      exact Store.run_keeps (fun _ hcall _ => keeps_call hop hcall) .fresh hrun (hg.current key)

section Answer

theorem tuning_ok (h : ∀ v, g.console.isRegistered v = true) : ∃ tuning, g.tuning = .ok tuning := by
  obtain ⟨neutral, hneutral⟩ := Console.isSet_ok (h .offsetNeutral)
  obtain ⟨enable, henable⟩ := Console.isSet_ok (h .offsetEnable)
  have hvec : ∀ slot, ∃ x, g.console.vec3 (.offset slot) = .ok x := fun slot => Console.vec3_ok (h _)
  choose offset hoffset using hvec
  rw [tuning, hneutral, henable]
  simp only [bind, Except.bind, hoffset]
  cases enable with
  | true => exact ⟨_, rfl⟩
  | false => exact ⟨_, rfl⟩

theorem read_ok {v : Variable} (h : g.console.isRegistered v = true) :
    ∃ result, g.step (.readVariable v) = .ok result := by
  obtain ⟨single, hsingle⟩ := Console.single_ok h
  obtain ⟨switch, hswitch⟩ := Console.isSet_ok h
  obtain ⟨int, hint⟩ := Console.int_ok h
  obtain ⟨vec3, hvec3⟩ := Console.vec3_ok h
  rw [step, hsingle, hswitch, hint, hvec3]
  exact ⟨_, rfl⟩

theorem face_ok (hg : Ready true g) (v : Visit) : ∃ faced, g.face v = .ok faced := by
  obtain ⟨speed, hspeed⟩ := Console.single_ok (hg.console .swingSpeed)
  rw [face_eq, hspeed]
  exact ⟨_, rfl⟩

theorem pose_ok (hg : Ready true g) {v : Visit} (hv : v.orderly) : ∃ posed, g.pose v = .ok posed := by
  obtain ⟨⟨key, hkey⟩, h0, h1⟩ := Visit.orderly_iff.mp hv
  obtain ⟨tuning, htuning⟩ := tuning_ok hg.console
  obtain ⟨debug, hdebug⟩ := Console.int_ok (hg.console .debug)
  obtain ⟨posed, hposed⟩ : ∃ posed, poseController ⟨v.role, .ofVersion g.version, v.time, v.frameTime⟩ v.host
      g.current v.es v.ci tuning = .ok posed :=
    poseController_ok v.host v.es hkey h0 h1 (hg.current key) tuning
  rw [pose_eq, htuning, hdebug, hkey]
  simp only [bind, Except.bind, hposed]
  exact ⟨_, rfl⟩

theorem start_ok {v : Visit} (hv : v.orderly) (body : Body) (number : AnimNum) :
    ∃ started, g.start v body number = .ok started := by
  obtain ⟨⟨key, hkey⟩, h0, h1⟩ := Visit.orderly_iff.mp hv
  obtain ⟨started, hstarted⟩ : ∃ started, startAnimation ⟨v.role, .ofVersion g.version, v.time, 0⟩ v.host
      g.current v.ci body number = .ok started :=
    startAnimation_ok v.host hkey h0 h1 body number
  rw [start_eq, hstarted]
  exact ⟨_, rfl⟩

theorem step_ok (hg : Ready registered g) (hop : op.allowed registered) :
    ∃ result, g.step op = .ok result := by
  cases op with
  | registerAll =>
      obtain rfl : registered = false := by simpa [allowed] using hop
      obtain ⟨console, hconsole, -⟩ := Console.registerAll_ok hg.console
      rw [step, hconsole]
      exact ⟨_, rfl⟩
  | setVariable name value =>
      rw [step]
      split
      · exact ⟨_, rfl⟩
      · exact ⟨_, rfl⟩
  | readVariable v =>
      obtain rfl : registered = true := hop
      exact read_ok (hg.console v)
  | readTuning =>
      obtain rfl : registered = true := hop
      obtain ⟨tuning, htuning⟩ := tuning_ok hg.console
      rw [step, htuning]
      exact ⟨_, rfl⟩
  | playerData clientNum role =>
      have hclient : clientNum < maxClients := of_decide_eq_true hop
      rw [step, playerData, PlayerKey.of, dif_pos hclient]
      exact ⟨_, rfl⟩
  | face v =>
      obtain rfl : registered = true := hop
      obtain ⟨faced, hfaced⟩ := face_ok hg v
      rw [step, hfaced]
      exact ⟨_, rfl⟩
  | pose v =>
      obtain ⟨rfl, hv⟩ := Bool.and_eq_true_iff.mp hop
      obtain ⟨posed, hposed⟩ := pose_ok hg hv
      rw [step, hposed]
      exact ⟨_, rfl⟩
  | start v body number =>
      obtain ⟨started, hstarted⟩ := start_ok (g := g) hop body number
      rw [step, hstarted]
      exact ⟨_, rfl⟩
  | deregisterAll | applyConfig | configure | loadConfig | observe | resetStore | direction => exact ⟨_, rfl⟩

end Answer

theorem run_ok {ops : List Operation} (hg : Ready registered g) (h : wellBehaved registered ops) :
    ∃ result, g.run ops = .ok result := by
  induction ops generalizing g registered with
  | nil => exact ⟨_, rfl⟩
  | cons op ops ih =>
      obtain ⟨hop, hops⟩ := Bool.and_eq_true_iff.mp h
      obtain ⟨⟨answer, k, events⟩, hk⟩ := step_ok hg hop
      obtain ⟨⟨rest, g'⟩, hrest⟩ := ih ((step_change hk).ready hop hg) hops
      exact ⟨_, run_cons.mpr ⟨answer, events, k, rest, hk, hrest, rfl⟩⟩

/-- A game that keeps to the rules never stops, however it starts. -/
theorem well_behaved_runs {console : Console} (hconsole : ∀ v, console.isRegistered v = registered)
    {ops : List Operation} (h : wellBehaved registered ops) :
    ∃ answers g, (opening console).run ops = .ok (answers, g) := by
  obtain ⟨⟨answers, g⟩, hrun⟩ := run_ok (ready_opening hconsole) h
  exact ⟨answers, g, hrun⟩

section Example

def startingOver : List Operation :=
  let visit (time : Int) (number : AnimNum) : Visit :=
    ⟨.server, time, 50, .twoStances, .initial 63, .playing 63 number⟩
  [.setVariable "g_cod2x" "3", .start (visit 2147483247 ⟨1⟩) .legs ⟨2⟩, .pose (visit 2147483247 ⟨2⟩),
    .pose (visit 0 ⟨2⟩), .deregisterAll, .start (visit 0 ⟨2⟩) .legs ⟨1⟩, .registerAll,
    .readVariable .version, .face (visit 50 ⟨1⟩)]

theorem well_behaved_runs_startingOver :
    wellBehaved true startingOver ∧ ∃ answers g, initial.run startingOver = .ok (answers, g) := by
  have hrules : wellBehaved true startingOver := by rfl
  exact ⟨hrules, well_behaved_runs Console.isRegistered_registerAll_empty hrules⟩

end Example

end Game

end PlayerAnimation
