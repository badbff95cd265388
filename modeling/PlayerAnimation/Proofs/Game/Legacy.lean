import PlayerAnimation.Proofs.Game.Safety
import PlayerAnimation.Proofs.Game.Switch
import PlayerAnimation.Proofs.Legacy

namespace PlayerAnimation

namespace Game

open Operation

/-- Two games that differ in the values of tuning variables alone. -/
structure Alike (g g' : Game) : Prop where
  console : g.console.Alike g'.console
  compat : g.compat = g'.compat
  store : g.store = g'.store

def Uniform (g : Game) : Prop := ∃ registered, ∀ v, g.console.isRegistered v = registered

/-- The same answers and events, in games that differ in the values of tuning variables alone. -/
def Echoes {β : Type} (r r' : β × Game × List Event) : Prop :=
  r.1 = r'.1 ∧ r.2.2 = r'.2.2 ∧ Alike r.2.1 r'.2.1

variable {g g' : Game} {op : Operation}

theorem Echoes.answer {β : Type} {r r' : β × Game × List Event} (h : Echoes r r') (f : β → Answer) :
    Echoes (f r.1, r.2) (f r'.1, r'.2) :=
  ⟨congrArg f h.1, h.2⟩

def Follows (op : Operation) (r r' : Answer × Game × List Event) : Prop :=
  Alike r.2.1 r'.2.1 ∧ (op.looks → Echoes r r')

theorem Echoes.follows {r r' : Answer × Game × List Event} (h : Echoes r r') : Follows op r r' :=
  ⟨h.2.2, fun _ => h⟩

theorem follows_of_quiet {r r' : Answer × Game × List Event} (hop : op.looks = false)
    (h : Alike r.2.1 r'.2.1) : Follows op r r' := by
  refine ⟨h, fun hlooks => ?_⟩
  rw [hop] at hlooks
  cases hlooks

theorem tuning_neutral {tuning : Tuning Float32} (h : g.tuning = .ok tuning) :
    g.console.isSet .offsetNeutral = .ok tuning.neutral := by
  obtain ⟨neutral, hneutral, h⟩ := bind_eq_ok.mp h
  obtain ⟨enable, -, h⟩ := bind_eq_ok.mp h
  rw [hneutral]
  split at h
  · simp only [bind_eq_ok, pure_eq_ok] at h
    obtain ⟨_, -, _, -, _, -, _, -, _, -, _, -, _, -, _, -, rfl⟩ := h
    rfl
  · obtain rfl := pure_eq_ok.mp h
    rfl

theorem Change.uniform (h : Change g op g') (hg : Uniform g) : Uniform g' := by
  obtain ⟨registered, hg⟩ := hg
  cases h with
  | register hregister =>
      cases registered with
      | true =>
          have hall : Variable.all ≠ [] := by decide
          obtain ⟨fault, hfault⟩ := Console.register_registered hall hg
          rw [Console.registerAll, hfault] at hregister
          cases hregister
      | false =>
          obtain ⟨console, hconsole, hall⟩ := Console.registerAll_ok hg
          rw [hconsole] at hregister
          obtain rfl := (Prod.mk.inj hregister).1
          exact ⟨true, hall⟩
  | deregister => exact ⟨false, g.console.isRegistered_deregisterAll⟩
  | configure _ hset => exact ⟨registered, fun v => (hset.registered v).trans (hg v)⟩
  | drop | look => exact ⟨registered, hg⟩

theorem run_uniform {ops : List Operation} {answers : List (Answer × List Event)}
    (h : g.run ops = .ok (answers, g')) (hg : Uniform g) : Uniform g' := by
  induction ops generalizing g answers with
  | nil =>
      obtain ⟨-, rfl⟩ := Prod.mk.inj (pure_eq_ok.mp h)
      exact hg
  | cons op ops ih =>
      obtain ⟨answer, events, k, rest, hk, hrest, -⟩ := run_cons.mp h
      exact ih hrest ((step_change hk).uniform hg)

namespace Alike

theorem version (h : Alike g g') : g.version = g'.version := by
  rw [Game.version, Game.version, h.console.int rfl]

theorem current (h : Alike g g') : g.current = g'.current := by
  rw [Game.current, Game.current, h.version, h.compat, h.store]

theorem observe (h : Alike g g') : g.observe.2 = g'.observe.2 := by
  rw [Game.observe, Game.observe, h.version, h.compat]
  split
  · rfl
  · rfl

theorem setVariable (h : Alike g g') (name value : String) :
    Corresponds (fun r r' => Alike r.1 r'.1) (g.setVariable name value) (g'.setVariable name value) := by
  rw [Game.setVariable, Game.setVariable]
  split
  · exact .error _
  · exact (h.console.setVariable _ _).bind fun r r' hr => .ok ⟨hr, h.compat, h.store⟩

theorem setOrSkip (h : Alike g g') (name value : String) :
    Alike (g.setOrSkip name value).1 (g'.setOrSkip name value).1 := by
  have hset := h.setVariable name value
  rw [Game.setOrSkip, Game.setOrSkip]
  generalize g.setVariable name value = result, g'.setVariable name value = result' at hset ⊢
  cases hset with
  | error e => exact h
  | ok hr => exact hr

theorem setEach (h : Alike g g') (entries : List (String × ConfigValue)) :
    Alike (g.setEach entries).1 (g'.setEach entries).1 := by
  induction entries generalizing g g' with
  | nil => exact h
  | cons entry entries ih => exact ih (h.setOrSkip entry.1 entry.2.toText)

theorem configure (h : Alike g g') (text : String) : Alike (g.configure text).1 (g'.configure text).1 := by
  rw [Game.configure, Game.configure]
  split
  · exact h
  · exact h.setEach _

theorem loadConfig (h : Alike g g') (path : String) (file : Option ByteArray) :
    Alike (g.loadConfig path file).1 (g'.loadConfig path file).1 := by
  rw [Game.loadConfig, Game.loadConfig]
  split
  · exact h
  · exact h.configure _

theorem tuning (h : Alike g g') (hg : Uniform g) :
    Corresponds (fun tuning tuning' => tuning.neutral = tuning'.neutral) g.tuning g'.tuning := by
  obtain ⟨registered, hg⟩ := hg
  have hg' : ∀ v, g'.console.isRegistered v = registered := by
    intro v
    rw [← h.console.registered v, hg v]
  cases registered with
  | false =>
      rw [Game.tuning, Game.tuning, Console.isSet_error (hg _), Console.isSet_error (hg' _)]
      exact .error _
  | true =>
      obtain ⟨tuning, htuning⟩ := tuning_ok hg
      obtain ⟨tuning', htuning'⟩ := tuning_ok hg'
      have hneutral : g.console.isSet .offsetNeutral = g'.console.isSet .offsetNeutral := h.console.isSet rfl
      rw [tuning_neutral htuning, tuning_neutral htuning'] at hneutral
      rw [htuning, htuning']
      exact .ok (Except.ok.inj hneutral)

theorem looked (h : Alike g g') :
    Alike ⟨g.console, .ofVersion g'.version, g'.current⟩ ⟨g'.console, .ofVersion g'.version, g'.current⟩ :=
  ⟨h.console, rfl, rfl⟩

theorem face (h : Alike g g') (v : Visit) : Corresponds Echoes (g.face v) (g'.face v) := by
  rw [face_eq, face_eq, h.console.single rfl, h.observe, h.version, h.current]
  exact .bind_same _ fun speed => .ok ⟨rfl, rfl, h.looked⟩

theorem start (h : Alike g g') (v : Visit) (body : Body) (number : AnimNum) :
    Corresponds Echoes (g.start v body number) (g'.start v body number) := by
  rw [start_eq, start_eq, h.observe, h.version, h.current]
  exact .bind_same _ fun started => .ok ⟨rfl, rfl, h.console, rfl, rfl⟩

theorem pose (h : Alike g g') (hg : Uniform g) (hlegacy : Compat.ofVersion g.version = .legacy) (v : Visit) :
    Corresponds Echoes (g.pose v) (g'.pose v) := by
  rw [h.version] at hlegacy
  rw [pose_eq, pose_eq, h.observe, h.version, h.current, h.console.int rfl]
  refine (h.tuning hg).bind fun tuning tuning' hneutral => ?_
  refine .bind_same _ fun debug => .bind_same _ fun key => ?_
  rw [poseController_plain hlegacy, poseController_plain hlegacy, hneutral]
  exact .ok ⟨rfl, rfl, h.console, rfl, rfl⟩

theorem step (h : Alike g g') (hg : Uniform g)
    (hlegacy : op.looks → Compat.ofVersion g.version = .legacy) :
    Corresponds (Follows op) (g.step op) (g'.step op) := by
  cases op with
  | registerAll =>
      obtain ⟨hfault, hconsole⟩ := h.console.register Variable.all
      rw [Game.step, Game.step, Console.registerAll, Console.registerAll]
      generalize Console.register Variable.all g.console = r, Console.register Variable.all g'.console = r'
        at hfault hconsole ⊢
      obtain ⟨console, fault⟩ := r
      obtain ⟨console', fault'⟩ := r'
      obtain rfl : fault = fault' := hfault
      cases fault with
      | none => exact .ok (follows_of_quiet rfl ⟨hconsole, h.compat, h.store⟩)
      | some fault => exact .error fault
  | deregisterAll => exact .ok (follows_of_quiet rfl ⟨h.console.deregister _, h.compat, h.store⟩)
  | setVariable name value =>
      have hset := h.setVariable name value
      rw [Game.step, Game.step]
      generalize g.setVariable name value = result, g'.setVariable name value = result' at hset ⊢
      cases hset with
      | error e => exact .ok (follows_of_quiet rfl h)
      | ok hr => exact .ok (follows_of_quiet rfl hr)
  | applyConfig config => exact .ok (follows_of_quiet rfl (h.setEach config.entries))
  | configure text => exact .ok (follows_of_quiet rfl (h.configure text))
  | loadConfig path file => exact .ok (follows_of_quiet rfl (h.loadConfig path file))
  | readVariable v =>
      have hsingle : Corresponds (fun _ _ => True) (g.console.single v) (g'.console.single v) :=
        (h.console.reads v).bind fun _ _ _ => .ok trivial
      have hswitch : Corresponds (fun _ _ => True) (g.console.isSet v) (g'.console.isSet v) :=
        hsingle.bind fun _ _ _ => .ok trivial
      have hint : Corresponds (fun _ _ => True) (g.console.int v) (g'.console.int v) :=
        hsingle.bind fun _ _ _ => .ok trivial
      have hvec3 : Corresponds (fun _ _ => True) (g.console.vec3 v) (g'.console.vec3 v) :=
        (h.console.reads v).bind fun _ _ _ => .ok trivial
      exact hsingle.bind fun _ _ _ => hswitch.bind fun _ _ _ => hint.bind fun _ _ _ => hvec3.bind fun _ _ _ =>
        .ok (follows_of_quiet rfl h)
  | readTuning => exact (h.tuning hg).bind fun _ _ _ => .ok (follows_of_quiet rfl h)
  | observe =>
      rw [Game.step, Game.step, g.observe_eq, g'.observe_eq, h.observe, h.version, h.current]
      exact .ok (Echoes.follows ⟨rfl, rfl, h.looked⟩)
  | resetStore => exact .ok (follows_of_quiet rfl ⟨h.console, h.compat, rfl⟩)
  | playerData clientNum role =>
      rw [Game.step, Game.step, Game.playerData, Game.playerData, h.store]
      cases PlayerKey.of clientNum role with
      | error e => exact .error e
      | ok key => exact .ok (follows_of_quiet rfl h)
  | face v => exact (h.face v).bind fun _ _ hr => .ok (hr.answer _).follows
  | pose v => exact (h.pose hg (hlegacy rfl) v).bind fun _ _ hr => .ok (hr.answer _).follows
  | start v body number => exact (h.start v body number).bind fun _ _ hr => .ok (hr.answer _).follows
  | direction move =>
      rw [Game.step, Game.step, Game.direction, Game.direction, g.observe_eq, g'.observe_eq, h.observe,
        h.version, h.current]
      exact .ok (Echoes.follows ⟨rfl, rfl, h.looked⟩)

end Alike

/-- The answers and events of the operations that look at how players are animated. -/
def observed (ops : List Operation) (answers : List (Answer × List Event)) : List (Answer × List Event) :=
  ((ops.zip answers).filter fun p => p.1.looks).map Prod.snd

theorem observed_cons {ops : List Operation} {answers : List (Answer × List Event)}
    (answer : Answer × List Event) :
    observed (op :: ops) (answer :: answers) =
      if op.looks then answer :: observed ops answers else observed ops answers := by
  rw [observed, List.zip_cons_cons, List.filter_cons]
  split
  · rfl
  · rfl

theorem Alike.run (h : Alike g g') (hg : Uniform g) {ops : List Operation}
    (hlegacy : ∀ turn ∈ g.history ops, turn.2.looks → Compat.ofVersion turn.1.version = .legacy) :
    Corresponds (fun r r' => observed ops r.1 = observed ops r'.1 ∧ Alike r.2 r'.2) (g.run ops)
      (g'.run ops) := by
  induction ops generalizing g g' with
  | nil => exact .ok ⟨rfl, h⟩
  | cons op ops ih =>
      have hstep := h.step hg (hlegacy _ List.mem_cons_self)
      rw [Game.run, Game.run]
      generalize hr : g.step op = r, g'.step op = r' at hstep ⊢
      cases hstep with
      | error e => exact .error e
      | @ok first first' hfirst =>
          obtain ⟨answer, k, events⟩ := first
          obtain ⟨answer', k', events'⟩ := first'
          obtain ⟨halike, hecho⟩ := hfirst
          rw [history_cons hr] at hlegacy
          have hlater := ih halike ((step_change hr).uniform hg) fun turn hturn =>
            hlegacy turn (List.mem_cons_of_mem _ hturn)
          refine hlater.bind fun rest rest' hrest => .ok ⟨?_, hrest.2⟩
          rw [observed_cons, observed_cons, hrest.1]
          split
          · next hlooks =>
              obtain ⟨rfl, rfl, -⟩ := hecho hlooks
              rfl
          · rfl

end Game

section Untouched

variable {α : Type} [Scalar α]

/-- With the original animations nothing is recorded, nothing goes by what is recorded, and the tuning of poses
shows nowhere. -/
theorem legacy_untouched :
    (∀ {frame : Frame} (host : Host α) (es : EntityState α) (ci : ClientInfo α) (neutral : Bool),
      frame.compat = .legacy → ∃ target control edits,
        ∀ (host' : Host α) s time legsAnim movementYaw clientNum offsets,
        host'.moveTypes { ci with movementYaw, clientNum } = host.moveTypes ci →
        poseController { frame with time } host' s { es with legsAnim } { ci with movementYaw, clientNum }
            ⟨neutral, offsets⟩ =
          .ok ⟨target, { ci with movementYaw, clientNum, control }, s, control.writes, edits, []⟩) ∧
    (∀ (host : Host α) (ci : ClientInfo α) body number, ∃ client,
      ∀ {frame : Frame} s, frame.compat = .legacy →
      startAnimation frame host s ci body number = .ok ⟨.none, s, client, []⟩) ∧
    (∀ {ops answers g}, Game.initial.run ops = .ok (answers, g) → g.Uniform) ∧
    (∀ {g g' : Game} {ops}, g.Alike g' → g.Uniform →
      (∀ turn ∈ g.history ops, turn.2.looks → Compat.ofVersion turn.1.version = .legacy) →
      Corresponds (fun r r' => Game.observed ops r.1 = Game.observed ops r'.1 ∧ r.2.Alike r'.2) (g.run ops)
        (g'.run ops)) := by
  refine ⟨?_, ?_, ?_, ?_⟩
  · intro frame host es ci neutral hlegacy
    let plain := Target.plain frame.role (host.moveTypes ci) es ci neutral
    refine ⟨plain.1, Blend.step (Scalar.ofInt frame.frameTime) plain.1 ci.control, plain.2, ?_⟩
    intro host' s time legsAnim movementYaw clientNum offsets hmove
    have hlegacy' : { frame with time }.compat = .legacy := hlegacy
    rw [poseController_plain hlegacy', hmove]
    rfl
  · intro host ci body number
    exact ⟨_, fun s hlegacy => startAnimation_plain hlegacy body number⟩
  · intro ops answers g h
    exact Game.run_uniform h ⟨true, Console.isRegistered_registerAll_empty⟩
  · intro g g' ops h hg hlegacy
    exact h.run hg hlegacy

end Untouched

section Example

def nodding : Game :=
  { Game.initial with
    console := (Game.initial.console.put .offsetEnable (some "1")).put (.offset .head) (some "10 20 30") }

def crouchingPlayer : List Operation :=
  let visit : Visit := ⟨.server, 1000, 50, .twoStances, .initial 0, .playing 0 ⟨1⟩⟩
  [.start visit .legs ⟨2⟩, .face visit, .pose visit, .observe]

theorem legacy_untouched_nodding :
    (Game.initial.tuning.map fun tuning => tuning.offsets.isSome) = .ok false ∧
    (nodding.tuning.map fun tuning => tuning.offsets.isSome) = .ok true ∧
    ∃ answers g answers' g', Game.initial.run crouchingPlayer = .ok (answers, g) ∧
      nodding.run crouchingPlayer = .ok (answers', g') ∧
      Game.observed crouchingPlayer answers = Game.observed crouchingPlayer answers' := by
  have halike : Game.initial.Alike nodding := by
    refine ⟨⟨?_, ?_⟩, rfl, rfl⟩
    · intro v hv
      cases v with
      | offsetEnable | offset => cases hv
      | _ => rfl
    · intro v
      cases v with
      | offset slot => cases slot <;> rfl
      | _ => rfl
  have hstart : Game.initial.run [] = .ok ([], Game.initial) := rfl
  have hhistory : (Game.initial.history crouchingPlayer).all
      fun turn => !turn.2.looks || Compat.ofVersion turn.1.version = .legacy := by rfl
  have hlegacy : ∀ turn ∈ Game.initial.history crouchingPlayer,
      turn.2.looks → Compat.ofVersion turn.1.version = .legacy := by
    intro turn hturn hlooks
    simpa [hlooks] using List.all_eq_true.mp hhistory turn hturn
  obtain ⟨-, -, huniform, hruns⟩ := legacy_untouched (α := Float32)
  have hrun := hruns halike (huniform hstart) hlegacy
  obtain ⟨⟨answers, g⟩, h⟩ : ∃ p, Game.initial.run crouchingPlayer = .ok p := exists_eq_ok (by rfl)
  rw [h] at hrun
  obtain ⟨⟨answers', g'⟩, h', hsame, -⟩ := hrun.of_ok
  exact ⟨by rfl, by rfl, answers, g, answers', g', h, h', hsame⟩

end Example

end PlayerAnimation
