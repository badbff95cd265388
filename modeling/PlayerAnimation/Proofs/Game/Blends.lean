import PlayerAnimation.Proofs.Blend.Signals
import PlayerAnimation.Proofs.Game.Switch

namespace PlayerAnimation

def Event.signal? : Event → Option Signal
  | pose event => event.signal?
  | compatChanged .. => some .dropped
  | _ => none

namespace Operation

def poses (key : PlayerKey) : Operation → Bool
  | pose v => v.role = key.role && v.ci.clientNum = key.client
  | _ => false

/-- What an operation notes about the blends of a player when it has written the given events. Only a pose of
the player starts or ends one; the data of all players is dropped for each of them. -/
def signals (key : PlayerKey) (events : List Event) : Operation → List Signal
  | resetStore => [.dropped]
  | op => (events.filterMap Event.signal?).filter fun signal => signal = .dropped || op.poses key

variable {key : PlayerKey} {op : Operation} {events : List Event}

theorem signals_eq (hop : op ≠ resetStore) : op.signals key events =
    (events.filterMap Event.signal?).filter fun signal => signal = .dropped || op.poses key := by
  cases op with
  | resetStore => exact absurd rfl hop
  | _ => rfl

theorem signals_quiet (hop : op ≠ resetStore) (h : events.filterMap Event.signal? = []) :
    op.signals key events = [] := by
  rw [signals_eq hop, h]
  rfl

theorem poses_iff {v : Visit} : (pose v).poses key ↔ PlayerKey.of v.ci.clientNum v.role = .ok key := by
  rw [poses, Bool.and_eq_true, decide_eq_true_eq, decide_eq_true_eq, PlayerKey.of]
  split
  · next hlt =>
      rw [Except.ok.injEq]
      constructor
      · rintro ⟨hrole, hclient⟩
        exact PlayerKey.ext (Fin.ext hclient) hrole
      · rintro rfl
        exact ⟨rfl, rfl⟩
  · next hlt =>
      constructor
      · rintro ⟨-, hclient⟩
        exact absurd (hclient ▸ key.client.isLt) hlt
      · intro hof
        cases hof

theorem poses_of_ended (h : .ended ∈ op.signals key events) : ∃ v, op = pose v ∧ (pose v).poses key := by
  have hop : op ≠ resetStore := by
    rintro rfl
    simp [signals] at h
  rw [signals_eq hop, List.mem_filter, Bool.or_eq_true] at h
  have hposes : op.poses key := h.2.resolve_left (by decide)
  cases op with
  | pose v => exact ⟨v, rfl, hposes⟩
  | _ => cases hposes

end Operation

namespace Game

variable {g g' : Game} {op : Operation} {answer : Answer} {events : List Event}

section Quiet

theorem setVariable_signals {name value : String} (h : g.setVariable name value = .ok (g', events)) :
    events.filterMap Event.signal? = [] := by
  obtain ⟨v, console, changed, -, -, rfl⟩ := setVariable_ok h
  cases changed with
  | true | false => rfl

theorem setOrSkip_signals (g : Game) (name value : String) :
    (g.setOrSkip name value).2.1.filterMap Event.signal? = [] := by
  rw [setOrSkip]
  split
  · next h => exact setVariable_signals h
  · rfl

theorem setEach_signals (g : Game) (entries : List (String × ConfigValue)) :
    (g.setEach entries).2.1.filterMap Event.signal? = [] := by
  induction entries generalizing g with
  | nil => rfl
  | cons entry entries ih =>
      rw [setEach, List.filterMap_append, setOrSkip_signals, List.nil_append]
      exact ih _

theorem configure_signals (g : Game) (text : String) : (g.configure text).2.1.filterMap Event.signal? = [] := by
  rw [configure]
  split
  · rfl
  · exact g.setEach_signals _

theorem loadConfig_signals (g : Game) (path : String) (file : Option ByteArray) :
    (g.loadConfig path file).2.1.filterMap Event.signal? = [] := by
  rw [loadConfig]
  split
  · rfl
  · exact g.configure_signals _

theorem step_quiet (h : g.step op = .ok (answer, g', events)) (hop : op.looks = false) :
    events.filterMap Event.signal? = [] := by
  cases op with
  | observe | face | pose | start | direction => cases hop
  | registerAll =>
      rw [step] at h
      split at h
      · cases h
        rfl
      · cases h
  | deregisterAll | resetStore =>
      cases h
      rfl
  | setVariable name value =>
      rw [step] at h
      split at h
      · next hset =>
          cases h
          exact setVariable_signals hset
      · cases h
        rfl
  | applyConfig config =>
      cases h
      exact g.setEach_signals config.entries
  | configure text =>
      cases h
      exact g.configure_signals text
  | loadConfig path file =>
      cases h
      exact g.loadConfig_signals path file
  | readVariable | readTuning | playerData =>
      obtain ⟨-, rfl⟩ := step_reads rfl h
      rfl

end Quiet

def seen (g : Game) : List Signal := if Compat.ofVersion g.version = g.compat then [] else [.dropped]

def poseTimes (key : PlayerKey) : Game × Operation → List Int
  | (g, .pose v) =>
      if (Operation.pose v).poses key && Compat.ofVersion g.version = .enhanced then [v.time] else []
  | _ => []

theorem observe_signals (g : Game) : g.observe.2.2.filterMap Event.signal? = g.seen := by
  rw [observe, seen]
  split
  · rfl
  · rfl

theorem report_signals (v : Visit) (debug : Int) (before after : PlayerData Float32) :
    (report v debug before after).filterMap Event.signal? = [] := by
  rw [report]
  split_ifs
  all_goals rfl

section Events

variable {v : Visit} {debug : Int} {before after : PlayerData Float32} {noted : List PoseEvent}

theorem observe_mem {event : Event} (h : event ∈ g.observe.2.2) :
    ∃ version compat, event = .compatChanged version compat := by
  rw [observe] at h
  split at h
  · cases h
  · exact ⟨_, _, List.mem_singleton.mp h⟩

theorem pose_mem {event : PoseEvent} :
    .pose event ∈ g.observe.2.2 ++ noted.map .pose ++ report v debug before after ↔ event ∈ noted := by
  have hobserve : .pose event ∉ g.observe.2.2 := fun h => by
    obtain ⟨_, _, hevent⟩ := observe_mem h
    cases hevent
  have hreport : .pose event ∉ report v debug before after := by
    simp [report]
  simp [hobserve, hreport]

theorem playerMoved_mem {role : Role} {clientNum : Nat} {time : Int} {movement : ControllerMovement}
    {duration : Int} :
    .playerMoved role clientNum time movement duration ∈
        g.observe.2.2 ++ noted.map .pose ++ report v debug before after ↔
      1 ≤ debug ∧ role = v.role ∧ clientNum = v.ci.clientNum ∧ after.movementLast ≠ before.movementLast ∧
        time = v.time ∧ movement = after.movementLast ∧ duration = after.movementTime := by
  have hobserve : .playerMoved role clientNum time movement duration ∉ g.observe.2.2 := fun h => by
    obtain ⟨_, _, hevent⟩ := observe_mem h
    cases hevent
  by_cases hdebug : 1 ≤ debug
  · by_cases hlast : after.movementLast = before.movementLast
    · simp [hobserve, report, hlast]
    · simp [hobserve, report, hdebug, hlast]
  · simp [hobserve, report, hdebug]

end Events

theorem not_dropped_mem (noted : List PoseEvent) : .dropped ∉ noted.filterMap PoseEvent.signal? := by
  intro h
  obtain ⟨event, -, hevent⟩ := List.mem_filterMap.mp h
  cases event with
  | stanceTransition | movementChanged | movementFinished => cases hevent

theorem signals_looked (g : Game) (key : PlayerKey) (hop : op ≠ .resetStore) (noted : List PoseEvent)
    {reported : List Event} (hreported : reported.filterMap Event.signal? = []) :
    op.signals key (g.observe.2.2 ++ noted.map .pose ++ reported) =
      g.seen ++ if op.poses key then noted.filterMap PoseEvent.signal? else [] := by
  have hnoted : (noted.map Event.pose).filterMap Event.signal? = noted.filterMap PoseEvent.signal? :=
    List.filterMap_map
  have hseen : g.seen.filter (fun signal => signal = .dropped || op.poses key) = g.seen := by
    rw [seen]
    split
    · rfl
    · rfl
  rw [Operation.signals_eq hop, List.filterMap_append, List.filterMap_append, observe_signals, hnoted, hreported,
    List.append_nil, List.filter_append, hseen]
  congr
  by_cases hposes : op.poses key
  · simp [hposes]
  · rw [if_neg hposes, List.filter_eq_nil_iff]
    intro signal hsignal
    have hne : signal ≠ .dropped := fun h => not_dropped_mem noted (h ▸ hsignal)
    simp [hne, hposes]

section Step

variable {key : PlayerKey} {log : List Signal} {times : List Int}

theorem current_blending (h : Blending log times (g.store.entry key)) :
    Blending (log ++ g.seen) times (g.current.entry key) := by
  rw [seen, current]
  split
  · rw [List.append_nil]
    exact h
  · rw [Store.entry_fresh]
    apply Blending.fresh
    simp

theorem step_looked (key : PlayerKey) (h : g.step op = .ok (answer, g', events)) (hlooks : op.looks)
    (hpose : ∀ v, op ≠ .pose v) :
    ∃ noted : List PoseEvent, events = g.observe.2.2 ++ noted.map .pose ∧
      ∃ timer, g'.store.entry key = { g.current.entry key with stance := timer } := by
  cases op with
  | pose v => exact absurd rfl (hpose v)
  | observe =>
      rw [step, observe_eq] at h
      cases h
      exact ⟨[], (List.append_nil _).symm, _, rfl⟩
  | direction move =>
      rw [step, direction, observe_eq] at h
      cases h
      exact ⟨[], (List.append_nil _).symm, _, rfl⟩
  | face v =>
      obtain ⟨rfl, rfl⟩ := g.step_face h
      exact ⟨[], (List.append_nil _).symm, _, rfl⟩
  | start v body number =>
      obtain ⟨started, hstarted, rfl, rfl⟩ := g.step_start h
      refine ⟨started.events, rfl, ?_⟩
      obtain ⟨-, -, hentry⟩ | ⟨-, hentry⟩ := startAnimation_entry hstarted key
      · exact ⟨_, hentry⟩
      · exact ⟨_, hentry⟩
  | _ => cases hlooks

theorem quiet_blending (h : g.step op = .ok (answer, g', events)) (hlooks : op.looks = false)
    (hg : Blending log times (g.store.entry key)) :
    Blending (log ++ op.signals key events) times (g'.store.entry key) := by
  have hquiet := step_quiet h hlooks
  cases step_change h with
  | register | deregister =>
      rw [Operation.signals, hquiet, List.filter_nil, List.append_nil]
      · exact hg
      · exact nofun
  | configure hop hset =>
      have hreset : op ≠ .resetStore := by
        rintro rfl
        cases hop
      rw [Operation.signals_quiet hreset hquiet, List.append_nil, hset.store]
      exact hg
  | drop =>
      have hfresh : g.resetStore.store.entry key = .fresh := Store.entry_fresh key
      rw [hfresh]
      apply Blending.fresh
      simp [Operation.signals]
  | look hlook => exact absurd (hlooks.symm.trans hlook) Bool.false_ne_true

theorem looked_blending (h : g.step op = .ok (answer, g', events)) (hlooks : op.looks) (hpose : ∀ v, op ≠ .pose v)
    (hg : Blending log times (g.store.entry key)) :
    Blending (log ++ op.signals key events) times (g'.store.entry key) := by
  obtain ⟨noted, rfl, timer, hentry⟩ := step_looked key h hlooks hpose
  have hop : op ≠ .resetStore ∧ op.poses key = false := by
    cases op with
    | pose v => exact absurd rfl (hpose v)
    | resetStore => cases hlooks
    | _ => exact ⟨nofun, rfl⟩
  have hsignals := signals_looked g key hop.1 noted List.filterMap_nil
  rw [List.append_nil, hop.2, if_neg Bool.false_ne_true, List.append_nil] at hsignals
  rw [hsignals, hentry]
  exact (current_blending hg).stance timer

theorem pose_blending {v : Visit} (h : g.step (.pose v) = .ok (answer, g', events))
    (hg : Blending log times (g.store.entry key)) :
    Blending (log ++ (Operation.pose v).signals key events) (times ++ poseTimes key (g, .pose v))
      (g'.store.entry key) := by
  have hnow := current_blending hg
  have hop : Operation.pose v ≠ .resetStore := nofun
  obtain ⟨tuning, debug, mine, posed, -, -, hmine, hposed, rfl, rfl, rfl⟩ := g.step_pose h
  rw [signals_looked g key hop _ (report_signals v debug _ _), ← List.append_assoc]
  dsimp only [poseTimes]
  by_cases hkey : key = mine
  · subst hkey
    rw [Operation.poses_iff.mpr hmine, Bool.true_and, if_pos rfl]
    cases hcompat : Compat.ofVersion g.version with
    | legacy =>
        obtain ⟨hstore, -, hevents⟩ := poseController_legacy hposed hcompat
        rw [hstore, hevents]
        simpa using hnow
    | enhanced =>
        obtain ⟨movement, duration, htimed, hblends, -⟩ := poseController_blends hposed hcompat hmine hnow.toTimed
        exact (hnow.noted htimed).blends hblends
  · have hposes : (Operation.pose v).poses key = false := by
      rw [← Bool.not_eq_true, Operation.poses_iff]
      intro hof
      exact hkey (Except.ok.inj (hof.symm.trans hmine))
    rw [poseController_other hposed hmine hkey, hposes, Bool.false_and, if_neg Bool.false_ne_true,
      if_neg Bool.false_ne_true, List.append_nil, List.append_nil]
    exact hnow

theorem step_blending (h : g.step op = .ok (answer, g', events)) (hg : Blending log times (g.store.entry key)) :
    Blending (log ++ op.signals key events) (times ++ poseTimes key (g, op)) (g'.store.entry key) := by
  by_cases hpose : ∃ v, op = .pose v
  · obtain ⟨v, rfl⟩ := hpose
    exact pose_blending h hg
  · have hother : ∀ v, op ≠ .pose v := fun v hv => hpose ⟨v, hv⟩
    have htimes : poseTimes key (g, op) = [] := by
      cases op with
      | pose v => exact absurd rfl (hother v)
      | _ => rfl
    rw [htimes, List.append_nil]
    cases hlooks : op.looks with
    | true => exact looked_blending h hlooks hother hg
    | false => exact quiet_blending h hlooks hg

theorem run_blending {ops : List Operation} {answers : List (Answer × List Event)}
    (h : g.run ops = .ok (answers, g')) (hg : Blending log times (g.store.entry key)) :
    Blending (log ++ (ops.zip answers).flatMap fun turn => turn.1.signals key turn.2.2)
      (times ++ (g.history ops).flatMap (poseTimes key)) (g'.store.entry key) := by
  induction ops generalizing g answers log times with
  | nil =>
      obtain ⟨rfl, rfl⟩ := Prod.mk.inj (pure_eq_ok.mp h)
      simpa [history] using hg
  | cons op ops ih =>
      obtain ⟨answer, events, k, rest, hstep, hrest, rfl⟩ := run_cons.mp h
      have hlater := ih hrest (step_blending hstep hg)
      rw [history_cons hstep, List.zip_cons_cons, List.flatMap_cons, List.flatMap_cons, ← List.append_assoc,
        ← List.append_assoc]
      exact hlater

theorem step_ended (h : g.step op = .ok (answer, g', events)) (hg : Blending log times (g.store.entry key))
    (hend : .ended ∈ op.signals key events) :
    op.signals key events = [.ended] ∧ log.getLast? = some .started := by
  have hnow := current_blending hg
  obtain ⟨v, rfl, hposes⟩ := Operation.poses_of_ended hend
  have hop : Operation.pose v ≠ .resetStore := nofun
  obtain ⟨tuning, debug, mine, posed, -, -, -, hposed, rfl, rfl, rfl⟩ := g.step_pose h
  rw [signals_looked g key hop _ (report_signals v debug _ _), if_pos hposes] at hend ⊢
  have hmem : .ended ∈ posed.events.filterMap PoseEvent.signal? := by
    refine (List.mem_append.mp hend).resolve_left ?_
    rw [seen]
    split
    · exact List.not_mem_nil
    · decide
  cases hcompat : Compat.ofVersion g.version with
  | legacy =>
      rw [(poseController_legacy hposed hcompat).2.2] at hmem
      cases hmem
  | enhanced =>
      obtain ⟨movement, duration, -, hblends, -⟩ :=
        poseController_blends hposed hcompat (Operation.poses_iff.mp hposes) hnow.toTimed
      obtain ⟨hevents, hrunning⟩ := hblends.ended_mem hmem
      have hlast := hnow.running.mp hrunning
      rw [hevents]
      -- A switch in the same call would have dropped the blend that ends here.
      rw [seen] at hlast ⊢
      split
      · next hsame =>
          rw [if_pos hsame, List.append_nil] at hlast
          exact ⟨rfl, hlast⟩
      · next hswitch =>
          rw [if_neg hswitch, List.getLast?_concat] at hlast
          cases hlast

section Pose

variable {v : Visit} {posed : Posed Float32} (h : g.step (.pose v) = .ok (.posed posed, g', events))
  (hposes : (Operation.pose v).poses key) (hg : Blending log times (g.store.entry key))
include h hposes hg

theorem pose_within (hcompat : g'.compat = .enhanced) (hrunning : (g'.store.entry key).movementRunning) :
    v.time ≤ (g'.store.entry key).movementEnd := by
  obtain ⟨tuning, debug, mine, _, -, -, -, hposed, hanswer, rfl, -⟩ := g.step_pose h
  obtain ⟨movement, duration, htimed, hblends, -⟩ :=
    poseController_blends hposed hcompat (Operation.poses_iff.mp hposes) (current_blending hg).toTimed
  exact hblends.running_within htimed hrunning

theorem pose_steps (htimes : g'.compat = .enhanced → ∀ t ∈ times, t ≤ v.time)
    (hoff : (g.current.entry key).movementRunning = false)
    (hstart : .started ∉ (Operation.pose v).signals key events) :
    posed.client.control = Blend.step (Scalar.ofInt v.frameTime) posed.target v.ci.control := by
  have hnow := current_blending hg
  have hop : Operation.pose v ≠ .resetStore := nofun
  obtain ⟨tuning, debug, mine, _, -, -, -, hposed, hanswer, rfl, rfl⟩ := g.step_pose h
  obtain rfl := Answer.posed.inj hanswer
  rw [signals_looked g key hop _ (report_signals v debug _ _), if_pos hposes] at hstart
  cases hcompat : Compat.ofVersion g.version with
  | legacy => exact (poseController_legacy hposed hcompat).2.1
  | enhanced =>
      obtain ⟨movement, duration, htimed, hblends, hsteps⟩ :=
        poseController_blends hposed hcompat (Operation.poses_iff.mp hposes) hnow.toTimed
      have hnoted := hnow.noted htimed
      have hm : movement = (g.current.entry key).movementLast := by
        by_contra hne
        exact hstart (List.mem_append_right _ (hblends.started_mem hne))
      exact hsteps hm (hnoted.late hoff (htimes hcompat) hm)

theorem pose_told : ∃ debug, g.console.int .debug = .ok debug ∧
    ∀ role clientNum time movement duration, .playerMoved role clientNum time movement duration ∈ events ↔
      1 ≤ debug ∧ role = v.role ∧ clientNum = v.ci.clientNum ∧
        .pose (.movementChanged time movement duration) ∈ events := by
  have hnow := current_blending hg
  obtain ⟨tuning, debug, mine, _, -, hdebug, hmine, hposed, hanswer, rfl, rfl⟩ := g.step_pose h
  obtain rfl := Answer.posed.inj hanswer
  obtain rfl := Except.ok.inj (hmine.symm.trans (Operation.poses_iff.mp hposes))
  refine ⟨debug, hdebug, fun role clientNum time movement duration => ?_⟩
  have hchanged : .movementChanged time movement duration ∈ posed.events ↔
      (posed.store.entry mine).movementLast ≠ (g.current.entry mine).movementLast ∧ time = v.time ∧
        movement = (posed.store.entry mine).movementLast ∧ duration = (posed.store.entry mine).movementTime := by
    cases hcompat : Compat.ofVersion g.version with
    | legacy =>
        obtain ⟨hstore, -, hevents⟩ := poseController_legacy hposed hcompat
        rw [hstore, hevents]
        simp
    | enhanced =>
        obtain ⟨_, _, -, hblends, -⟩ := poseController_blends hposed hcompat hmine hnow.toTimed
        exact hblends.changed_mem
  rw [pose_mem, hchanged]
  exact playerMoved_mem

end Pose

end Step

/-- A blend is running exactly if the last thing noted about the player is that one has started, and then it is
not over yet. An operator who has asked for it is told of exactly the movements that blends start into. -/
theorem blends_noted (console : Console) {ops : List Operation} {answers : List (Answer × List Event)}
    (h : (opening console).run ops = .ok (answers, g)) (key : PlayerKey) :
    let log := (ops.zip answers).flatMap fun turn => turn.1.signals key turn.2.2
    ((g.store.entry key).movementRunning ↔ log.getLast? = some .started) ∧
    (∀ op answer g' events, g.step op = .ok (answer, g', events) → .ended ∈ op.signals key events →
      op.signals key events = [.ended] ∧ log.getLast? = some .started) ∧
    ∀ v posed g' events, g.step (.pose v) = .ok (.posed posed, g', events) → (Operation.pose v).poses key →
      (g'.compat = .enhanced → (g'.store.entry key).movementRunning → v.time ≤ (g'.store.entry key).movementEnd) ∧
      ((g'.compat = .enhanced → ∀ t ∈ ((opening console).history ops).flatMap (poseTimes key), t ≤ v.time) →
        (g.current.entry key).movementRunning = false → .started ∉ (Operation.pose v).signals key events →
        posed.client.control = Blend.step (Scalar.ofInt v.frameTime) posed.target v.ci.control) ∧
      ∃ debug, g.console.int .debug = .ok debug ∧
        ∀ role clientNum time movement duration, .playerMoved role clientNum time movement duration ∈ events ↔
          1 ≤ debug ∧ role = v.role ∧ clientNum = v.ci.clientNum ∧
            .pose (.movementChanged time movement duration) ∈ events := by
  intro log
  have hfresh : Blending [] [] ((opening console).store.entry key) := by
    rw [opening, Store.entry_fresh]
    exact .fresh nofun
  have hg := run_blending h hfresh
  rw [List.nil_append, List.nil_append] at hg
  refine ⟨hg.running, fun op answer g' events hstep hend => step_ended hstep hg hend, ?_⟩
  intro v posed g' events hstep hposes
  exact ⟨pose_within hstep hposes hg, pose_steps hstep hposes hg, pose_told hstep hposes hg⟩

section Example

def standing (time : Int) : Visit := ⟨.server, time, 50, .twoStances, .initial 0, .playing 0 ⟨1⟩⟩

def stoodStill : List Operation :=
  [.setVariable "g_cod2x" "3", .setVariable "player_debug" "1", .pose (standing 1000), .pose (standing 1251)]

theorem blends_noted_stoodStill :
    (∃ answers g answer g' events, initial.run (stoodStill.take 3) = .ok (answers, g) ∧
      (g.store.entry (.first .server)).movementRunning ∧
      g.step (.pose (standing 1251)) = .ok (answer, g', events) ∧
      (Operation.pose (standing 1251)).signals (.first .server) events = [.ended]) ∧
    ∃ answers g posed g' events, initial.run stoodStill = .ok (answers, g) ∧
      (g.store.entry (.first .server)).movementRunning = false ∧
      g.step (.pose (standing 1300)) = .ok (.posed posed, g', events) ∧
      posed.client.control = Blend.step (Scalar.ofInt 50) posed.target (standing 1300).ci.control := by
  constructor
  · obtain ⟨⟨answers, g⟩, h⟩ : ∃ p, initial.run (stoodStill.take 3) = .ok p := exists_eq_ok (by rfl)
    have hstep : (initial.run (stoodStill.take 3) >>= fun p => p.2.step (.pose (standing 1251))).map
        (fun p => (Operation.pose (standing 1251)).signals (.first .server) p.2.2) = .ok [.ended] := by
      rfl
    rw [h] at hstep
    obtain ⟨⟨answer, g', events⟩, hstep, hsignals⟩ := map_eq_ok.mp hstep
    replace hstep : g.step (.pose (standing 1251)) = .ok (answer, g', events) := hstep
    dsimp only at hsignals
    obtain ⟨hrunning, hends, -⟩ := blends_noted _ h (.first .server)
    have hend : .ended ∈ (Operation.pose (standing 1251)).signals (.first .server) events := by
      rw [hsignals]
      exact List.mem_cons_self
    exact ⟨answers, g, answer, g', events, h, hrunning.mpr (hends _ _ _ _ hstep hend).2, hstep, hsignals⟩
  · obtain ⟨⟨answers, g⟩, h⟩ : ∃ p, initial.run stoodStill = .ok p := exists_eq_ok (by rfl)
    have hstate : (initial.run stoodStill).map (fun p =>
        ((p.2.store.entry (.first .server)).movementRunning, (p.2.current.entry (.first .server)).movementRunning)) =
          .ok (false, false) := by
      rfl
    have hstep : (initial.run stoodStill >>= fun p => p.2.step (.pose (standing 1300))).map
        (fun p => (Operation.pose (standing 1300)).signals (.first .server) p.2.2) = .ok [] := by
      rfl
    have htimes : (initial.history stoodStill).flatMap (poseTimes (.first .server)) = [1000, 1251] := by rfl
    rw [h] at hstate hstep
    obtain ⟨hoff, hcurrent⟩ := Prod.mk.inj (Except.ok.inj hstate)
    obtain ⟨⟨answer, g', events⟩, hstep, hsignals⟩ := map_eq_ok.mp hstep
    replace hstep : g.step (.pose (standing 1300)) = .ok (answer, g', events) := hstep
    dsimp only at hsignals
    obtain ⟨-, -, -, posed, -, -, -, -, rfl, -⟩ := g.step_pose hstep
    obtain ⟨-, hsteps, -⟩ := (blends_noted _ h (.first .server)).2.2 _ _ _ _ hstep rfl
    refine ⟨answers, g, posed, g', events, h, hoff, hstep, hsteps (fun _ t ht => ?_) hcurrent ?_⟩
    · change t ∈ (initial.history stoodStill).flatMap (poseTimes (.first .server)) at ht
      rw [htimes] at ht
      have hlate : ∀ t ∈ [1000, 1251], t ≤ (standing 1300).time := by decide
      exact hlate t ht
    · rw [hsignals]
      exact List.not_mem_nil

end Example

end Game

end PlayerAnimation
