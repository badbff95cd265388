import PlayerAnimation.Proofs.Stance
import PlayerAnimation.Proofs.Store.Edit

namespace PlayerAnimation

variable {α : Type}

theorem AnimNum.index_index (n : AnimNum) : (⟨n.index⟩ : AnimNum).index = n.index := by
  rw [index, index, UInt32.and_assoc, UInt32.and_self]

theorem StancePose.of_eq {host : Host α} {n : AnimNum} {a : Animation α} (h : host.animation n.index = some a) :
    of host n = ofMoveTypes a.moveTypes := by
  rw [of, h]
  rfl

theorem ClientInfo.lerpFrame_setLerpFrame (ci : ClientInfo α) (body other : Body) (lf : LerpFrame α) :
    (ci.setLerpFrame body lf).lerpFrame other = if other = body then lf else ci.lerpFrame other := by
  cases body <;> cases other <;> rfl

/-- The animation that plays on one half of the body, and its number, which says the same. -/
structure InStep (host : Host α) (lf : LerpFrame α) : Prop where
  idle : lf.animation = none ↔ lf.animationNumber.index = 0
  playing : lf.animationNumber.index ≠ 0 →
    lf.animation = some lf.animationNumber.index ∧ (host.animation lf.animationNumber.index).isSome
  time : 0 ≤ lf.animationTime

namespace Started

/-- Whether an animation is past the end of the script. -/
def ignores (host : Host α) (number : AnimNum) : Bool :=
  0 < number.index && (host.animation number.index).isNone

theorem play_inStep {host : Host α} {number : AnimNum} (h : ¬ ignores host number) (lf : LerpFrame α)
    {time : Int} (htime : 0 ≤ time) : InStep host (play lf number time) := by
  rw [ignores, Bool.and_eq_true, decide_eq_true_iff, UInt32.pos_iff_ne_zero, not_and,
    Option.isNone_iff_eq_none] at h
  by_cases hzero : number.index = 0
  · have hnone : (play lf number time).animation = none := if_neg (by rw [hzero]; decide)
    exact ⟨iff_of_true hnone hzero, absurd hzero, htime⟩
  · have hsome : (play lf number time).animation = some number.index :=
      if_pos (UInt32.pos_iff_ne_zero.mpr hzero)
    refine ⟨iff_of_false (by rw [hsome]; exact nofun) hzero, fun _ => ⟨hsome, ?_⟩, htime⟩
    exact Option.isSome_iff_ne_none.mpr (h hzero)

theorem stanceChange_between {frame : Frame} {host : Host α} {lf : LerpFrame α} {number : AnimNum} {i : UInt32}
    {old new : Animation α} (hlf : InStep host lf) (henhanced : frame.compat = .enhanced)
    (hi : lf.animation = some i) (hold : host.animation i = some old) (hzero : number.index ≠ 0)
    (hnew : host.animation number.index = some new) :
    stanceChange frame host lf .legs number = .between (.ofMoveTypes old.moveTypes) (.ofMoveTypes new.moveTypes) := by
  have hnumber : lf.animationNumber.index ≠ 0 := by
    intro hidle
    rw [hlf.idle.mpr hidle] at hi
    cases hi
  obtain rfl : lf.animationNumber.index = i := Option.some.inj ((hlf.playing hnumber).1.symm.trans hi)
  have hall : frame.compat.isEnhanced && Body.legs = .legs && lf.animation.isSome && 0 < number.index := by
    simp [henhanced, Compat.isEnhanced, hi, UInt32.pos_iff_ne_zero, hzero]
  rw [stanceChange, if_pos hall, StanceTransition.classify, StancePose.of_eq hold, StancePose.of_eq]
  rwa [AnimNum.index_index]

theorem stanceChange_none {frame : Frame} {host : Host α} {lf : LerpFrame α} {body : Body} {number : AnimNum}
    (h : frame.compat = .legacy ∨ body = .torso ∨ lf.animation = none ∨ number.index = 0) :
    stanceChange frame host lf body number = .none := by
  refine if_neg ?_
  rcases h with h | h | h | h
  all_goals simp [h, Compat.isEnhanced]

variable [Scalar α]

theorem minBlend_pos (current next : Option (Animation α)) : 0 < minBlend current next := by
  rw [minBlend]
  split
  · decide
  · split <;> decide

theorem plainBlend_pos (current next : Option (Animation α)) : 0 < plainBlend current next := by
  have hmin := minBlend_pos current next
  rw [plainBlend]
  split
  · omega
  · next h =>
      rw [Bool.or_eq_true, not_or, decide_eq_true_iff] at h
      omega

theorem blend_stanceChange {frame : Frame} {host : Host α} {lf : LerpFrame α} {body : Body} {number : AnimNum}
    (h : stanceChange frame host lf body number ≠ .none) :
    blend host lf body number (stanceChange frame host lf body number) =
      (stanceChange frame host lf body number).blendTime := by
  have hfirst : ¬ (lf.animation.isNone && body = .legs) := by
    intro hfirst
    rw [Bool.and_eq_true, Option.isNone_iff_eq_none] at hfirst
    exact h (stanceChange_none (Or.inr (Or.inr (Or.inl hfirst.1))))
  rw [blend, if_neg hfirst, if_pos h]

theorem blend_bounds (host : Host α) (lf : LerpFrame α) (body : Body) (number : AnimNum)
    (change : StanceTransition) :
    0 ≤ blend host lf body number change ∧
      (blend host lf body number change = 0 ↔ body = .legs ∧ lf.animation = none) := by
  rw [blend]
  split
  · next h =>
      rw [Bool.and_eq_true, Option.isNone_iff_eq_none, decide_eq_true_iff] at h
      exact ⟨Int.le_refl 0, iff_of_true rfl h.symm⟩
  · next h =>
      rw [Bool.and_eq_true, Option.isNone_iff_eq_none, decide_eq_true_iff, and_comm] at h
      split
      · next hchange =>
          have hpos := StanceTransition.blendTime_pos hchange
          exact ⟨Int.le_of_lt hpos, iff_of_false (Int.ne_of_gt hpos) h⟩
      · have hpos := plainBlend_pos (lf.animation.bind host.animation)
          (if 0 < number.index then host.animation number.index else none)
        exact ⟨Int.le_of_lt hpos, iff_of_false (Int.ne_of_gt hpos) h⟩

end Started

section Start

variable [Scalar α] {frame : Frame} {host : Host α} {s : Store α} {ci : ClientInfo α} {body : Body}
  {number : AnimNum}

theorem startAnimation_ignored (h : Started.ignores host number) :
    startAnimation frame host s ci body number = .ok ⟨.none, s, ci, []⟩ := if_pos h

theorem startAnimation_accepted {started : Started α} (hplays : ¬ Started.ignores host number)
    (h : startAnimation frame host s ci body number = .ok started) :
    started.transition = Started.stanceChange frame host (ci.lerpFrame body) body number ∧
      started.client = ci.setLerpFrame body (Started.play (ci.lerpFrame body) number
        (Started.blend host (ci.lerpFrame body) body number started.transition)) := by
  rw [Started.ignores] at hplays
  rw [startAnimation, if_neg hplays] at h
  dsimp only at h
  split at h
  · obtain rfl := pure_eq_ok.mp h
    exact ⟨rfl, rfl⟩
  · obtain ⟨key, -, h⟩ := bind_eq_ok.mp h
    obtain ⟨timer, -, h⟩ := bind_eq_ok.mp h
    obtain rfl := pure_eq_ok.mp h
    exact ⟨rfl, rfl⟩

end Start

structure Cue where
  frame : Frame
  body : Body
  number : AnimNum

/-- An animation that is started: for whom, with what recorded, and what came of it. -/
structure Take (α : Type) where
  cue : Cue
  store : Store α
  client : ClientInfo α
  started : Started α

def perform [Scalar α] (host : Host α) : Store α → ClientInfo α → List Cue → Except Fault (List (Take α))
  | _, _, [] => pure []
  | s, ci, cue :: cues => do
      let started ← startAnimation cue.frame host s ci cue.body cue.number
      let takes ← perform host started.store started.client cues
      pure (⟨cue, s, ci, started⟩ :: takes)

/-- What is kept and recorded when an animation is started. -/
structure Accounted (host : Host α) (take : Take α) : Prop where
  inStep : ∀ body, InStep host (take.started.client.lerpFrame body)
  ignored : Started.ignores host take.cue.number → take.started = ⟨.none, take.store, take.client, []⟩
  plays : ¬ Started.ignores host take.cue.number → ∃ time,
    take.started.client = take.client.setLerpFrame take.cue.body
      (Started.play (take.client.lerpFrame take.cue.body) take.cue.number time) ∧
    (time = 0 ↔ take.cue.body = .legs ∧ take.client.legs.animation = none) ∧
    (take.started.transition ≠ .none → time = take.started.transition.blendTime)
  changes : ∀ i old new, take.cue.frame.compat = .enhanced → take.cue.body = .legs →
    take.client.legs.animation = some i → host.animation i = some old → take.cue.number.index ≠ 0 →
    host.animation take.cue.number.index = some new →
    take.started.transition = .between (.ofMoveTypes old.moveTypes) (.ofMoveTypes new.moveTypes)
  stays : take.cue.frame.compat = .legacy ∨ take.cue.body = .torso ∨ take.client.legs.animation = none ∨
    take.cue.number.index = 0 ∨ Started.ignores host take.cue.number → take.started.transition = .none
  recorded : take.started.transition ≠ .none → ∃ key,
    PlayerKey.of take.client.clientNum take.cue.frame.role = .ok key ∧
    take.started.store = take.store.put key { take.store.entry key with
      stance := ⟨take.started.transition, take.started.transition.duration,
        take.cue.frame.time + take.started.transition.duration⟩ }
  unrecorded : take.started.transition = .none → take.started.store = take.store

section Run

variable [Scalar α] {host : Host α} {take : Take α}
  (h : startAnimation take.cue.frame host take.store take.client take.cue.body take.cue.number = .ok take.started)
  (hclient : ∀ body, InStep host (take.client.lerpFrame body))
include h hclient

theorem accounted_of_ignored (hignored : Started.ignores host take.cue.number) : Accounted host take := by
  rw [startAnimation_ignored hignored] at h
  have hstarted : take.started = ⟨.none, take.store, take.client, []⟩ := (Except.ok.inj h).symm
  have hnone : take.started.transition = .none := congrArg Started.transition hstarted
  exact
    { inStep body := by
        rw [hstarted]
        exact hclient body
      ignored _ := hstarted
      plays hplays := absurd hignored hplays
      changes i old new _ _ _ _ _ hnew := by
        rw [Started.ignores, hnew, Bool.and_eq_true] at hignored
        cases hignored.2
      stays _ := hnone
      recorded hchange := absurd hnone hchange
      unrecorded _ := congrArg Started.store hstarted }

theorem accounted_of_plays (hplays : ¬ Started.ignores host take.cue.number) : Accounted host take := by
  obtain ⟨htransition, hplayed⟩ := startAnimation_accepted hplays h
  have hblend := Started.blend_bounds host (take.client.lerpFrame take.cue.body) take.cue.body
    take.cue.number take.started.transition
  exact
    { inStep body := by
        rw [hplayed, ClientInfo.lerpFrame_setLerpFrame]
        split
        · exact Started.play_inStep hplays _ hblend.1
        · exact hclient body
      ignored hignored := absurd hignored hplays
      plays _ := by
        refine ⟨_, hplayed, hblend.2.trans (and_congr_right fun hlegs => ?_), fun hchange => ?_⟩
        · rw [hlegs]
          rfl
        · rw [htransition] at hchange ⊢
          exact Started.blend_stanceChange hchange
      changes i old new henhanced hlegs hi hold hzero hnew := by
        rw [htransition, hlegs]
        exact Started.stanceChange_between (hclient .legs) henhanced hi hold hzero hnew
      stays hstays := by
        rw [htransition]
        apply Started.stanceChange_none
        obtain hlegacy | htorso | hidle | hzero | hignored := hstays
        · exact Or.inl hlegacy
        · exact Or.inr (Or.inl htorso)
        · cases hbody : take.cue.body with
          | legs => exact Or.inr (Or.inr (Or.inl hidle))
          | torso => exact Or.inr (Or.inl rfl)
        · exact Or.inr (Or.inr (Or.inr hzero))
        · exact absurd hignored hplays
      recorded hchange := by
        obtain ⟨hnone, -⟩ | ⟨-, -, key, hkey, hstore⟩ := startAnimation_store h
        · exact absurd hnone hchange
        · exact ⟨key, hkey, hstore⟩
      unrecorded hnone := by
        obtain ⟨-, hstore⟩ | ⟨hchange, -⟩ := startAnimation_store h
        · exact hstore
        · exact absurd hnone hchange }

end Run

section Perform

variable [Scalar α] {host : Host α}

theorem perform_cons {s : Store α} {ci : ClientInfo α} {cue : Cue} {cues : List Cue} {takes : List (Take α)} :
    perform host s ci (cue :: cues) = .ok takes ↔
      ∃ started rest, startAnimation cue.frame host s ci cue.body cue.number = .ok started ∧
        perform host started.store started.client cues = .ok rest ∧ ⟨cue, s, ci, started⟩ :: rest = takes := by
  simp only [perform, bind_eq_ok, pure_eq_ok]
  constructor
  · rintro ⟨started, hstarted, rest, hrest, rfl⟩
    exact ⟨started, rest, hstarted, hrest, rfl⟩
  · rintro ⟨started, rest, hstarted, hrest, rfl⟩
    exact ⟨started, hstarted, rest, hrest, rfl⟩

theorem perform_accounted {s : Store α} {ci : ClientInfo α} {cues : List Cue} {takes : List (Take α)}
    (h : perform host s ci cues = .ok takes) (hci : ∀ body, InStep host (ci.lerpFrame body)) :
    takes.map Take.cue = cues ∧ ∀ take ∈ takes, Accounted host take := by
  induction cues generalizing s ci takes with
  | nil =>
      obtain rfl := pure_eq_ok.mp h
      exact ⟨rfl, List.forall_mem_nil _⟩
  | cons cue cues ih =>
      obtain ⟨started, rest, hstarted, hrest, rfl⟩ := perform_cons.mp h
      have htake : Accounted host ⟨cue, s, ci, started⟩ := by
        by_cases hignored : Started.ignores host cue.number
        · exact accounted_of_ignored hstarted hci hignored
        · exact accounted_of_plays hstarted hci hignored
      obtain ⟨hcues, hall⟩ := ih hrest htake.inStep
      exact ⟨congrArg (cue :: ·) hcues, List.forall_mem_cons.mpr ⟨htake, hall⟩⟩

theorem initial_inStep (host : Host α) (clientNum : Nat) (body : Body) :
    InStep host ((ClientInfo.initial clientNum : ClientInfo α).lerpFrame body) := by
  have hzero : (⟨0⟩ : AnimNum).index = 0 := by decide
  have hinitial : InStep host (LerpFrame.initial : LerpFrame α) :=
    ⟨iff_of_true rfl hzero, absurd hzero, Int.le_refl 0⟩
  cases body with
  | legs | torso => exact hinitial

theorem startAnimation_exists {frame : Frame} {s : Store α} {ci : ClientInfo α} (host : Host α) (body : Body)
    (number : AnimNum) (hclient : ci.clientNum < maxClients)
    (hroom : ∀ transition : StanceTransition, Scalar.holds α (frame.time + transition.duration)) :
    ∃ started, startAnimation frame host s ci body number = .ok started ∧
      started.client.clientNum = ci.clientNum := by
  have hnum : ∀ lf, (ci.setLerpFrame body lf).clientNum = ci.clientNum := by
    intro lf
    cases body with
    | legs | torso => rfl
  have htimer : ∀ transition : StanceTransition, StanceTimer.start α transition frame.time =
      .ok (.startedAt transition frame.time) := by
    intro transition
    rw [StanceTimer.start, clock_add_eq_ok.mpr ⟨hroom transition, rfl⟩]
    rfl
  rw [startAnimation]
  split
  · exact ⟨_, rfl, rfl⟩
  dsimp only
  split
  · exact ⟨_, rfl, hnum _⟩
  · rw [PlayerKey.of, dif_pos hclient]
    simp only [bind, Except.bind, htimer]
    exact ⟨_, rfl, hnum _⟩

theorem perform_exists {s : Store α} {ci : ClientInfo α} {cues : List Cue} (hclient : ci.clientNum < maxClients)
    (hroom : ∀ cue ∈ cues, ∀ transition : StanceTransition,
      Scalar.holds α (cue.frame.time + transition.duration)) :
    ∃ takes, perform host s ci cues = .ok takes := by
  induction cues generalizing s ci with
  | nil => exact ⟨[], rfl⟩
  | cons cue cues ih =>
      obtain ⟨hcue, hcues⟩ := List.forall_mem_cons.mp hroom
      obtain ⟨started, hstarted, hnum⟩ := startAnimation_exists (s := s) host cue.body cue.number hclient hcue
      rw [← hnum] at hclient
      obtain ⟨rest, hrest⟩ := ih (s := started.store) hclient hcues
      exact ⟨_, perform_cons.mpr ⟨started, rest, hstarted, hrest, rfl⟩⟩

/-- Whatever animations are started for a player about whom nothing is known, each of them is accounted for. -/
theorem animations_accounted (host : Host α) (s : Store α) (clientNum : Nat) (cues : List Cue) :
    (clientNum < maxClients → (∀ cue ∈ cues, ∀ transition : StanceTransition,
        Scalar.holds α (cue.frame.time + transition.duration)) →
      ∃ takes, perform host s (.initial clientNum) cues = .ok takes) ∧
    ∀ takes, perform host s (.initial clientNum) cues = .ok takes →
      takes.map Take.cue = cues ∧ ∀ take ∈ takes, Accounted host take := by
  constructor
  · intro hclient hroom
    exact perform_exists hclient hroom
  · intro takes h
    exact perform_accounted h (initial_inStep host clientNum)

end Perform

section Example

def sinking : List Cue :=
  let frame (time : Int) : Frame := ⟨.client, .enhanced, time, 50⟩
  [⟨frame 1000, .legs, ⟨0x201⟩⟩, ⟨frame 1000, .torso, ⟨1⟩⟩, ⟨frame 1050, .legs, ⟨3⟩⟩,
    ⟨frame 2147483247, .legs, ⟨2⟩⟩]

theorem animations_accounted_sinking :
    ∃ takes, perform (Host.twoStances : Host Float32) .fresh (.initial 5) sinking = .ok takes ∧
      takes.map (fun take => take.started.transition) = [.none, .none, .none, .standToCrouch] ∧
      ∀ take ∈ takes, Accounted .twoStances take := by
  have hroom : ∀ cue ∈ sinking, ∀ transition : StanceTransition,
      Scalar.holds Float32 (cue.frame.time + transition.duration) := by
    intro cue hcue transition
    rw [WordClock.holds_iff]
    have htimes : ∀ cue ∈ sinking, 0 ≤ cue.frame.time ∧ cue.frame.time ≤ 0x7fffffff - 400 := by decide
    have htime := htimes cue hcue
    have hduration := transition.duration_bounds
    omega
  obtain ⟨hexists, hall⟩ := animations_accounted (Host.twoStances : Host Float32) .fresh 5 sinking
  obtain ⟨takes, h⟩ := hexists (by decide) hroom
  have htransitions : (perform (Host.twoStances : Host Float32) .fresh (.initial 5) sinking).map
      (List.map fun take => take.started.transition) = .ok [.none, .none, .none, .standToCrouch] := by
    rfl
  rw [h] at htransitions
  exact ⟨takes, h, Except.ok.inj htransitions, (hall takes h).2⟩

end Example

section Restart

theorem StanceTransition.between_self (p : StancePose) :
    between p p = if p.crouching && p.prone then crouchToProne else none := by
  obtain ⟨crouching, prone⟩ := p
  cases crouching <;> cases prone <;> rfl

/-- The animation of the script that plays on one half of the body, by both records of it. -/
structure Plays (host : Host α) (lf : LerpFrame α) (i : UInt32) (a : Animation α) : Prop where
  pos : 0 < i
  animation : lf.animation = some i
  number : lf.animationNumber.index = i
  scripted : host.animation i = some a

/-- Whether an animation is made for crouching and for lying prone. -/
def Animation.isLow (a : Animation α) : Bool :=
  a.moveTypes.intersects MoveTypes.crouch && a.moveTypes.intersects MoveTypes.prone

namespace Plays

variable {host : Host α} {lf : LerpFrame α} {i : UInt32} {a : Animation α}

theorem not_ignores (h : Plays host lf i a) {number : AnimNum} (hnumber : number.index = i) :
    ¬ Started.ignores host number := by
  rw [Started.ignores, hnumber, h.scripted, Option.isNone_some, Bool.and_false]
  exact Bool.false_ne_true

theorem classify_eq (h : Plays host lf i a) :
    StanceTransition.classify host lf.animationNumber ⟨lf.animationNumber.index⟩ =
      if a.isLow then .crouchToProne else .none := by
  have hold : host.animation lf.animationNumber.index = some a := by rw [h.number, h.scripted]
  have hnew : host.animation (⟨lf.animationNumber.index⟩ : AnimNum).index = some a := by
    rw [AnimNum.index_index, hold]
  rw [StanceTransition.classify, StancePose.of_eq hold, StancePose.of_eq hnew, StanceTransition.between_self]
  rfl

theorem stanceChange_eq (h : Plays host lf i a) (frame : Frame) {number : AnimNum} (hnumber : number.index = i) :
    Started.stanceChange frame host lf .legs number =
      if frame.compat.isEnhanced && a.isLow then .crouchToProne else .none := by
  have hstarts : (decide (Body.legs = .legs) && lf.animation.isSome && decide (0 < number.index)) = true := by
    rw [h.animation, hnumber, decide_eq_true h.pos]
    rfl
  rw [Bool.and_assoc, Bool.and_eq_true] at hstarts
  rw [Started.stanceChange, Bool.and_assoc, Bool.and_assoc, hstarts.1, hstarts.2, hnumber, ← h.number,
    h.classify_eq, Bool.and_self, Bool.and_true]
  cases frame.compat.isEnhanced <;> rfl

end Plays

variable [Scalar α] {frame : Frame} {host : Host α} {s : Store α} {ci : ClientInfo α} {number : AnimNum}
  {i : UInt32} {a : Animation α}

theorem startAnimation_steady {body : Body} (hplays : ¬ Started.ignores host number)
    (hnone : Started.stanceChange frame host (ci.lerpFrame body) body number = .none) :
    ∃ started, startAnimation frame host s ci body number = .ok started ∧
      started.transition = .none ∧ started.store = s := by
  rw [Started.ignores] at hplays
  rw [startAnimation, if_neg hplays]
  dsimp only
  rw [if_pos hnone]
  exact ⟨_, rfl, hnone, rfl⟩

/-- Restarting the animation of the legs leaves the stance and all that is recorded alone, unless it is made for
crouching and lying prone both: each enhanced restart of such a one is recorded as a way down to prone. -/
theorem restart_keeps_stance (h : Plays host ci.legs i a) (hnumber : number.index = i) :
    ((∃ started, startAnimation frame host s ci .legs number = .ok started ∧
        started.transition = .none ∧ started.store = s) ↔
      ¬ (frame.compat = .enhanced ∧ a.isLow = true)) ∧
    ∀ started, startAnimation frame host s ci .legs number = .ok started →
      frame.compat = .enhanced → a.isLow = true → started.transition = .crouchToProne ∧
        ∃ key, PlayerKey.of ci.clientNum frame.role = .ok key ∧
          started.store = s.put key
            { s.entry key with stance := ⟨.crouchToProne, 400, frame.time + 400⟩ } := by
  have hplays := h.not_ignores hnumber
  have hchange : Started.stanceChange frame host (ci.lerpFrame .legs) .legs number = _ :=
    h.stanceChange_eq frame hnumber
  have hsinks (henhanced : frame.compat = .enhanced) (hlow : a.isLow = true) (started : Started α)
      (hstarted : startAnimation frame host s ci .legs number = .ok started) :
      started.transition = .crouchToProne := by
    rw [(startAnimation_accepted hplays hstarted).1, hchange, henhanced, hlow]
    rfl
  refine ⟨⟨?noticed, ?steady⟩, ?recorded⟩
  case noticed =>
    rintro ⟨started, hstarted, hnone, -⟩ ⟨henhanced, hlow⟩
    rw [hsinks henhanced hlow started hstarted] at hnone
    cases hnone
  case steady =>
    intro hkept
    refine startAnimation_steady hplays (hchange.trans (if_neg ?_))
    rwa [Bool.and_eq_true, Compat.isEnhanced_iff]
  case recorded =>
    intro started hstarted henhanced hlow
    have htransition := hsinks henhanced hlow started hstarted
    obtain ⟨hnone, -⟩ | ⟨-, -, key, hkey, hstore⟩ := startAnimation_store hstarted
    · rw [htransition] at hnone
      cases hnone
    · rw [htransition] at hstore
      exact ⟨htransition, key, hkey, hstore⟩

end Restart

section Example

theorem restart_keeps_stance_crouched :
    let ci : ClientInfo Float32 := .playing 0 ⟨2⟩
    Plays .twoStances ci.legs 2 ⟨"", .idleCrouch, .empty, 0, 0⟩ ∧ (⟨0x202⟩ : AnimNum).index = 2 ∧
      ∃ started, startAnimation ⟨.client, .enhanced, 1000, 50⟩ .twoStances .fresh ci .legs ⟨0x202⟩ = .ok started ∧
        started.transition = .none ∧ started.store = .fresh := by
  intro ci
  have hplays : Plays .twoStances ci.legs 2 ⟨"", .idleCrouch, .empty, 0, 0⟩ := ⟨by decide, rfl, by decide, rfl⟩
  have hnumber : (⟨0x202⟩ : AnimNum).index = 2 := by decide
  exact ⟨hplays, hnumber, (restart_keeps_stance hplays hnumber).1.mpr (by decide)⟩

def dive : Animation Float32 := ⟨"pb_dive", .idleCrouch ||| .idleProne, .empty, 10, 0⟩

def diving : Host Float32 := .ofScript #[⟨"", .empty, .empty, 0, 0⟩, dive] .empty false

def diver : ClientInfo Float32 := .playing 0 ⟨1⟩

/-- Restarting an animation for crouching and lying prone takes the player down to prone. -/
theorem restart_sinks :
    Plays diving diver.legs 1 dive ∧ (⟨0x201⟩ : AnimNum).index = 1 ∧
      ∃ started, startAnimation ⟨.server, .enhanced, 1000, 50⟩ diving .fresh diver .legs ⟨0x201⟩ = .ok started ∧
        started.transition = .crouchToProne ∧
        (started.store.entry (.first .server)).stance = ⟨.crouchToProne, 400, 1400⟩ := by
  have hplays : Plays diving diver.legs 1 dive := ⟨by decide, rfl, by decide, rfl⟩
  obtain ⟨started, h⟩ :
      ∃ started, startAnimation ⟨.server, .enhanced, 1000, 50⟩ diving .fresh diver .legs ⟨0x201⟩ = .ok started :=
    exists_eq_ok (by rfl)
  have hrecorded : (startAnimation ⟨.server, .enhanced, 1000, 50⟩ diving .fresh diver .legs ⟨0x201⟩).map
      (fun started => (started.transition, (started.store.entry (.first .server)).stance)) =
        .ok (.crouchToProne, ⟨.crouchToProne, 400, 1400⟩) := by
    rfl
  rw [h] at hrecorded
  obtain ⟨htransition, hstance⟩ := Prod.mk.inj (Except.ok.inj hrecorded)
  exact ⟨hplays, by decide, started, h, htransition, hstance⟩

end Example

end PlayerAnimation
