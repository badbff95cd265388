import PlayerAnimation.Proofs.Legacy
import PlayerAnimation.Proofs.Stance

namespace PlayerAnimation

/-- Whether a transition to or from prone has begun and is not over. -/
def StanceTimer.lowers (s : StanceTimer) (time : Int) : Prop :=
  (s.transition = .crouchToProne ∨ s.transition = .proneToCrouch) ∧
    s.finish - s.duration < time ∧ time < s.finish

variable {α : Type} [Scalar α]

/-- Whether the pose of a player is left to the played animation. -/
def Target.rests (role : Role) (es : EntityState α) (neutral : Bool) : Bool :=
  neutral && role = .server || es.onMountedGun

section Build

variable {frame : Frame} {host : Host α} {s : Store α} {es : EntityState α} {ci : ClientInfo α}
  {neutral : Bool} {key : PlayerKey}

theorem buildTarget_resting (h : Target.rests frame.role es neutral = true) :
    ∃ edits, ∀ ci, buildTarget frame host s es ci neutral = .ok ⟨.zero, s, edits⟩ := by
  rw [Target.rests, Bool.or_eq_true] at h
  by_cases hneutral : (neutral && frame.role = .server) = true
  · refine ⟨[.resetAnimations es.clientNum], fun ci => ?_⟩
    rw [buildTarget, if_pos hneutral]
    rfl
  · refine ⟨[], fun ci => ?_⟩
    rw [buildTarget, if_neg hneutral, if_pos (h.resolve_left hneutral)]
    rfl

theorem Target.plain_built (h : Target.rests frame.role es neutral = false) :
    (Target.plain frame.role (host.moveTypes ci) es ci neutral).1 = Target.base es ci (host.moveTypes ci) := by
  rw [Target.rests, Bool.or_eq_false_iff] at h
  rw [Target.plain, h.1, h.2]
  rfl

theorem buildTarget_enhanced (henhanced : frame.compat = .enhanced)
    (h : Target.rests frame.role es neutral = false) (hkey : PlayerKey.of ci.clientNum frame.role = .ok key) :
    let enhanced := Enhanced.of host es ci (Target.base es ci (host.moveTypes ci))
    buildTarget frame host s es ci neutral =
      ((s.entry key).stance.progress frame.time).map fun progress =>
        { target := Enhanced.inTransition (s.entry key).stance.transition progress enhanced.pose
          store := s.put key
            { s.entry key with movement := enhanced.movement, movementTime := enhanced.blendTime }
          edits :=
            if frame.role = .server && Enhanced.throwMismatch host es ci then
              [.clearLegsTimer es.clientNum]
            else [] } := by
  rw [Target.rests, Bool.or_eq_false_iff] at h
  rw [buildTarget, h.1, h.2, henhanced, hkey]
  rfl

/-- The plain and the enhanced target of a player at a time. -/
inductive Targets (role : Role) (time : Int) (host : Host α) (timer : StanceTimer) (es : EntityState α)
    (ci : ClientInfo α) (neutral : Bool) : Controllers α → Controllers α → Prop
  | resting (h : Target.rests role es neutral = true) : Targets role time host timer es ci neutral .zero .zero
  | built (h : Target.rests role es neutral = false) {progress : α} (hp : timer.progress time = .ok progress) :
      Targets role time host timer es ci neutral (Target.base es ci (host.moveTypes ci))
        (Enhanced.inTransition timer.transition progress
          (Enhanced.of host es ci (Target.base es ci (host.moveTypes ci))).pose)

theorem targets_built (frame : Frame) (host : Host α) (s : Store α) (es : EntityState α) (ci : ClientInfo α)
    (neutral : Bool) (hclient : ci.clientNum < maxClients) :
    let timer := (s.entry ⟨⟨ci.clientNum, hclient⟩, frame.role⟩).stance
    ∃ plain, buildTarget { frame with compat := .legacy } host s es ci neutral = .ok plain ∧
      (Scalar.holds α (timer.finish - frame.time) →
        ∃ full, buildTarget { frame with compat := .enhanced } host s es ci neutral = .ok full) ∧
      ∀ full, buildTarget { frame with compat := .enhanced } host s es ci neutral = .ok full →
        Targets frame.role frame.time host timer es ci neutral plain.target full.target := by
  intro timer
  cases hrests : Target.rests frame.role es neutral with
  | true =>
      have hbuild (compat : Compat) : ∃ edits, ∀ ci,
          buildTarget { frame with compat } host s es ci neutral = .ok ⟨.zero, s, edits⟩ :=
        buildTarget_resting hrests
      obtain ⟨edits, hplain⟩ := hbuild .legacy
      obtain ⟨edits', hfull⟩ := hbuild .enhanced
      refine ⟨_, hplain ci, fun _ => ⟨_, hfull ci⟩, fun full h => ?_⟩
      obtain rfl := Except.ok.inj ((hfull ci).symm.trans h)
      exact .resting hrests
  | false =>
      have hkey : PlayerKey.of ci.clientNum frame.role = .ok ⟨⟨ci.clientNum, hclient⟩, frame.role⟩ :=
        dif_pos hclient
      have hbuild : buildTarget { frame with compat := .enhanced } host s es ci neutral = _ :=
        buildTarget_enhanced rfl hrests hkey
      refine ⟨_, buildTarget_plain rfl neutral, fun hholds => ?_, fun full h => ?_⟩
      · obtain ⟨progress, hp⟩ := StanceTimer.progress_exists hholds
        exact ⟨_, hbuild.trans (by rw [hp]; rfl)⟩
      · rw [hbuild] at h
        obtain ⟨progress, hp, rfl⟩ := map_eq_ok.mp h
        rw [Target.plain_built hrests]
        exact .built hrests hp

theorem holds_fresh (key : PlayerKey) {time : Int} (h : Scalar.holds α (-time)) :
    Scalar.holds α (((Store.fresh : Store α).entry key).stance.finish - time) := by
  rw [Store.entry_fresh]
  change Scalar.holds α (0 - time)
  rwa [zero_sub]

theorem buildTarget_fresh (frame : Frame) (host : Host α) (es : EntityState α) (ci : ClientInfo α) (neutral : Bool)
    (hclient : ci.clientNum < maxClients) (h : Scalar.holds α (-frame.time)) :
    ∃ built, buildTarget frame host .fresh es ci neutral = .ok built := by
  obtain ⟨plain, hplain, hexists, -⟩ := targets_built frame host .fresh es ci neutral hclient
  obtain ⟨role, compat, time, frameTime⟩ := frame
  cases compat with
  | legacy => exact ⟨plain, hplain⟩
  | enhanced => exact hexists (holds_fresh _ h)

end Build

def MoveTypes.climbs (moveTypes : MoveTypes) : Bool := moveTypes.contains climbUp || moveTypes.contains climbDown

def Controllers.withNeck (p : Controllers α) (neck : Option (Vec3 α)) : Controllers α :=
  { p with neck := neck.getD p.neck }

namespace Enhanced

section Ladder

variable (ci : ClientInfo α) {moveTypes : MoveTypes}

def climbingNeck (ci : ClientInfo α) (moveTypes : MoveTypes) : Option (Vec3 α) :=
  if moveTypes.contains MoveTypes.climbUp then some (lookDown ci (ladderNeck ci 30))
  else if moveTypes.contains MoveTypes.climbDown then some (ladderNeck ci (-30))
  else none

theorem climbingNeck_off (h : moveTypes.climbs = false) : climbingNeck ci moveTypes = none := by
  rw [MoveTypes.climbs, Bool.or_eq_false_iff] at h
  rw [climbingNeck, h.1, h.2]
  rfl

theorem ladder_pose (moveTypes : MoveTypes) (e : Enhanced α) :
    (ladder ci moveTypes e).pose = e.pose.withNeck (climbingNeck ci moveTypes) := by
  rw [ladder, climbingNeck]
  split_ifs <;> rfl

end Ladder

section Slots

variable (p : Controllers α)

theorem upright_above (es : EntityState α) (l : Locomotion) (yaw lean : α) :
    (upright es l yaw lean p).pose.head = p.head ∧ (upright es l yaw lean p).pose.neck = p.neck := by
  rw [upright]
  split_ifs <;> exact ⟨rfl, rfl⟩

theorem prone_above (l : Locomotion) (lean yaw : α) (torso : Option (Animation α)) :
    (prone l lean yaw torso p).pose.head = p.head ∧ (prone l lean yaw torso p).pose.neck = p.neck ∧
      (prone l lean yaw torso p).pose.backMid = (flatten l (flatness lean) p).backMid := by
  rw [prone]
  dsimp only
  split_ifs
  · cases torso with
    | none => exact ⟨rfl, rfl, rfl⟩
    | some a =>
        dsimp only
        split_ifs <;> exact ⟨rfl, rfl, rfl⟩
  all_goals exact ⟨rfl, rfl, rfl⟩

theorem inTransition_above (transition : StanceTransition) (progress : α) :
    (inTransition transition progress p).head = p.head ∧ (inTransition transition progress p).neck = p.neck ∧
      (inTransition transition progress p).backMid = p.backMid := by
  unfold inTransition
  split
  · exact ⟨rfl, rfl, rfl⟩
  · cases transition <;> exact ⟨rfl, rfl, rfl⟩

theorem of_head (host : Host α) (es : EntityState α) (ci : ClientInfo α) : (of host es ci p).pose.head = p.head := by
  rw [of, ladder_pose, Controllers.withNeck]
  split
  · exact (prone_above p _ _ _ _).1
  · exact (upright_above p _ _ _ _).1

theorem of_neck (host : Host α) (es : EntityState α) (ci : ClientInfo α) (h : (host.moveTypes ci).climbs = false) :
    (of host es ci p).pose.neck = p.neck := by
  -- Without a neck from the ladder the pose keeps its own, which neither kind of stance touches.
  rw [of, ladder_pose, climbingNeck_off ci h]
  change (ite _ _ _ : Enhanced α).pose.neck = p.neck
  split
  · exact (prone_above p _ _ _ _).2.1
  · exact (upright_above p _ _ _ _).2

theorem upright_plain (es : EntityState α) {l : Locomotion} {lean : α} (h : (lean < 0 && l.isMoving) = false)
    (yaw : α) : (upright es l yaw lean p).pose = straighten p := by
  have hinto : leansIntoMove l lean yaw = false := by rw [leansIntoMove, h]; rfl
  have hbend : (es.isCrouching && lean < 0 && l.isMoving) = false := by rw [Bool.and_assoc, h, Bool.and_false]
  rw [upright, hinto, if_neg Bool.false_ne_true, if_neg Bool.false_ne_true, hbend]
  rfl

theorem of_upright {host : Host α} {es : EntityState α} {ci : ClientInfo α} (hprone : es.isProne = false)
    (hoff : (host.moveTypes ci).climbs = false)
    (hlean : (Angle.leanCurve ci.lean < 0 && (locomotion host es ci).isMoving) = false) :
    (of host es ci p).pose = straighten p := by
  rw [of, ladder_pose, climbingNeck_off ci hoff, hprone, if_neg Bool.false_ne_true]
  exact upright_plain p es hlean _

end Slots

theorem inTransition_away {timer : StanceTimer} {time : Int} {progress : Float32}
    (hheld : Scalar.holds Float32 timer.duration) (hp : timer.progress time = .ok progress)
    (haway : ¬ timer.lowers time) (p : Controllers Float32) :
    inTransition timer.transition progress p = p := by
  -- The pose shows a transition only if its rounded progress lies strictly between 0 and 1.
  unfold inTransition
  split
  · rfl
  · next hshows =>
      rw [scalar_zero, scalar_one] at hshows
      have hbetween : timer.finish - timer.duration < time ∧ time < timer.finish := by
        by_contra hout
        exact hshows (timer.progress_away hheld (by omega) hp)
      split
      · next hdrops => exact absurd ⟨Or.inl hdrops, hbetween⟩ haway
      · next hrises => exact absurd ⟨Or.inr hrises, hbetween⟩ haway
      · rfl

end Enhanced

/-- The enhanced target has the head of the plain one and, off a ladder, its neck. If the player neither lies
prone nor climbs nor leans left in a move, and no transition to or from prone is under way, only the lower back
differs. -/
theorem enhanced_refines_plain (frame : Frame) (host : Host Float32) (s : Store Float32) (es : EntityState Float32)
    (ci : ClientInfo Float32) (neutral : Bool) (hclient : ci.clientNum < maxClients) :
    let timer := (s.entry ⟨⟨ci.clientNum, hclient⟩, frame.role⟩).stance
    ∃ plain, buildTarget { frame with compat := .legacy } host s es ci neutral = .ok plain ∧
      (Scalar.holds Float32 (timer.finish - frame.time) →
        ∃ full, buildTarget { frame with compat := .enhanced } host s es ci neutral = .ok full) ∧
      ∀ full, buildTarget { frame with compat := .enhanced } host s es ci neutral = .ok full →
        full.target.head = plain.target.head ∧
          if Target.rests frame.role es neutral then plain.target = .zero ∧ full.target = .zero
          else
            ((host.moveTypes ci).climbs = false → full.target.neck = plain.target.neck) ∧
              (es.isProne = false → (host.moveTypes ci).climbs = false →
                Scalar.holds Float32 timer.duration → ¬ timer.lowers frame.time →
                (Angle.leanCurve ci.lean < 0 && (Enhanced.locomotion host es ci).isMoving) = false →
                full.target = { plain.target with
                  backLow := Angle.reproject plain.target.originAngles plain.target.backLow }) := by
  intro timer
  obtain ⟨plain, hplain, hexists, htargets⟩ := targets_built frame host s es ci neutral hclient
  refine ⟨plain, hplain, hexists, fun full hfull => ?_⟩
  have h := htargets full hfull
  generalize plain.target = p, full.target = q at h ⊢
  cases h with
  | resting hrests =>
      rw [if_pos hrests]
      exact ⟨rfl, rfl, rfl⟩
  | built hrests hp =>
      obtain ⟨hhead, hneck, -⟩ := Enhanced.inTransition_above
        (Enhanced.of host es ci (Target.base es ci (host.moveTypes ci))).pose timer.transition _
      rw [hhead, hneck, if_neg (by rw [hrests]; exact Bool.false_ne_true)]
      refine ⟨Enhanced.of_head _ host es ci, Enhanced.of_neck _ host es ci, ?_⟩
      intro hprone hoff hheld haway hlean
      rw [Enhanced.inTransition_away hheld hp haway]
      exact Enhanced.of_upright _ hprone hoff hlean

section Example

def leaner : ClientInfo Float32 :=
  { ClientInfo.initial 0 with
    viewAngles := ⟨20, 100, 0⟩
    legs := ⟨.still 70, .still 0, ⟨0⟩, none, 0⟩
    torso := ⟨.still 95, .still 350, ⟨0⟩, none, 0⟩
    lean := -0.5 }

theorem enhanced_refines_plain_leaner :
    let frame : Frame := ⟨.client, .enhanced, 1000, 50⟩
    let host : Host Float32 := .ofScript #[] .idle false
    let s : Store Float32 :=
      Store.fresh.put (.first .client) { PlayerData.fresh with stance := ⟨.crouchToProne, 400, 1000⟩ }
    let es : EntityState Float32 := { EntityState.initial 0 with torsoPitch := 12 }
    ∃ plain full, buildTarget { frame with compat := .legacy } host s es leaner true = .ok plain ∧
      buildTarget { frame with compat := .enhanced } host s es leaner true = .ok full ∧
      full.target.head = plain.target.head ∧ full.target.neck = plain.target.neck ∧
      full.target = { plain.target with
        backLow := Angle.reproject plain.target.originAngles plain.target.backLow } := by
  intro frame host s es
  have htimer : (s.entry (.first .client)).stance = ⟨.crouchToProne, 400, 1000⟩ :=
    congrArg PlayerData.stance (Store.entry_put_self _ _ _)
  obtain ⟨plain, hplain, hexists, hall⟩ := enhanced_refines_plain frame host s es leaner true (by decide)
  change Scalar.holds Float32 ((s.entry (.first .client)).stance.finish - frame.time) → _ at hexists
  obtain ⟨full, hfull⟩ := hexists (by rw [htimer]; decide)
  obtain ⟨hhead, hrest⟩ := hall full hfull
  rw [if_neg (by decide)] at hrest
  obtain ⟨hneck, hupright⟩ := hrest
  refine ⟨plain, full, hplain, hfull, hhead, hneck (by decide), hupright (by decide) (by decide) ?_ ?_ (by decide)⟩
  · change Scalar.holds Float32 (s.entry (.first .client)).stance.duration
    rw [htimer]
    decide
  · change ¬ (s.entry (.first .client)).stance.lowers frame.time
    rw [htimer, StanceTimer.lowers]
    decide

end Example

end PlayerAnimation
