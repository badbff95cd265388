import PlayerAnimation.Blend
import PlayerAnimation.Facing
import PlayerAnimation.Proofs.Angle.Rotation
import PlayerAnimation.Proofs.Blend.Writing

namespace PlayerAnimation

variable {δ : ℝ}

structure LerpFrame.Turned (δ : ℝ) (lf lf' : LerpFrame ℝ) : Prop where
  yaw : SwingAngle.Turned δ lf.yaw lf'.yaw
  rest : lf' = { lf with yaw := lf'.yaw }

/-- A player as another one is, but turned by `δ`. -/
structure ClientInfo.Turned (δ : ℝ) (ci ci' : ClientInfo ℝ) : Prop where
  view : Angle.Turned δ ci.viewAngles.y ci'.viewAngles.y
  legs : LerpFrame.Turned δ ci.legs ci'.legs
  torso : LerpFrame.Turned δ ci.torso ci'.torso
  rest : ci' =
    { ci with viewAngles := { ci.viewAngles with y := ci'.viewAngles.y }, legs := ci'.legs, torso := ci'.torso }

namespace Facing

variable {view : ℝ} {f : Facing ℝ} {yaw yaw' : SwingAngle ℝ} {lf lf' : LerpFrame ℝ}

def towards (f : Facing ℝ) (view : ℝ) : Facing ℝ := { f with viewYaw := view }

variable (hv : Angle.Turned δ f.viewYaw view)

include hv

theorem torsoGoal_turned :
    Angle.Turned δ f.torsoGoal.1 (f.towards view).torsoGoal.1 ∧
      (f.towards view).torsoGoal.2 = f.torsoGoal.2 := by
  let R (goal goal' : ℝ × ℝ) : Prop := Angle.Turned δ goal.1 goal'.1 ∧ goal'.2 = goal.2
  have hview (limit : ℝ) : R (f.viewYaw, limit) (view, limit) := ⟨hv, rfl⟩
  have hdir (limit : ℝ) : R (f.viewYaw + f.legsDir, limit) (view + f.legsDir, limit) := ⟨hv.add _, rfl⟩
  have hshare (limit : ℝ) : R (f.legsDir * movementShare + f.viewYaw, limit)
      (f.legsDir * movementShare + view, limit) := by
    rw [add_comm, add_comm _ view]
    exact ⟨hv.add _, rfl⟩
  change R f.torsoGoal (f.towards view).torsoGoal
  rw [torsoGoal, torsoGoal]
  apply rel_ite (hview _)
  apply rel_ite (hdir _)
  apply rel_ite (hview _)
  apply rel_ite (hview _)
  apply rel_ite (hview _)
  exact rel_ite (hview _) (hshare _)

theorem legsGoal_turned : Angle.Turned δ f.legsGoal (f.towards view).legsGoal :=
  rel_ite hv (hv.add _)

theorem forced_turned (h : SwingAngle.Turned δ yaw yaw') :
    SwingAngle.Turned δ (f.forced yaw) ((f.towards view).forced yaw') := by
  rw [forced, forced]
  apply rel_ite
  · exact ⟨hv, h.swinging⟩
  apply rel_ite
  · exact ⟨hv.add _, h.swinging⟩
  · exact h

theorem legsYaw_turned (h : SwingAngle.Turned δ yaw yaw') :
    SwingAngle.Turned δ (f.legsYaw yaw) ((f.towards view).legsYaw yaw') := by
  have hprone : Angle.Turned δ (if f.enhanced then f.viewYaw else f.legsGoal)
      (if f.enhanced then view else (f.towards view).legsGoal) := rel_ite hv (legsGoal_turned hv)
  rw [legsYaw, legsYaw, h.swinging]
  apply rel_ite
  · exact .still hv
  apply rel_ite
  · exact (SwingAngle.Turned.still hprone).swing hprone _ _ _ _
  apply rel_ite
  · exact (SwingAngle.Turned.still h.angle).swing hv _ _ _ _
  · exact h.swing (legsGoal_turned hv) _ _ _ _

theorem torso_turned (h : LerpFrame.Turned δ lf lf') :
    LerpFrame.Turned δ (f.torso lf) ((f.towards view).torso lf') := by
  obtain ⟨hyaw, hrest⟩ := h
  generalize lf'.yaw = yaw' at hyaw hrest
  subst hrest
  obtain ⟨hgoal, hlimit⟩ := torsoGoal_turned hv
  refine ⟨forced_turned hv ?_, rfl⟩
  rw [hlimit]
  exact (hyaw.wake _).swing hgoal _ _ _ _

theorem legs_turned (h : LerpFrame.Turned δ lf lf') :
    LerpFrame.Turned δ (f.legs lf) ((f.towards view).legs lf') := by
  obtain ⟨hyaw, hrest⟩ := h
  generalize lf'.yaw = yaw' at hyaw hrest
  subst hrest
  exact ⟨forced_turned hv (legsYaw_turned hv (hyaw.wake _)), rfl⟩

end Facing

variable {host : Host ℝ} {ci ci' : ClientInfo ℝ}

theorem facePlayer_turned (frame : Frame) (es : EntityState ℝ) (swingSpeed : ℝ)
    (h : ClientInfo.Turned δ ci ci') (hmoves : host.moveTypes ci' = host.moveTypes ci)
    (hfires : host.isFiring ci' = host.isFiring ci) :
    ClientInfo.Turned δ (facePlayer frame host es ci swingSpeed)
      (facePlayer frame host es ci' swingSpeed) := by
  have hof : Facing.of frame host es ci' swingSpeed =
      (Facing.of frame host es ci swingSpeed).towards (Angle.wrap360 ci'.viewAngles.y) := by
    rw [Facing.of, hmoves, hfires, h.rest]
    rfl
  have hv : Angle.Turned δ (Facing.of frame host es ci swingSpeed).viewYaw
      (Angle.wrap360 ci'.viewAngles.y) := h.view.wrap360
  rw [facePlayer, facePlayer, hof]
  refine ⟨h.view, Facing.legs_turned hv h.legs, Facing.torso_turned hv h.torso, ?_⟩
  dsimp only
  rw [h.rest]

namespace ClientInfo

def facing (ci : ClientInfo ℝ) (view legs torso : ℝ) : ClientInfo ℝ :=
  { ci with
    viewAngles := { ci.viewAngles with y := view }
    legs := { ci.legs with yaw := { ci.legs.yaw with angle := legs } }
    torso := { ci.torso with yaw := { ci.torso.yaw with angle := torso } } }

theorem Turned.eq_facing (h : Turned δ ci ci') :
    ci' = ci.facing ci'.viewAngles.y ci'.legs.yaw.angle ci'.torso.yaw.angle := by
  have hlegs : ci'.legs.yaw = { ci.legs.yaw with angle := ci'.legs.yaw.angle } :=
    SwingAngle.ext rfl h.legs.yaw.swinging
  have htorso : ci'.torso.yaw = { ci.torso.yaw with angle := ci'.torso.yaw.angle } :=
    SwingAngle.ext rfl h.torso.yaw.swinging
  rw [facing, ← hlegs, ← htorso, ← h.legs.rest, ← h.torso.rest]
  exact h.rest

end ClientInfo

section Pose

variable {view legs torso : ℝ} (hv : Angle.Turned δ ci.viewAngles.y view)
  (hl : Angle.Turned δ ci.legs.yaw.angle legs) (ht : Angle.Turned δ ci.torso.yaw.angle torso)

include hv hl ht

theorem Posture.of_facing {es : EntityState ℝ} (moveTypes : MoveTypes) (hlives : es.isDead = false) :
    of es (ci.facing view legs torso) moveTypes = of es ci moveTypes := by
  have htorso (x z : ℝ) : Angle.diffs ⟨x, torso, z⟩ ⟨z, legs, z⟩ =
      Angle.diffs ⟨x, ci.torso.yaw.angle, z⟩ ⟨z, ci.legs.yaw.angle, z⟩ :=
    Vec3.ext rfl (ht.diff_eq hl) rfl
  have hhead (x z : ℝ) : Angle.diffs { ci.viewAngles with y := view } ⟨x, torso, z⟩ =
      Angle.diffs ci.viewAngles ⟨x, ci.torso.yaw.angle, z⟩ :=
    Vec3.ext rfl (hv.diff_eq ht) rfl
  have horigin : originYaw es (ci.facing view legs torso) = originYaw es ci := by
    rw [originYaw, originYaw, hlives]
    exact hl.diff_eq hv
  have hpitch : torsoPitch es (ci.facing view legs torso) moveTypes = torsoPitch es ci moveTypes := rfl
  rw [of, of, horigin, hpitch]
  dsimp only [ClientInfo.facing]
  rw [htorso, hhead]
  rfl

omit hl in
theorem Enhanced.ladder_facing (moveTypes : MoveTypes) (e : Enhanced ℝ) :
    ladder (ci.facing view legs torso) moveTypes e = ladder ci moveTypes e := by
  have hlook : ladderLook (ci.facing view legs torso) = ladderLook ci := Vec3.ext rfl (hv.diff_eq ht) rfl
  have hneck (pitch : ℝ) : ladderNeck (ci.facing view legs torso) pitch = ladderNeck ci pitch := by
    rw [ladderNeck, hlook, ladderNeck]
  rw [ladder, hneck, hneck, ladder]
  rfl

variable (hmoves : host.moveTypes (ci.facing view legs torso) = host.moveTypes ci)

include hmoves

omit hl in
theorem Enhanced.of_facing (es : EntityState ℝ) (p : Controllers ℝ) :
    of host es (ci.facing view legs torso) p = of host es ci p := by
  rw [of, of, ladder_facing hv ht, locomotion, locomotion, hmoves]
  rfl

theorem buildTarget_facing (frame : Frame) (store : Store ℝ) {es : EntityState ℝ} (neutral : Bool)
    (hlives : es.isDead = false) :
    buildTarget frame host store es (ci.facing view legs torso) neutral =
      buildTarget frame host store es ci neutral := by
  have hbase : Target.base es (ci.facing view legs torso) (host.moveTypes ci) =
      Target.base es ci (host.moveTypes ci) := by
    rw [Target.base, Target.base, Posture.of_facing hv hl ht _ hlives]
  rw [buildTarget, buildTarget, hmoves, hbase]
  dsimp only
  rw [Enhanced.of_facing hv ht hmoves]
  rfl

theorem poseController_facing (frame : Frame) (store : Store ℝ) {es : EntityState ℝ} (tuning : Tuning ℝ)
    (hlives : es.isDead = false) :
    poseController frame host store es (ci.facing view legs torso) tuning =
      (poseController frame host store es ci tuning).map fun posed =>
        { posed with client := { ci.facing view legs torso with control := posed.client.control } } := by
  rw [poseController_eq, poseController_eq, buildTarget_facing hv hl ht hmoves _ _ _ hlives]
  simp only [bind, Except.bind]
  cases buildTarget frame host store es ci tuning.neutral with
  | error e => rfl
  | ok built =>
      cases frame.compat.isEnhanced with
      | false => rfl
      | true =>
          have hnum : (ci.facing view legs torso).clientNum = ci.clientNum := rfl
          have hcontrol : (ci.facing view legs torso).control = ci.control := rfl
          simp only [if_true, hnum, hcontrol]
          cases PlayerKey.of ci.clientNum frame.role with
          | error e => rfl
          | ok key =>
              dsimp only
              cases Blend.begin (built.store.entry key) frame.time ci.control with
              | error e => rfl
              | ok begun =>
                  dsimp only
                  cases Blend.progress? begun.1 frame.time with
                  | error e => rfl
                  | ok progress => rfl

end Pose

/-- If a player is turned, torso and legs turn with the view, and as long as the player lives, target and
pose, all that is recorded and all that the game is told stay the same. -/
theorem rotation_invariance (frame : Frame) (es : EntityState ℝ) (swingSpeed : ℝ)
    (h : ClientInfo.Turned δ ci ci') (hmoves : host.moveTypes ci' = host.moveTypes ci)
    (hfires : host.isFiring ci' = host.isFiring ci) :
    ClientInfo.Turned δ (facePlayer frame host es ci swingSpeed)
        (facePlayer frame host es ci' swingSpeed) ∧
      (es.isDead = false →
        (∀ store neutral, buildTarget frame host store es ci' neutral =
          buildTarget frame host store es ci neutral) ∧
        ∀ store tuning, poseController frame host store es ci' tuning =
          (poseController frame host store es ci tuning).map fun posed =>
            { posed with client := { ci' with control := posed.client.control } }) := by
  refine ⟨facePlayer_turned frame es swingSpeed h hmoves hfires, fun hlives => ?_⟩
  have hv := h.view
  have hl := h.legs.yaw.angle
  have ht := h.torso.yaw.angle
  have hrest := h.eq_facing
  generalize ci'.viewAngles.y = view, ci'.legs.yaw.angle = legs, ci'.torso.yaw.angle = torso at *
  subst hrest
  exact ⟨fun store neutral => buildTarget_facing hv hl ht hmoves frame store neutral hlives,
    fun store tuning => poseController_facing hv hl ht hmoves frame store tuning hlives⟩

section Example

noncomputable def runner (view legs torso : ℝ) : ClientInfo ℝ :=
  (ClientInfo.initial 0).facing view legs torso

theorem runner_turned : ClientInfo.Turned 20 (runner 350 355 340) (runner 10 15 720) := by
  have hview : Angle.Turned 20 350 10 := AddCommGroup.modEq_iff_zsmul.mpr ⟨1, by norm_num⟩
  have hlegs : Angle.Turned 20 355 15 := AddCommGroup.modEq_iff_zsmul.mpr ⟨1, by norm_num⟩
  have htorso : Angle.Turned 20 340 720 := AddCommGroup.modEq_iff_zsmul.mpr ⟨-1, by norm_num⟩
  exact ⟨hview, ⟨⟨hlegs, rfl⟩, rfl⟩, ⟨⟨htorso, rfl⟩, rfl⟩, rfl⟩

theorem rotation_invariance_runner :
    let frame : Frame := ⟨.server, .enhanced, 1000, 50⟩
    let host : Host ℝ := .ofScript #[] MoveTypes.run false
    let es : EntityState ℝ := .initial 0
    ClientInfo.Turned 20 (facePlayer frame host es (runner 350 355 340) 1)
        (facePlayer frame host es (runner 10 15 720) 1) ∧
      buildTarget frame host .fresh es (runner 10 15 720) false =
        buildTarget frame host .fresh es (runner 350 355 340) false ∧
      poseController frame host .fresh es (runner 10 15 720) ⟨false, none⟩ =
        (poseController frame host .fresh es (runner 350 355 340) ⟨false, none⟩).map fun posed =>
          { posed with client := { runner 10 15 720 with control := posed.client.control } } := by
  intro frame host es
  have hlives : (EntityState.initial 0 : EntityState ℝ).isDead = false := by
    rw [EntityState.isDead, EntityState.initial]
    decide
  obtain ⟨hfacing, hpose⟩ := rotation_invariance frame es 1 runner_turned
    (Eq.refl (host.moveTypes _)) (Eq.refl (host.isFiring _))
  obtain ⟨htarget, hposed⟩ := hpose hlives
  exact ⟨hfacing, htarget .fresh false, hposed .fresh ⟨false, none⟩⟩

end Example

end PlayerAnimation
