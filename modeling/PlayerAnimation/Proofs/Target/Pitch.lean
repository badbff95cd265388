import PlayerAnimation.Proofs.Angle.Rotation
import PlayerAnimation.Proofs.Target.Enhanced

namespace PlayerAnimation

section Neck

variable {α : Type} [Scalar α]

def Built.withNeck (built : Built α) (neck : Option (Vec3 α)) : Built α :=
  { built with target := built.target.withNeck neck }

namespace Enhanced

/-- What of the pitch of the view turns the neck on a ladder, and what of it counts as looking down. -/
def clampedPitch (pitch : α) : α × α := (Scalar.clamp (-80) 70 pitch, Scalar.clamp 0 90 pitch)

theorem ladder_eq (ci ci' : ClientInfo α) (moveTypes : MoveTypes) (e : Enhanced α) :
    ladder ci' moveTypes e =
      { ladder ci moveTypes e with
        pose := (ladder ci moveTypes e).pose.withNeck (climbingNeck ci' moveTypes) } := by
  rw [ladder, ladder, climbingNeck]
  split_ifs <;> rfl

theorem inTransition_withNeck (transition : StanceTransition) (progress : α) (p : Controllers α)
    (neck : Option (Vec3 α)) :
    inTransition transition progress (p.withNeck neck) = (inTransition transition progress p).withNeck neck := by
  unfold inTransition
  split
  · rfl
  · cases transition <;> rfl

end Enhanced

def Target.climbingNeck (frame : Frame) (host : Host α) (es : EntityState α) (ci : ClientInfo α)
    (neutral : Bool) : Option (Vec3 α) :=
  if frame.compat.isEnhanced && !rests frame.role es neutral then
    Enhanced.climbingNeck ci (host.moveTypes ci)
  else none

theorem Target.climbingNeck_resting {frame : Frame} {es : EntityState α} {neutral : Bool}
    (h : rests frame.role es neutral = true) (host : Host α) (ci : ClientInfo α) :
    climbingNeck frame host es ci neutral = none := by
  rw [climbingNeck, h, Bool.not_true, Bool.and_false, if_neg Bool.false_ne_true]

theorem Target.climbingNeck_descending {frame : Frame} {es : EntityState α} {neutral : Bool} {host : Host α}
    {ci : ClientInfo α} (henhanced : frame.compat = .enhanced) (hrests : rests frame.role es neutral = false)
    (hup : (host.moveTypes ci).contains MoveTypes.climbUp = false)
    (hdown : (host.moveTypes ci).contains MoveTypes.climbDown = true) :
    climbingNeck frame host es ci neutral = some (Enhanced.ladderNeck ci (-30)) := by
  rw [climbingNeck, hrests, Enhanced.climbingNeck, hup, hdown, henhanced]
  rfl

def ClientInfo.nodding (ci : ClientInfo α) (view torso : α) : ClientInfo α :=
  { ci with
    viewAngles := { ci.viewAngles with x := view }
    torso := { ci.torso with pitch := { ci.torso.pitch with angle := torso } } }

namespace Enhanced

variable {ci : ClientInfo α} {view : α} (torso : α)

theorem ladderNeck_nodding (h : (clampedPitch view).1 = (clampedPitch ci.viewAngles.x).1) (pitch : α) :
    ladderNeck (ci.nodding view torso) pitch = ladderNeck ci pitch := by
  have hlook : ladderLook (ci.nodding view torso) = ladderLook ci := Vec3.ext h rfl rfl
  rw [ladderNeck, hlook, ladderNeck]

theorem lookDown_nodding (h : (clampedPitch view).2 = (clampedPitch ci.viewAngles.x).2) (neck : Vec3 α) :
    lookDown (ci.nodding view torso) neck = lookDown ci neck := by
  dsimp only [clampedPitch] at h
  rw [lookDown, lookDown]
  dsimp only [ClientInfo.nodding]
  rw [h]

theorem climbingNeck_nodding (h : clampedPitch view = clampedPitch ci.viewAngles.x) (moveTypes : MoveTypes) :
    climbingNeck (ci.nodding view torso) moveTypes = climbingNeck ci moveTypes := by
  obtain ⟨hlook, hdown⟩ := Prod.ext_iff.mp h
  rw [climbingNeck, lookDown_nodding torso hdown, ladderNeck_nodding torso hlook, ladderNeck_nodding torso hlook,
    climbingNeck]

end Enhanced

end Neck

theorem Angle.reproject_pitch_inj (parent : Vec3 ℝ) {x x' y z : ℝ}
    (h : reproject parent ⟨x, y, z⟩ = reproject parent ⟨x', y, z⟩) : x = x' := by
  obtain ⟨hpitch, -, hroll⟩ := Vec3.ext_iff.mp h
  generalize hyaw : Scalar.toRadians (y - parent.y) = yaw
  simp only [reproject, hyaw] at hpitch hroll
  have hcircle : Scalar.sin yaw ^ 2 + Scalar.cos yaw ^ 2 = (1 : ℝ) := Real.sin_sq_add_cos_sq yaw
  linear_combination Scalar.cos yaw * hpitch + Scalar.sin yaw * hroll - (x - x') * hcircle

theorem Enhanced.ladderNeck_inj {ci : ClientInfo ℝ} {view torso pitch : ℝ}
    (h : ladderNeck (ci.nodding view torso) pitch = ladderNeck ci pitch) :
    (clampedPitch view).1 = (clampedPitch ci.viewAngles.x).1 :=
  add_left_cancel (Angle.reproject_pitch_inj .zero h)

section Build

variable {frame : Frame} {host : Host ℝ} {s : Store ℝ} {es : EntityState ℝ} {ci : ClientInfo ℝ}
  {neutral : Bool} {view torso : ℝ} (hv : view ≡ ci.viewAngles.x [PMOD 360])
  (ht : torso ≡ ci.torso.pitch.angle [PMOD 360])

include ht in
theorem Posture.torsoPitch_nodding (moveTypes : MoveTypes) :
    torsoPitch es (ci.nodding view torso) moveTypes ≡ torsoPitch es ci moveTypes [PMOD 360] := by
  have hwrap : Angle.wrap180 torso = Angle.wrap180 ci.torso.pitch.angle := Angle.wrap180_congr ht
  rw [torsoPitch, torsoPitch]
  dsimp only [ClientInfo.nodding]
  rw [hwrap]
  exact rel_ite (AddCommGroup.modEq_refl _) (rel_ite (AddCommGroup.modEq_refl _) ht)

include hv ht

theorem Posture.of_nodding (moveTypes : MoveTypes) : of es (ci.nodding view torso) moveTypes = of es ci moveTypes := by
  have hpitch : torsoPitch es (ci.nodding view torso) moveTypes ≡ torsoPitch es ci moveTypes [PMOD 360] :=
    torsoPitch_nodding ht moveTypes
  have horigin : originYaw es (ci.nodding view torso) = originYaw es ci := rfl
  -- Both pitches are only read through differences, which are wrapped.
  rw [of, of, horigin]
  generalize torsoPitch es (ci.nodding view torso) moveTypes = pitch' at hpitch ⊢
  generalize torsoPitch es ci moveTypes = pitch at hpitch ⊢
  have htorso (y z legs : ℝ) : Angle.diffs ⟨pitch', y, z⟩ ⟨z, legs, z⟩ = Angle.diffs ⟨pitch, y, z⟩ ⟨z, legs, z⟩ :=
    Vec3.ext (Angle.wrap180_congr (hpitch.sub_right z)) rfl rfl
  have hhead (y z : ℝ) : Angle.diffs { ci.viewAngles with x := view } ⟨pitch', y, z⟩ =
      Angle.diffs ci.viewAngles ⟨pitch, y, z⟩ :=
    Vec3.ext (Angle.wrap180_congr (hv.sub hpitch)) rfl rfl
  dsimp only [ClientInfo.nodding]
  rw [htorso, hhead]
  rfl

variable (hmoves : host.moveTypes (ci.nodding view torso) = host.moveTypes ci)
include hmoves

omit hv ht in
theorem Enhanced.of_nodding (p : Controllers ℝ) :
    of host es (ci.nodding view torso) p =
      { of host es ci p with
        pose := (of host es ci p).pose.withNeck (climbingNeck (ci.nodding view torso) (host.moveTypes ci)) } := by
  -- Nothing but the ladder reads the pitch.
  rw [of, hmoves, ladder_eq ci, of, locomotion, locomotion, hmoves]
  rfl

theorem buildTarget_nodding :
    buildTarget frame host s es (ci.nodding view torso) neutral =
      (buildTarget frame host s es ci neutral).map
        (·.withNeck (Target.climbingNeck frame host es (ci.nodding view torso) neutral)) := by
  have hbase : Target.base es (ci.nodding view torso) (host.moveTypes ci) = Target.base es ci (host.moveTypes ci) := by
    rw [Target.base, Target.base, Posture.of_nodding hv ht]
  cases hrests : Target.rests frame.role es neutral with
  | true =>
      obtain ⟨edits, hbuild⟩ := buildTarget_resting hrests
      rw [hbuild, hbuild, Target.climbingNeck_resting hrests]
      rfl
  | false =>
      rw [Target.climbingNeck, hrests, hmoves]
      rw [Target.rests, Bool.or_eq_false_iff] at hrests
      rw [buildTarget, buildTarget, hrests.1, hrests.2, hmoves, hbase]
      cases frame.compat with
      | legacy => rfl
      | enhanced =>
          dsimp only [Compat.isEnhanced]
          rw [Enhanced.of_nodding hmoves]
          have hnum : (ci.nodding view torso).clientNum = ci.clientNum := rfl
          rw [hnum]
          cases PlayerKey.of ci.clientNum frame.role with
          | error e => rfl
          | ok key =>
              simp only [bind, Except.bind, if_neg Bool.false_ne_true]
              cases ((s.entry key).stance.progress frame.time : Except Fault ℝ) with
              | error e => rfl
              | ok progress =>
                  dsimp only
                  rw [Enhanced.inTransition_withNeck]
                  rfl

end Build

theorem buildTarget_withNeck (frame : Frame) (host : Host ℝ) (s : Store ℝ) (es : EntityState ℝ)
    (ci : ClientInfo ℝ) (neutral : Bool) :
    buildTarget frame host s es ci neutral =
      (buildTarget frame host s es ci neutral).map (·.withNeck (Target.climbingNeck frame host es ci neutral)) :=
  buildTarget_nodding (AddCommGroup.modEq_refl ci.viewAngles.x) (AddCommGroup.modEq_refl ci.torso.pitch.angle) rfl

section Same

variable {frame : Frame} {host : Host ℝ} {s : Store ℝ} {es : EntityState ℝ} {ci : ClientInfo ℝ}
  {neutral : Bool} {view torso : ℝ} (hv : view ≡ ci.viewAngles.x [PMOD 360])
  (ht : torso ≡ ci.torso.pitch.angle [PMOD 360])
  (hmoves : host.moveTypes (ci.nodding view torso) = host.moveTypes ci)
include hmoves

theorem Target.climbingNeck_nodding
    (h : frame.compat = .legacy ∨ rests frame.role es neutral = true ∨ (host.moveTypes ci).climbs = false ∨
      Enhanced.clampedPitch view = Enhanced.clampedPitch ci.viewAngles.x) :
    climbingNeck frame host es (ci.nodding view torso) neutral = climbingNeck frame host es ci neutral := by
  rw [climbingNeck, climbingNeck, hmoves]
  obtain hlegacy | hrests | hoff | hclamped := h
  · rw [hlegacy]
    rfl
  · rw [hrests, Bool.not_true, Bool.and_false]
    rfl
  · rw [Enhanced.climbingNeck_off _ hoff, Enhanced.climbingNeck_off _ hoff]
  · rw [Enhanced.climbingNeck_nodding torso hclamped]

include hv ht

theorem buildTarget_nodding_eq
    (h : frame.compat = .legacy ∨ Target.rests frame.role es neutral = true ∨ (host.moveTypes ci).climbs = false ∨
      Enhanced.clampedPitch view = Enhanced.clampedPitch ci.viewAngles.x) :
    buildTarget frame host s es (ci.nodding view torso) neutral = buildTarget frame host s es ci neutral := by
  rw [buildTarget_nodding hv ht hmoves, Target.climbingNeck_nodding hmoves h, ← buildTarget_withNeck]

theorem buildTarget_descending {built : Built ℝ} (henhanced : frame.compat = .enhanced)
    (hrests : Target.rests frame.role es neutral = false)
    (hup : (host.moveTypes ci).contains MoveTypes.climbUp = false)
    (hdown : (host.moveTypes ci).contains MoveTypes.climbDown = true)
    (hbuilt : buildTarget frame host s es ci neutral = .ok built) :
    buildTarget frame host s es (ci.nodding view torso) neutral = .ok built ↔
      (Enhanced.clampedPitch view).1 = (Enhanced.clampedPitch ci.viewAngles.x).1 := by
  have hneck := Target.climbingNeck_descending henhanced hrests hup hdown
  have hneck' : Target.climbingNeck frame host es (ci.nodding view torso) neutral = _ :=
    Target.climbingNeck_descending henhanced hrests (hmoves ▸ hup) (hmoves ▸ hdown)
  have hself := buildTarget_withNeck frame host s es ci neutral
  rw [hbuilt, hneck] at hself
  rw [buildTarget_nodding hv ht hmoves, hbuilt, hneck']
  constructor
  · intro h
    have hsame := (Except.ok.inj h).trans (Except.ok.inj hself)
    exact Enhanced.ladderNeck_inj (congrArg (·.target.neck) hsame)
  · intro h
    rw [Enhanced.ladderNeck_nodding torso h]
    exact hself.symm

/-- A pitch that is given as another angle, whole turns away, changes at most the neck of the target, and that
only on a ladder. On the way down it does so exactly if the two are clamped to different pitches. -/
theorem pitch_invariance (frame : Frame) (s : Store ℝ) (es : EntityState ℝ) (neutral : Bool) :
    let target := buildTarget frame host s es ci neutral
    let other := buildTarget frame host s es (ci.nodding view torso) neutral
    other = target.map
        (·.withNeck (Target.climbingNeck frame host es (ci.nodding view torso) neutral)) ∧
      (frame.compat = .legacy ∨ Target.rests frame.role es neutral = true ∨
        (host.moveTypes ci).climbs = false ∨
        Enhanced.clampedPitch view = Enhanced.clampedPitch ci.viewAngles.x → other = target) ∧
      ∀ built, target = .ok built → frame.compat = .enhanced → Target.rests frame.role es neutral = false →
        (host.moveTypes ci).contains MoveTypes.climbUp = false →
        (host.moveTypes ci).contains MoveTypes.climbDown = true →
        (other = .ok built ↔ (Enhanced.clampedPitch view).1 = (Enhanced.clampedPitch ci.viewAngles.x).1) := by
  intro target other
  refine ⟨buildTarget_nodding hv ht hmoves, buildTarget_nodding_eq hv ht hmoves, ?_⟩
  intro built hbuilt henhanced hrests hup hdown
  exact buildTarget_descending hv ht hmoves henhanced hrests hup hdown hbuilt

end Same

section Example

noncomputable def climber (view torso : ℝ) : ClientInfo ℝ := (ClientInfo.initial 0).nodding view torso

noncomputable def ladderHost (moveTypes : MoveTypes) : Host ℝ := .ofScript #[] moveTypes false

noncomputable def ladderTarget (moveTypes : MoveTypes) (view torso : ℝ) : Except Fault (Built ℝ) :=
  buildTarget ⟨.client, .enhanced, 1000, 50⟩ (ladderHost moveTypes) .fresh (.initial 0) (climber view torso) false

theorem ladderTarget_exists (moveTypes : MoveTypes) (view torso : ℝ) :
    ∃ built, ladderTarget moveTypes view torso = .ok built := by
  apply buildTarget_fresh
  · exact Nat.succ_pos 63
  · rw [WordClock.holds_iff]
    decide

theorem pitch_invariance_climber :
    ∃ built, ladderTarget .climbUp 90 (-10) = .ok built ∧ ladderTarget .climbUp 450 350 = .ok built := by
  have hview : 450 ≡ (climber 90 (-10)).viewAngles.x [PMOD 360] :=
    AddCommGroup.modEq_iff_zsmul.mpr ⟨-1, by simp only [climber, ClientInfo.nodding]; norm_num⟩
  have htorso : 350 ≡ (climber 90 (-10)).torso.pitch.angle [PMOD 360] :=
    AddCommGroup.modEq_iff_zsmul.mpr ⟨-1, by simp only [climber, ClientInfo.nodding]; norm_num⟩
  have hmoves : (ladderHost .climbUp).moveTypes ((climber 90 (-10)).nodding 450 350) =
      (ladderHost .climbUp).moveTypes (climber 90 (-10)) := rfl
  have hclamped : Enhanced.clampedPitch (450 : ℝ) = Enhanced.clampedPitch (climber 90 (-10)).viewAngles.x := by
    simp only [Enhanced.clampedPitch, Scalar.clamp, climber, ClientInfo.nodding, Exact.ofNat_eq, Exact.zero_eq]
    norm_num
  obtain ⟨built, hbuilt⟩ := ladderTarget_exists .climbUp 90 (-10)
  obtain ⟨-, hsame, -⟩ := pitch_invariance hview htorso hmoves ⟨.client, .enhanced, 1000, 50⟩ .fresh (.initial 0) false
  exact ⟨built, hbuilt, (hsame (.inr (.inr (.inr hclamped)))).trans hbuilt⟩

/-- Climbing down and looking up by ten degrees is not the same a whole turn further. -/
theorem descending_neck_turns :
    (350 : ℝ) ≡ -10 [PMOD 360] ∧ ladderTarget .climbDown 350 0 ≠ ladderTarget .climbDown (-10) 0 := by
  have hmod : (350 : ℝ) ≡ -10 [PMOD 360] := AddCommGroup.modEq_iff_zsmul.mpr ⟨-1, by norm_num⟩
  refine ⟨hmod, fun h => ?_⟩
  obtain ⟨built, hbuilt⟩ := ladderTarget_exists .climbDown (-10) 0
  have hfree : Target.rests .client (EntityState.initial 0 : EntityState ℝ) false = false := by
    rw [Target.rests, EntityState.onMountedGun, EntityState.initial]
    decide
  have hup : MoveTypes.climbDown.contains MoveTypes.climbUp = false := by decide
  have hdown : MoveTypes.climbDown.contains MoveTypes.climbDown = true := by decide
  have hclamped : (Enhanced.clampedPitch (350 : ℝ)).1 = (Enhanced.clampedPitch (-10)).1 :=
    (buildTarget_descending hmod (AddCommGroup.modEq_refl 0) rfl rfl hfree hup hdown hbuilt).mp (h.trans hbuilt)
  simp only [Enhanced.clampedPitch, Scalar.clamp, Exact.ofNat_eq] at hclamped
  norm_num at hclamped

end Example

end PlayerAnimation
