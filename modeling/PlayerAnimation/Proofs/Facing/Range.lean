import PlayerAnimation.Proofs.Facing

namespace PlayerAnimation

namespace Angle

def IsWrapped {α : Type} [Scalar α] (x : α) : Prop := 0 ≤ x ∧ x < 360

def IsNear {α : Type} [Scalar α] (x : α) : Prop := -90 ≤ x ∧ x < 450

theorem isWrapped_iff {x : ℝ} : IsWrapped x ↔ 0 ≤ x ∧ x < 360 := by
  rw [IsWrapped, Exact.zero_eq, Exact.ofNat_eq]

theorem isNear_iff {x : ℝ} : IsNear x ↔ -90 ≤ x ∧ x < 450 := by
  rw [IsNear, Exact.ofNat_eq, Exact.ofNat_eq]

theorem IsWrapped.near {x : ℝ} (h : IsWrapped x) : IsNear x := by
  rw [isWrapped_iff] at h
  rw [isNear_iff]
  constructor <;> linarith

theorem isWrapped_wrap360 (x : ℝ) : IsWrapped (wrap360 x) := isWrapped_iff.mpr (wrap360_mem x)

theorem IsWrapped.wrap360_eq {x : ℝ} (h : IsWrapped x) : wrap360 x = x := by
  obtain ⟨hlow, hhigh⟩ := isWrapped_iff.mp h
  exact wrap360_of_mem AddCommGroup.modEq_rfl hlow hhigh

end Angle

namespace SwingAngle

open Angle

variable {P : ℝ → Prop} (hP : ∀ x, IsWrapped x → P x)

theorem move_wrapped (s : SwingAngle ℝ) (destination tolerance speed duration : ℝ) :
    IsWrapped (s.move destination tolerance speed duration).angle := by
  rw [move]
  dsimp only
  split_ifs <;> exact isWrapped_wrap360 _

theorem hold_wrapped {angle : ℝ} (h : IsWrapped angle) (destination limit : ℝ) :
    IsWrapped (hold angle destination limit) := by
  rw [hold]
  split
  · exact isWrapped_wrap360 _
  split
  · exact isWrapped_wrap360 _
  · exact h

include hP in
theorem swing_keeps {s : SwingAngle ℝ} (h : P s.angle) (destination tolerance limit speed duration : ℝ) :
    P (s.swing destination tolerance limit speed duration).angle := by
  rw [swing]
  split
  · exact hP _ (hold_wrapped (s.move_wrapped _ _ _ _) _ _)
  · exact h

end SwingAngle

namespace Facing

open Angle

def putsLegs {α : Type} [Scalar α] (f : Facing α) : Bool :=
  !f.es.onMountedGun && (f.climbing || !f.es.isDead && f.es.isProne && !f.enhanced && !f.es.isMantling)

/-- Whether the direction into which the legs are put is not wrapped. -/
def Oversteps {α : Type} [Scalar α] (f : Facing α) : Prop :=
  f.putsLegs = true ∧ ¬ IsWrapped (f.viewYaw + f.legsDir)

theorem putsLegs_off {f : Facing ℝ} (hgun : f.es.onMountedGun = false) (hclimbing : f.climbing = false) :
    f.putsLegs = ((f.es.isDead || f.es.isProne) && !(f.es.isDead || f.enhanced || f.es.isMantling)) := by
  rw [putsLegs, hgun, hclimbing]
  cases f.es.isDead <;> cases f.es.isProne <;> cases f.enhanced <;> cases f.es.isMantling <;> rfl

section Keeps

variable {f : Facing ℝ} {P : ℝ → Prop} (hP : ∀ x, IsWrapped x → P x) (hview : IsWrapped f.viewYaw)
  (hputs : f.putsLegs = true → P (f.viewYaw + f.legsDir))
include hP hview hputs

theorem forced_keeps {yaw : SwingAngle ℝ}
    (h : f.es.onMountedGun = false → f.climbing = false → P yaw.angle) : P (f.forced yaw).angle := by
  rw [forced]
  split
  · exact hP _ hview
  · next hgun =>
      rw [Bool.not_eq_true] at hgun
      split
      · next hclimbing =>
          apply hputs
          rw [putsLegs, hgun, hclimbing]
          rfl
      · next hclimbing =>
          rw [Bool.not_eq_true] at hclimbing
          exact h hgun hclimbing

theorem legsYaw_keeps (hgun : f.es.onMountedGun = false) (hclimbing : f.climbing = false) {yaw : SwingAngle ℝ}
    (h : P yaw.angle) : P (f.legsYaw yaw).angle := by
  by_cases hrest : (f.es.isDead || f.es.isProne) = true
  · rw [f.legsYaw_resting hclimbing hrest]
    change P f.restingLegs
    rw [restingLegs]
    split
    · exact hP _ hview
    · next hturned =>
        apply hputs
        rw [putsLegs_off hgun hclimbing, hrest, Bool.eq_false_of_not_eq_true hturned]
        rfl
  · rw [Bool.not_eq_true, Bool.or_eq_false_iff] at hrest
    rw [legsYaw, hrest.1, hrest.2, if_neg Bool.false_ne_true, if_neg Bool.false_ne_true]
    split
    · apply SwingAngle.swing_keeps hP
      exact h
    · exact SwingAngle.swing_keeps hP h _ _ _ _ _

theorem torso_keeps {lf : LerpFrame ℝ} (h : P lf.yaw.angle) : P (f.torso lf).yaw.angle := by
  apply forced_keeps hP hview hputs
  intro _ _
  apply SwingAngle.swing_keeps hP
  exact h

theorem legs_keeps {lf : LerpFrame ℝ} (h : P lf.yaw.angle) : P (f.legs lf).yaw.angle :=
  forced_keeps hP hview hputs fun hgun hclimbing => legsYaw_keeps hP hview hputs hgun hclimbing h

omit hview hputs in
theorem pitch_keeps {lf : LerpFrame ℝ} (h : P lf.pitch.angle) : P (f.torso lf).pitch.angle := by
  apply SwingAngle.swing_keeps hP
  exact h

end Keeps

theorem legs_put {f : Facing ℝ} (h : f.putsLegs = true) (lf : LerpFrame ℝ) :
    (f.legs lf).yaw.angle = f.viewYaw + f.legsDir := by
  have hgun : f.es.onMountedGun = false := by
    rw [putsLegs, Bool.and_eq_true, Bool.not_eq_true'] at h
    exact h.1
  change (f.forced (f.legsYaw _)).angle = _
  rw [forced, hgun, if_neg Bool.false_ne_true]
  cases hclimbing : f.climbing with
  | true => rfl
  | false =>
      -- Prone legs are put at their goal before they swing, so the swing finds them arrived.
      rw [putsLegs_off hgun hclimbing, Bool.and_eq_true, Bool.not_eq_true'] at h
      rw [if_neg Bool.false_ne_true, f.legsYaw_resting hclimbing h.1, SwingAngle.still, restingLegs, h.2]
      rfl

end Facing

namespace ClientInfo

open Angle

structure Wrapped (ci : ClientInfo ℝ) : Prop where
  torsoYaw : IsWrapped ci.torso.yaw.angle
  torsoPitch : IsWrapped ci.torso.pitch.angle
  legsYaw : IsWrapped ci.legs.yaw.angle

structure Near (ci : ClientInfo ℝ) : Prop where
  torsoYaw : IsNear ci.torso.yaw.angle
  torsoPitch : IsWrapped ci.torso.pitch.angle
  legsYaw : IsNear ci.legs.yaw.angle

theorem Wrapped.near {ci : ClientInfo ℝ} (h : ci.Wrapped) : ci.Near :=
  ⟨h.torsoYaw.near, h.torsoPitch, h.legsYaw.near⟩

end ClientInfo

section Call

variable (frame : Frame) (host : Host ℝ) (es : EntityState ℝ) {ci : ClientInfo ℝ} (swingSpeed : ℝ)

theorem facePlayer_wrapped_iff (h : ci.Wrapped) :
    (facePlayer frame host es ci swingSpeed).Wrapped ↔ ¬ (Facing.of frame host es ci swingSpeed).Oversteps := by
  have hview : Angle.IsWrapped (Facing.of frame host es ci swingSpeed).viewYaw := Angle.isWrapped_wrap360 _
  constructor
  · rintro ⟨-, -, hlegs⟩ ⟨hputs, hover⟩
    apply hover
    rw [← Facing.legs_put hputs ci.legs]
    exact hlegs
  · intro hover
    have hputs (hput : (Facing.of frame host es ci swingSpeed).putsLegs = true) := not_not.mp (not_and.mp hover hput)
    exact ⟨Facing.torso_keeps (fun _ hx => hx) hview hputs h.torsoYaw,
      Facing.pitch_keeps (fun _ hx => hx) h.torsoPitch,
      Facing.legs_keeps (fun _ hx => hx) hview hputs h.legsYaw⟩

theorem facePlayer_near (hlow : -90 ≤ ci.movementYaw) (hhigh : ci.movementYaw ≤ 90) (h : ci.Near) :
    (facePlayer frame host es ci swingSpeed).Near := by
  have hview : Angle.IsWrapped (Facing.of frame host es ci swingSpeed).viewYaw := Angle.isWrapped_wrap360 _
  have hputs (_ : (Facing.of frame host es ci swingSpeed).putsLegs = true) :
      Angle.IsNear ((Facing.of frame host es ci swingSpeed).viewYaw + ci.movementYaw) := by
    rw [Angle.isWrapped_iff] at hview
    rw [Angle.isNear_iff]
    constructor <;> linarith
  exact ⟨Facing.torso_keeps (fun _ => Angle.IsWrapped.near) hview hputs h.torsoYaw,
    Facing.pitch_keeps (fun _ hx => hx) h.torsoPitch,
    Facing.legs_keeps (fun _ => Angle.IsWrapped.near) hview hputs h.legsYaw⟩

end Call

/-- A call that turns a player. Between two calls everything about the player can change but the yaws of torso
and legs and the pitch of the torso. -/
structure Facing.Call where
  frame : Frame
  host : Host ℝ
  es : EntityState ℝ
  player : ClientInfo ℝ
  swingSpeed : ℝ

namespace Facing.Call

variable (c : Call) (ci : ClientInfo ℝ)

def before : ClientInfo ℝ :=
  { c.player with
    torso := { c.player.torso with yaw := ci.torso.yaw, pitch := ci.torso.pitch }
    legs := { c.player.legs with yaw := ci.legs.yaw } }

noncomputable def facing : Facing ℝ := .of c.frame c.host c.es (c.before ci) c.swingSpeed

noncomputable def after : ClientInfo ℝ := facePlayer c.frame c.host c.es (c.before ci) c.swingSpeed

noncomputable def run (ci : ClientInfo ℝ) : List Call → List (Facing ℝ × ClientInfo ℝ)
  | [] => []
  | c :: calls => (c.facing ci, c.after ci) :: run (c.after ci) calls

variable {ci : ClientInfo ℝ}

theorem run_near (h : ci.Near) {calls : List Call}
    (hcalls : ∀ c ∈ calls, -90 ≤ c.player.movementYaw ∧ c.player.movementYaw ≤ 90) :
    ∀ moment ∈ run ci calls, moment.2.Near := by
  induction calls generalizing ci with
  | nil => exact List.forall_mem_nil _
  | cons c calls ih =>
      obtain ⟨⟨hlow, hhigh⟩, hrest⟩ := List.forall_mem_cons.mp hcalls
      have hbefore : (c.before ci).Near := ⟨h.torsoYaw, h.torsoPitch, h.legsYaw⟩
      have hafter : (c.after ci).Near := facePlayer_near c.frame c.host c.es c.swingSpeed hlow hhigh hbefore
      exact List.forall_mem_cons.mpr ⟨hafter, ih hafter hrest⟩

theorem run_wrapped_iff (h : ci.Wrapped) (calls : List Call) :
    (∀ moment ∈ run ci calls, moment.2.Wrapped) ↔ ∀ moment ∈ run ci calls, ¬ moment.1.Oversteps := by
  induction calls generalizing ci with
  | nil => exact iff_of_true (List.forall_mem_nil _) (List.forall_mem_nil _)
  | cons c calls ih =>
      have hbefore : (c.before ci).Wrapped := ⟨h.torsoYaw, h.torsoPitch, h.legsYaw⟩
      have hcall : (c.after ci).Wrapped ↔ ¬ (c.facing ci).Oversteps :=
        facePlayer_wrapped_iff c.frame c.host c.es c.swingSpeed hbefore
      -- The calls after the first start from wrapped angles only if the first does not overstep.
      rw [run, List.forall_mem_cons, List.forall_mem_cons, ← hcall]
      exact and_congr_right ih

end Facing.Call

/-- Over a run torso and legs stay in [0, 360) exactly if no call puts the legs into a direction that is not,
and they are never more than a quarter turn outside. -/
theorem facing_stays_wrapped {ci : ClientInfo ℝ} (h : ci.Wrapped) {calls : List Facing.Call}
    (hcalls : ∀ c ∈ calls, -90 ≤ c.player.movementYaw ∧ c.player.movementYaw ≤ 90) :
    (∀ moment ∈ Facing.Call.run ci calls, moment.2.Near) ∧
      ((∀ moment ∈ Facing.Call.run ci calls, moment.2.Wrapped) ↔
        ∀ moment ∈ Facing.Call.run ci calls, ¬ moment.1.Oversteps) :=
  ⟨Facing.Call.run_near h.near hcalls, Facing.Call.run_wrapped_iff h calls⟩

section Example

noncomputable def turning (moveTypes : MoveTypes) (view move : ℝ) : Facing.Call where
  frame := ⟨.client, .enhanced, 1000, 50⟩
  host := .ofScript #[] moveTypes false
  es := .initial 0
  player := { ClientInfo.initial 0 with viewAngles := { Vec3.zero with y := view }, movementYaw := move }
  swingSpeed := Facing.enhancedSpeed

theorem initial_wrapped : (ClientInfo.initial 0 : ClientInfo ℝ).Wrapped := by
  have hzero : Angle.IsWrapped (0 : ℝ) := Angle.isWrapped_iff.mpr ⟨le_rfl, Angle.degrees_pos⟩
  rw [← Exact.zero_eq] at hzero
  exact ⟨hzero, hzero, hzero⟩

theorem turning_direction (ci : ClientInfo ℝ) (moveTypes : MoveTypes) {view : ℝ} (h : Angle.IsWrapped view)
    (move : ℝ) :
    ((turning moveTypes view move).facing ci).viewYaw + ((turning moveTypes view move).facing ci).legsDir =
      view + move := by
  change Angle.wrap360 view + move = view + move
  rw [h.wrap360_eq]

theorem facing_stays_wrapped_runner :
    ∃ climbed ran,
      Facing.Call.run (.initial 0) [turning .climbUp 300 45, turning .run 350 45] = [climbed, ran] ∧
        climbed.2.Wrapped ∧ ran.2.Wrapped := by
  have hcalls : ∀ c ∈ [turning .climbUp 300 45, turning .run 350 45],
      -90 ≤ c.player.movementYaw ∧ c.player.movementYaw ≤ 90 := by
    simp only [List.forall_mem_cons, turning]
    norm_num
  have hview : Angle.IsWrapped (300 : ℝ) := Angle.isWrapped_iff.mpr (by norm_num)
  obtain ⟨-, hwrapped⟩ := facing_stays_wrapped initial_wrapped hcalls
  simp only [Facing.Call.run, List.forall_mem_cons] at hwrapped
  obtain ⟨hclimbed, hran, -⟩ := hwrapped.mpr (by
    refine ⟨?_, ?_, List.forall_mem_nil _⟩
    · rintro ⟨-, hover⟩
      apply hover
      rw [turning_direction _ _ hview, Angle.isWrapped_iff]
      norm_num
    · rintro ⟨hputs, -⟩
      revert hputs
      decide)
  exact ⟨_, _, rfl, hclimbed, hran⟩

/-- Someone who climbs to the side across the seam between 360 and 0 ends up beyond it. -/
theorem ladder_oversteps :
    ¬ ∀ moment ∈ Facing.Call.run (.initial 0) [turning .climbUp 350 45], moment.2.Wrapped := by
  have hview : Angle.IsWrapped (350 : ℝ) := Angle.isWrapped_iff.mpr (by norm_num)
  rw [Facing.Call.run_wrapped_iff initial_wrapped]
  intro h
  refine h _ (List.mem_singleton_self _) ⟨by decide, ?_⟩
  rw [turning_direction _ _ hview, Angle.isWrapped_iff]
  norm_num

end Example

end PlayerAnimation
