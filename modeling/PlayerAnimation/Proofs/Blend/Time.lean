import Mathlib.Tactic.ByContra
import Mathlib.Tactic.SplitIfs
import PlayerAnimation.Proofs.Flags.Bits
import PlayerAnimation.Target.Enhanced

namespace PlayerAnimation

variable {α : Type} [Scalar α]

namespace ControllerMovement

def isProne (m : ControllerMovement) : Bool := m.contains prone

def isFire (m : ControllerMovement) : Bool := m.contains proneBackwardsFire

theorem isProne_or (m n : ControllerMovement) : (m ||| n).isProne = (m.isProne || n.isProne) :=
  Flags.contains_or_bit m n (by decide)

theorem isFire_or (m n : ControllerMovement) : (m ||| n).isFire = (m.isFire || n.isFire) :=
  Flags.contains_or_bit m n (by decide)

theorem locomotion_not_prone (l : Locomotion) (yaw : α) : (l.movement yaw).isProne = false := by
  rw [Locomotion.movement]
  split_ifs <;> decide

theorem locomotion_not_fire (l : Locomotion) (yaw : α) : (l.movement yaw).isFire = false := by
  rw [Locomotion.movement]
  split_ifs <;> decide

theorem base_or {m : ControllerMovement} (h : m.contains base) (n : ControllerMovement) :
    (m ||| n).contains base := by
  rw [base, Flags.contains_or_bit m n (by decide), ← base, h, Bool.true_or]

theorem locomotion_base (l : Locomotion) (yaw : α) : (l.movement yaw).contains base := by
  rw [Locomotion.movement]
  exact base_or (base_or (base_or (by decide) _) _) _

end ControllerMovement

namespace Enhanced

open Angle ControllerMovement

def timeOf (m : ControllerMovement) (slides : Bool) : Int :=
  if m.isFire then 100 else if slides then 150 else if m.isProne then 400 else 250

/-- Whether a prone player moves straight to the side and not back, and is not at a quarter lean. -/
def slides (host : Host α) (es : EntityState α) (ci : ClientInfo α) : Bool :=
  es.isProne && (locomotion host es ci).isSideways && !(locomotion host es ci).backward &&
    flatness ci.lean != 0

theorem upright_time (es : EntityState α) (l : Locomotion) (yaw lean : α) (p : Controllers α) :
    (upright es l yaw lean p).blendTime = 250 := by
  rw [upright]
  cases leansIntoMove l lean yaw with
  | true => rfl
  | false => rfl

theorem upright_movement (es : EntityState α) (l : Locomotion) (yaw lean : α) (p : Controllers α) :
    (upright es l yaw lean p).movement.isFire = false ∧
      (upright es l yaw lean p).movement.isProne = false := by
  rw [upright]
  dsimp only [mark]
  split_ifs
  all_goals
    simp only [isFire_or, isProne_or, locomotion_not_fire, locomotion_not_prone]
    decide

theorem prone_spec (l : Locomotion) (lean yaw : α) (torso : Option (Animation α)) (p : Controllers α) :
    let e := prone l lean yaw torso p
    let slides := l.isSideways && !l.backward && flatness lean != 0
    e.movement.isProne ∧
      (e.movement.isFire ∧ slides = false ∧ e.blendTime = 100 ∨
        e.movement.isFire = false ∧ e.blendTime = if slides then 150 else 400) := by
  have hp : (l.movement yaw ||| ControllerMovement.prone).isProne := by
    rw [isProne_or, Bool.or_eq_true]
    exact Or.inr (by decide)
  have hf : (l.movement yaw ||| ControllerMovement.prone).isFire = false := by
    rw [isFire_or, locomotion_not_fire]
    decide
  have hpm : ∀ m, (l.movement yaw ||| ControllerMovement.prone ||| m).isProne := by
    intro m
    rw [isProne_or, hp, Bool.true_or]
  have hfm : ∀ m, (l.movement yaw ||| ControllerMovement.prone ||| m).isFire = m.isFire := by
    intro m
    rw [isFire_or, hf, Bool.false_or]
  rw [prone]
  dsimp only [mark]
  cases hb : l.backward && flatness lean != 0 with
  | true =>
      have hs : (l.isSideways && !l.backward && flatness lean != 0) = false := by
        rw [Bool.and_eq_true] at hb
        simp [hb.1]
      rw [hs, if_pos rfl]
      cases torso with
      | none => exact ⟨hp, Or.inr ⟨hf, rfl⟩⟩
      | some a =>
          dsimp only
          cases reloads a with
          | true => exact ⟨hpm _, Or.inr ⟨hfm _, rfl⟩⟩
          | false => exact ⟨hpm _, Or.inl ⟨hfm _, rfl, rfl⟩⟩
  | false =>
      have hs : (l.isSideways && !l.backward && flatness lean != 0) =
          (l.isSideways && flatness lean != 0) := by
        cases hl : l.backward with
        | true =>
            rw [hl, Bool.true_and] at hb
            simp [hb]
        | false => simp
      rw [hs, if_neg Bool.false_ne_true]
      cases l.isSideways && flatness lean != 0 with
      | true => exact ⟨hp, Or.inr ⟨hf, rfl⟩⟩
      | false =>
          cases l.forward && torso.any reloads with
          | true => exact ⟨hpm _, Or.inr ⟨hfm _, rfl⟩⟩
          | false => exact ⟨hp, Or.inr ⟨hf, rfl⟩⟩

theorem ladder_spec (ci : ClientInfo α) (moveTypes : MoveTypes) (e : Enhanced α) :
    (ladder ci moveTypes e).blendTime = e.blendTime ∧
      (ladder ci moveTypes e).movement.isFire = e.movement.isFire ∧
      (ladder ci moveTypes e).movement.isProne = e.movement.isProne := by
  rw [ladder, mark, mark]
  have hup : ControllerMovement.climbUp.isFire = false ∧ ControllerMovement.climbUp.isProne = false := by
    decide
  have hdown : climbDown.isFire = false ∧ climbDown.isProne = false := by decide
  split
  · exact ⟨rfl, by rw [isFire_or, hup.1, Bool.or_false], by rw [isProne_or, hup.2, Bool.or_false]⟩
  split
  · exact ⟨rfl, by rw [isFire_or, hdown.1, Bool.or_false], by rw [isProne_or, hdown.2, Bool.or_false]⟩
  · exact ⟨rfl, rfl, rfl⟩

theorem of_time (host : Host α) (es : EntityState α) (ci : ClientInfo α) (p : Controllers α) :
    (of host es ci p).blendTime = timeOf (of host es ci p).movement (slides host es ci) ∧
      ((of host es ci p).movement.isFire → slides host es ci = false) := by
  rw [of]
  obtain ⟨ht, hf, hp⟩ := ladder_spec ci (host.moveTypes ci)
    (if es.isProne then
      prone (locomotion host es ci) ci.lean ci.movementYaw (ci.torso.animation.bind host.animation) p
    else upright es (locomotion host es ci) ci.movementYaw (leanCurve ci.lean) p)
  rw [timeOf, ht, hf, hp, slides]
  cases hprone : es.isProne with
  | false =>
      obtain ⟨hf', hp'⟩ := upright_movement es (locomotion host es ci) ci.movementYaw (leanCurve ci.lean) p
      simp [hf', hp', upright_time]
  | true =>
      obtain ⟨hp', hcases⟩ := prone_spec (locomotion host es ci) ci.lean ci.movementYaw
        (ci.torso.animation.bind host.animation) p
      simp only [if_true, Bool.true_and, hp']
      rcases hcases with ⟨hf', hs, ht'⟩ | ⟨hf', ht'⟩
      · simp [hf', hs, ht']
      · simp [hf', ht']

theorem upright_base (es : EntityState α) (l : Locomotion) (yaw lean : α) (p : Controllers α) :
    (upright es l yaw lean p).movement.contains base := by
  have h := base_or (locomotion_base l yaw) (if es.isCrouching then crouch else stand)
  rw [upright]
  cases leansIntoMove l lean yaw with
  | true => exact base_or h _
  | false => exact h

theorem prone_base (l : Locomotion) (lean yaw : α) (torso : Option (Animation α)) (p : Controllers α) :
    (prone l lean yaw torso p).movement.contains base := by
  have h := base_or (locomotion_base l yaw) ControllerMovement.prone
  rw [prone]
  dsimp only
  split_ifs
  · cases torso with
    | none => exact h
    | some a =>
        dsimp only
        split_ifs
        · exact base_or h _
        · exact base_or h _
  · exact h
  · exact base_or h _
  · exact h

theorem ladder_base (ci : ClientInfo α) (moveTypes : MoveTypes) {e : Enhanced α}
    (h : e.movement.contains base) : (ladder ci moveTypes e).movement.contains base := by
  rw [ladder]
  split_ifs
  · exact base_or h _
  · exact base_or h _
  · exact h

theorem of_base (host : Host α) (es : EntityState α) (ci : ClientInfo α) (p : Controllers α) :
    (of host es ci p).movement.contains base := by
  rw [of]
  apply ladder_base
  split_ifs
  · exact prone_base _ _ _ _ _
  · exact upright_base _ _ _ _ _

theorem of_movement_ne (host : Host α) (es : EntityState α) (ci : ClientInfo α) (p : Controllers α) :
    (of host es ci p).movement ≠ .empty := by
  intro h
  have hbase := of_base host es ci p
  rw [h] at hbase
  exact absurd hbase (by decide)

theorem timeOf_eq_iff {m : ControllerMovement} {a b : Bool} (ha : m.isFire → a = false)
    (hb : m.isFire → b = false) : timeOf m a = timeOf m b ↔ a = b := by
  rw [timeOf, timeOf]
  cases hf : m.isFire with
  | true => simp [ha hf, hb hf]
  | false => cases a <;> cases b <;> cases m.isProne <;> decide

theorem of_time_mem (host : Host α) (es : EntityState α) (ci : ClientInfo α) (p : Controllers α) :
    (of host es ci p).blendTime ∈ [100, 150, 250, 400] := by
  rw [(of_time host es ci p).1, timeOf]
  split_ifs <;> decide

theorem of_time_bounds (host : Host α) (es : EntityState α) (ci : ClientInfo α) (p : Controllers α) :
    0 < (of host es ci p).blendTime ∧ (of host es ci p).blendTime ≤ 400 := by
  have h : ∀ t ∈ [100, 150, 250, 400], (0 : Int) < t ∧ t ≤ 400 := by decide
  exact h _ (of_time_mem host es ci p)

end Enhanced

end PlayerAnimation
