import PlayerAnimation.Proofs.Movement.Direction
import PlayerAnimation.Proofs.Single.Kinds

namespace PlayerAnimation

namespace MoveStep

theorem scalar_ninety : @OfNat.ofNat Float32 90 (Scalar.instOfNat 90) = 90 := by decide

theorem ninety_represents : Single.Represents 90 90 := by
  exact_mod_cast Single.Represents.whole (n := 90) (by decide) (by decide)

theorem minus_ninety_represents : Single.Represents (-90) (-90) := by
  exact_mod_cast Single.Represents.whole (n := -90) (by decide) (by decide)

theorem abs_toInt_clamp_le (x : Float32) : |Single.toInt (Scalar.clamp (-90) 90 x)| ≤ 90 := by
  obtain ⟨q, hlow, hhigh, hq⟩ | hnan :=
    Single.clamp_kinds minus_ninety_represents ninety_represents (by norm_num) x
  · exact Single.abs_toInt_le hq (by decide) (abs_le.mpr ⟨by exact_mod_cast hlow, by exact_mod_cast hhigh⟩)
  · rw [Single.toInt_notANumber hnan]
    decide

variable (m : MoveStep Float32)

theorem abs_yaw_le (compat : Compat) : |m.yaw compat| ≤ 90 := by
  change |Single.toInt (m.exactYaw compat)| ≤ 90
  rw [exactYaw, scalar_ninety]
  split
  · exact abs_toInt_clamp_le _
  · split
    · exact abs_toInt_clamp_le _
    · decide

theorem yaw_resting {m : MoveStep Float32} (hafoot : m.prone = false ∨ m.onMountedGun = true)
    (h : ¬ m.FollowsVelocity) (compat : Compat) : m.yaw compat = 0 := by
  have hafoot' : (m.prone && !m.onMountedGun) = false := by
    rw [Bool.and_eq_false_iff, Bool.not_eq_eq_eq_not]
    exact hafoot
  have hstill : m.isWalking = false := by
    rw [followsVelocity_iff, not_and, Bool.not_eq_true] at h
    exact h hafoot'
  change Single.toInt (m.exactYaw compat) = 0
  rw [exactYaw, hafoot', hstill, if_neg Bool.false_ne_true, if_neg Bool.false_ne_true]
  decide

theorem speed_vanishes {m : MoveStep Float32} (h : m.origin = m.previousOrigin) :
    Single.Vanishes m.speed.toModel.unpack := by
  have hsquare (a : Float32) : Single.Vanishes ((a - a) * (a - a)).toModel.unpack :=
    ((Single.vanishes_sub_self _).pack.mul (Single.vanishes_sub_self _).pack).pack
  have hsum := ((hsquare m.previousOrigin.x).add (hsquare m.previousOrigin.y)).pack.add (hsquare m.previousOrigin.z)
  rw [speed, moved, h]
  exact (hsum.pack.sqrt.pack.div _).pack

theorem followsVelocity_fast {m : MoveStep Float32} (h : m.FollowsVelocity) : (5 : Float32) < m.speed := by
  have hfive : @OfNat.ofNat Float32 5 (Scalar.instOfNat 5) = 5 := by decide
  have hfast := h.fast
  rwa [hfive] at hfast

theorem five_represents : Single.Represents 5 5 := by
  exact_mod_cast Single.Represents.whole (n := 5) (by decide) (by decide)

end MoveStep

/-- Whatever floats a step holds, the direction of the legs is within a quarter turn of the view. It is straight
ahead on foot without a key held, off the ground or at a speed up to 5, also if nothing moved in no time. -/
theorem direction_usable (m : MoveStep Float32) (compat : Compat) :
    -90 ≤ m.yaw compat ∧ m.yaw compat ≤ 90 ∧
      (m.prone = false ∨ m.onMountedGun = true →
        (m.forwardMove = 0 ∧ m.rightMove = 0 ∨ m.onGround = false ∨ ¬ (5 : Float32) < m.speed →
          m.yaw compat = 0) ∧
        (m.origin = m.previousOrigin → ¬ (5 : Float32) < m.speed)) := by
  obtain ⟨hlow, hhigh⟩ := abs_le.mp (m.abs_yaw_le compat)
  refine ⟨hlow, hhigh, fun hafoot => ⟨fun hrests => ?_, fun hplace => ?_⟩⟩
  · apply MoveStep.yaw_resting hafoot
    intro hfollows
    obtain ⟨hforward, hright⟩ | hair | hslow := hrests
    · exact hfollows.keyHeld.elim (absurd hforward) (absurd hright)
    · rw [hfollows.grounded] at hair
      cases hair
    · exact hslow (MoveStep.followsVelocity_fast hfollows)
  · exact Single.not_lt_of_vanishes MoveStep.five_represents (by norm_num) (MoveStep.speed_vanishes hplace)

section Example

def stuck : MoveStep Float32 :=
  let place : Vec3 Float32 := ⟨.ofBits 0x7f800000, .ofBits 0x7fc00000, 8⟩
  ⟨place, place, 0, 30, -127, 127, true, true, true, 0⟩

theorem direction_usable_stuck :
    stuck.speed.isNaN = true ∧ ¬ (5 : Float32) < stuck.speed ∧ stuck.yaw .legacy = 0 := by
  obtain ⟨-, -, hafoot⟩ := direction_usable stuck .legacy
  obtain ⟨hrests, hplace⟩ := hafoot (.inr rfl)
  exact ⟨by rfl, hplace rfl, hrests (.inr (.inr (hplace rfl)))⟩

end Example

end PlayerAnimation
