import PlayerAnimation.Movement.Direction
import PlayerAnimation.Proofs.Angle.Swing

namespace PlayerAnimation

/-- The real numbers with any functions for the division and for the angle of a point, in radians. A movement
within no time has an infinite speed in floats; the division of the reals would give zero for it. -/
@[reducible] noncomputable def Exact.compass (divide atan2 : ℝ → ℝ → ℝ) : Scalar ℝ :=
  { Exact.instScalar with toDiv := ⟨divide⟩, atan2 }

namespace Exact

theorem whole_mono {x y : ℝ} (h : x ≤ y) : whole x ≤ whole y := by
  rw [whole, whole]
  split
  · next hx =>
      rw [if_pos (hx.trans h)]
      exact Int.floor_mono h
  · next hx =>
      split
      · next hy =>
          exact (Int.ceil_le.mpr (by push_cast; linarith)).trans (Int.floor_nonneg.mpr hy)
      · exact Int.ceil_mono h

theorem toInt_mono {x y : ℝ} (h : x ≤ y) : (Scalar.toInt x : ℤ) ≤ Scalar.toInt y :=
  max_le_max_left _ (min_le_min_left _ (whole_mono h))

theorem toInt_intCast {n : ℤ} (hlow : -0x80000000 ≤ n) (hhigh : n ≤ 0x7fffffff) : Scalar.toInt (n : ℝ) = n := by
  have hwhole : whole n = n := by rw [whole, Int.floor_intCast, Int.ceil_intCast, ite_self]
  change max (-0x80000000) (min 0x7fffffff (whole n)) = n
  rw [hwhole, min_eq_right hhigh, max_eq_right hlow]

theorem clamp_of_mem {low high x : ℝ} (hlow : low ≤ x) (hhigh : x ≤ high) : Scalar.clamp low high x = x := by
  rw [Scalar.clamp, if_neg (not_lt.mpr hlow), if_neg (not_lt.mpr hhigh)]

end Exact

namespace MoveStep

structure FollowsVelocity {α : Type} [Scalar α] (m : MoveStep α) : Prop where
  afoot : m.prone = false ∨ m.onMountedGun = true
  keyHeld : m.forwardMove ≠ 0 ∨ m.rightMove ≠ 0
  grounded : m.onGround = true
  fast : 5 < m.speed

section Branches

variable {α : Type} [Scalar α] {m : MoveStep α}

theorem followsVelocity_iff : m.FollowsVelocity ↔ (m.prone && !m.onMountedGun) = false ∧ m.isWalking = true := by
  have hfast : decide (minSpeed < m.speed) = true ↔ 5 < m.speed := decide_eq_true_iff
  rw [isWalking, Bool.and_eq_true, Bool.and_eq_true, hfast, Bool.and_eq_false_iff]
  simp only [Bool.not_eq_eq_eq_not, Bool.not_false, Bool.or_eq_true, bne_iff_ne]
  constructor
  · rintro ⟨hafoot, hkey, hground, hfast⟩
    exact ⟨hafoot, ⟨hkey, hground⟩, hfast⟩
  · rintro ⟨hafoot, ⟨hkey, hground⟩, hfast⟩
    exact ⟨hafoot, hkey, hground, hfast⟩

theorem exactYaw_following (h : m.FollowsVelocity) (compat : Compat) :
    m.exactYaw compat = Scalar.clamp (-90) 90 (m.legsHeading compat) := by
  obtain ⟨hafoot, hwalking⟩ := followsVelocity_iff.mp h
  rw [exactYaw, hafoot, hwalking]
  rfl

def backing (compat : Compat) (heading : α) : α :=
  if compat.isEnhanced && (-90 ≤ heading && heading ≤ 90) then heading else Angle.wrap180 (heading + 180)

theorem legsHeading_back (hback : m.forwardMove < 0) (compat : Compat) :
    m.legsHeading compat = backing compat m.heading := by
  rw [legsHeading, isBackward, decide_eq_true hback, Bool.true_and, ← Bool.not_and, backing]
  cases compat.isEnhanced && (decide (-90 ≤ m.heading) && decide (m.heading ≤ 90)) <;> rfl

theorem exactYaw_same (h : ¬ (m.FollowsVelocity ∧ m.forwardMove < 0)) (compat compat' : Compat) :
    m.exactYaw compat = m.exactYaw compat' := by
  by_cases hfollows : m.FollowsVelocity
  · have hforward : (decide (m.forwardMove < 0)) = false := decide_eq_false fun hback => h ⟨hfollows, hback⟩
    rw [exactYaw_following hfollows, exactYaw_following hfollows, legsHeading, legsHeading, isBackward, isBackward,
      hforward]
    rfl
  · rw [followsVelocity_iff, not_and, Bool.not_eq_true] at hfollows
    rw [exactYaw, exactYaw]
    split
    · rfl
    · next hafoot =>
        rw [hfollows (Bool.eq_false_of_not_eq_true hafoot)]
        rfl

end Branches

section Backing

variable {h : ℝ}

theorem backing_legacy (h : ℝ) : backing .legacy h = Angle.wrap180 (h + 180) := by
  simp only [backing, Compat.isEnhanced, Bool.false_and, Bool.false_eq_true, if_false, Exact.ofNat_eq]

theorem backing_enhanced (h : ℝ) : backing .enhanced h = if |h| ≤ 90 then h else Angle.wrap180 (h + 180) := by
  simp only [backing, Compat.isEnhanced, Bool.true_and, Bool.and_eq_true, decide_eq_true_eq, Exact.ofNat_eq, abs_le]

theorem wrap180_opposite (hlow : -180 < h) (hhigh : h ≤ 180) :
    Angle.wrap180 (h + 180) = if 0 < h then h - 180 else h + 180 := by
  split
  · next hpos =>
      apply Angle.wrap180_of_mem _ (by linarith) (by linarith)
      exact AddCommGroup.modEq_iff_zsmul.mpr ⟨-1, by norm_num; ring⟩
  · next hneg => exact Angle.wrap180_of_mem AddCommGroup.modEq_rfl (by linarith) (by linarith)

theorem modEq_half {a b : ℝ} (hab : a ≡ b [PMOD 360]) : a ≡ b [PMOD 180] := by
  obtain ⟨k, hk⟩ := AddCommGroup.modEq_iff_zsmul.mp hab
  refine AddCommGroup.modEq_iff_zsmul.mpr ⟨2 * k, ?_⟩
  rw [← hk, zsmul_eq_mul, zsmul_eq_mul]
  push_cast
  ring

theorem wrap180_opposite_modEq (h : ℝ) : Angle.wrap180 (h + 180) ≡ h [PMOD 180] :=
  (modEq_half (Angle.wrap180_modEq _)).trans (AddCommGroup.add_modEq_left.mpr AddCommGroup.self_modEq_zero)

theorem backing_enhanced_modEq (h : ℝ) : backing .enhanced h ≡ h [PMOD 180] := by
  rw [backing_enhanced]
  split
  · exact AddCommGroup.modEq_rfl
  · exact wrap180_opposite_modEq h

theorem abs_backing_enhanced (hlow : -180 < h) (hhigh : h ≤ 180) : |backing .enhanced h| ≤ 90 := by
  by_cases hin : |h| ≤ 90
  · rwa [backing_enhanced, if_pos hin]
  · rw [backing_enhanced, if_neg hin, wrap180_opposite hlow hhigh]
    rw [abs_le, not_and_or, not_le, not_le] at hin
    split
    · rw [abs_le]
      constructor <;> linarith [hin.resolve_left (by linarith)]
    · rw [abs_le]
      constructor <;> linarith [hin.resolve_right (by linarith)]

theorem clamp_backing_legacy (hin : |h| ≤ 90) :
    Scalar.clamp (-90) 90 (backing .legacy h) = if 0 < h then -90 else 90 := by
  obtain ⟨hlow, hhigh⟩ := abs_le.mp hin
  rw [backing_legacy, wrap180_opposite (by linarith) (by linarith), Scalar.clamp]
  split
  · next hpos =>
      split_ifs <;> linarith
  · next hneg =>
      split_ifs <;> linarith

theorem backing_enhanced_of_abs_le (hin : |h| ≤ 90) : backing .enhanced h = h := by
  rw [backing_enhanced, if_pos hin]

theorem toInt_backing_ne (hin : |h| ≤ 90) :
    (Scalar.toInt (Scalar.clamp (-90) 90 (backing .legacy h)) : ℤ) ≠ Scalar.toInt h := by
  have hzero : (Scalar.toInt (0 : ℝ) : ℤ) = 0 := by
    exact_mod_cast Exact.toInt_intCast (n := 0) (by decide) (by decide)
  rw [clamp_backing_legacy hin]
  split
  · next hpos =>
      have hleft : (Scalar.toInt (-90 : ℝ) : ℤ) = -90 := by
        exact_mod_cast Exact.toInt_intCast (n := -90) (by decide) (by decide)
      have hright : 0 ≤ (Scalar.toInt h : ℤ) := hzero ▸ Exact.toInt_mono hpos.le
      omega
  · next hneg =>
      have hright : (Scalar.toInt (90 : ℝ) : ℤ) = 90 := by
        exact_mod_cast Exact.toInt_intCast (n := 90) (by decide) (by decide)
      have hleft : (Scalar.toInt h : ℤ) ≤ 0 := hzero ▸ Exact.toInt_mono (not_lt.mp hneg)
      omega

end Backing

section Compass

variable (divide atan2 : ℝ → ℝ → ℝ) (m : MoveStep ℝ)

theorem heading_mem :
    letI := Exact.compass divide atan2
    m.heading ∈ Set.Ioc (-180) 180 :=
  Angle.diff_mem _ _

theorem exactYaw_backing (compat : Compat) (hback : m.forwardMove < 0) :
    letI := Exact.compass divide atan2
    m.FollowsVelocity → m.exactYaw compat = Scalar.clamp (-90) 90 (backing compat m.heading) := by
  let _ := Exact.compass divide atan2
  intro hfollows
  have h := exactYaw_following hfollows compat
  rw [legsHeading_back hback] at h
  -- The bounds of the cut are numerals of the scalar operations, which are not those of the reals by definition.
  have hninety : (@OfNat.ofNat ℝ 90 (@Scalar.instOfNat ℝ (Exact.compass divide atan2) 90)) = 90 :=
    Exact.ofNat_eq 90
  rw [hninety] at h
  exact h

end Compass

end MoveStep

open MoveStep in
/-- Whatever functions divide and give the angle of a velocity, both kinds of animations agree on the direction
of the legs exactly if the player does not hold back at a velocity within a quarter turn of the view. The
enhanced ones keep the legs of a player who holds back on the line of the velocity. -/
theorem directions_agree (divide atan2 : ℝ → ℝ → ℝ) (m : MoveStep ℝ) :
    letI := Exact.compass divide atan2
    (m.yaw .legacy = m.yaw .enhanced ↔
        ¬ (m.FollowsVelocity ∧ m.forwardMove < 0 ∧ m.heading ∈ Set.Icc (-90) 90)) ∧
      (m.FollowsVelocity → m.forwardMove < 0 →
        m.exactYaw .enhanced ≡ Scalar.toDegrees (atan2 m.moved.y m.moved.x) - m.viewYaw [PMOD 180] ∧
          m.exactYaw .enhanced ∈ Set.Icc (-90) 90 ∧ m.exactYaw .enhanced = m.legsHeading .enhanced) := by
  let _ := Exact.compass divide atan2
  have hyaw (compat : Compat) : m.yaw compat = Scalar.toInt (m.exactYaw compat) := rfl
  obtain ⟨hlow, hhigh⟩ := heading_mem divide atan2 m
  have hcut : |backing .enhanced m.heading| ≤ 90 := abs_backing_enhanced hlow hhigh
  have henhanced (hfollows : m.FollowsVelocity) (hback : m.forwardMove < 0) :
      m.exactYaw .enhanced = backing .enhanced m.heading :=
    (exactYaw_backing divide atan2 m .enhanced hback hfollows).trans
      (Exact.clamp_of_mem (abs_le.mp hcut).1 (abs_le.mp hcut).2)
  refine ⟨⟨?differ, ?agree⟩, fun hfollows hback => ⟨?line, ?range, ?uncut⟩⟩
  case differ =>
    rintro hsame ⟨hfollows, hback, hin⟩
    have hin : |m.heading| ≤ 90 := abs_le.mpr hin
    rw [hyaw, hyaw, henhanced hfollows hback, exactYaw_backing divide atan2 m .legacy hback hfollows] at hsame
    have hkept : backing .enhanced m.heading = m.heading := backing_enhanced_of_abs_le hin
    rw [hkept] at hsame
    exact toInt_backing_ne hin hsame
  case agree =>
    intro hnot
    rw [hyaw, hyaw]
    congr 1
    by_cases h : m.FollowsVelocity ∧ m.forwardMove < 0
    · obtain ⟨hfollows, hback⟩ := h
      have hout : ¬ |m.heading| ≤ 90 := fun hin => hnot ⟨hfollows, hback, abs_le.mp hin⟩
      rw [exactYaw_backing divide atan2 m .legacy hback hfollows,
        exactYaw_backing divide atan2 m .enhanced hback hfollows]
      have hturned : backing .legacy m.heading = backing .enhanced m.heading :=
        (backing_legacy _).trans (if_neg hout ▸ backing_enhanced _).symm
      rw [hturned]
    · exact exactYaw_same h .legacy .enhanced
  case line =>
    rw [henhanced hfollows hback]
    exact (backing_enhanced_modEq _).trans (modEq_half (Angle.diff_modEq _ _))
  case range =>
    rw [henhanced hfollows hback]
    exact abs_le.mp hcut
  case uncut => rw [henhanced hfollows hback, legsHeading_back hback]

section Example

/-- Someone who holds back while sliding 60 degrees to the left of the view, or 150, and once in no time at all:
there the speed is infinite, and a large one is in its place. -/
theorem directions_agree_sliding :
    let atan2 (y x : ℝ) : ℝ := Complex.arg ⟨x, y⟩
    let divide (way time : ℝ) : ℝ := if time = 0 then 1000000 else way / time
    let slide (duration viewYaw : ℝ) : MoveStep ℝ :=
      ⟨⟨0, 8, 0⟩, ⟨0, 0, 0⟩, duration, viewYaw, -1, 0, true, false, false, 0⟩
    letI := Exact.compass divide atan2
    (slide 1 30).FollowsVelocity ∧ (slide 1 30).yaw .legacy ≠ (slide 1 30).yaw .enhanced ∧
      (slide 0 30).FollowsVelocity ∧ (slide 0 30).yaw .legacy ≠ (slide 0 30).yaw .enhanced ∧
      (slide 1 300).yaw .legacy = (slide 1 300).yaw .enhanced ∧
      (slide 1 30).exactYaw .enhanced ≡ 90 - 30 [PMOD 180] ∧
      (slide 1 30).exactYaw .enhanced ∈ Set.Icc (-90) 90 := by
  intro atan2 divide slide
  let _ := Exact.compass divide atan2
  have hcourse (duration viewYaw : ℝ) :
      Scalar.toDegrees (atan2 (slide duration viewYaw).moved.y (slide duration viewYaw).moved.x) = 90 := by
    have hup : atan2 (8 - 0) (0 - 0) = Real.pi / 2 :=
      Complex.arg_eq_pi_div_two_iff.mpr ⟨sub_zero 0, by norm_num⟩
    change atan2 (8 - 0) (0 - 0) * (180 / Real.pi) = 90
    rw [hup]
    field_simp
    norm_num
  have hheading (duration viewYaw : ℝ) : (slide duration viewYaw).heading = Angle.diff 90 viewYaw :=
    congrArg (Angle.diff · viewYaw) (hcourse duration viewYaw)
  have hlength : Real.sqrt ((0 - 0) * (0 - 0) + (8 - 0) * (8 - 0) + (0 - 0) * (0 - 0)) = 8 := by
    rw [Real.sqrt_eq_iff_mul_self_eq] <;> norm_num
  have hfollows (duration viewYaw : ℝ) (hspeed : 5 < divide 8 duration) :
      (slide duration viewYaw).FollowsVelocity := by
    refine ⟨.inl rfl, .inl (by decide : (-1 : Int) ≠ 0), rfl, lt_of_eq_of_lt (Exact.ofNat_eq 5) ?_⟩
    change (5 : ℝ) < divide (Real.sqrt ((0 - 0) * (0 - 0) + (8 - 0) * (8 - 0) + (0 - 0) * (0 - 0))) duration
    rwa [hlength]
  have hlong : (slide 1 30).FollowsVelocity := hfollows 1 30 (by norm_num [divide])
  have hsudden : (slide 0 30).FollowsVelocity := hfollows 0 30 (by norm_num [divide])
  have hback : (-1 : Int) < 0 := by decide
  have hnear (duration : ℝ) : (slide duration 30).heading ∈ Set.Icc (-90) 90 := by
    have h : Angle.diff (90 : ℝ) 30 = 60 :=
      Angle.diff_eq_of_modEq (by norm_num) (by norm_num) (by norm_num)
    rw [hheading, h]
    constructor <;> norm_num
  have hfar : (slide 1 300).heading ∉ Set.Icc (-90) 90 := by
    have h : Angle.diff (90 : ℝ) 300 = 150 :=
      Angle.diff_eq_of_modEq (AddCommGroup.modEq_iff_zsmul.mpr ⟨1, by norm_num⟩) (by norm_num) (by norm_num)
    rw [hheading, h]
    exact fun hin => absurd hin.2 (by norm_num)
  obtain ⟨hsame, hline⟩ := directions_agree divide atan2 (slide 1 30)
  obtain ⟨hcourse', hrange, -⟩ := hline hlong hback
  rw [hcourse] at hcourse'
  refine ⟨hlong, fun h => hsame.mp h ⟨hlong, hback, hnear 1⟩, hsudden, fun h => ?sudden, ?far, hcourse', hrange⟩
  case sudden => exact (directions_agree divide atan2 (slide 0 30)).1.mp h ⟨hsudden, hback, hnear 0⟩
  case far => exact (directions_agree divide atan2 (slide 1 300)).1.mpr fun ⟨_, _, hin⟩ => hfar hin

end Example

end PlayerAnimation
