import PlayerAnimation.Proofs.Blend.Approach

namespace PlayerAnimation

theorem sub_lessen (part way : ℝ) : way - lessen part way = min part way := by
  rw [lessen, ← min_sub_sub_left, sub_sub_cancel, sub_zero]

theorem lessen_div_lessen {later : ℝ} (hlater : 0 ≤ later) (part way : ℝ) :
    lessen part way / way * (lessen later (lessen part way) / lessen part way) =
      lessen (part + later) way / way := by
  rw [lessen_lessen hlater, mul_comm]
  by_cases hover : lessen part way = 0
  · have hdone : lessen (part + later) way = 0 := by
      rw [← lessen_lessen hlater, hover, lessen_eq_zero hlater]
    rw [hover, hdone, div_zero, zero_mul, zero_div]
  · exact div_mul_div_cancel₀ hover

namespace Vec3

variable (a b : Vec3 ℝ)

theorem scale_scale (k l : ℝ) : (a.scale k).scale l = a.scale (k * l) :=
  Vec3.ext (mul_assoc _ _ _) (mul_assoc _ _ _) (mul_assoc _ _ _)

theorem sub_sub_self : a - (a - b) = b :=
  Vec3.ext (sub_sub_cancel _ _) (sub_sub_cancel _ _) (sub_sub_cancel _ _)

theorem sub_scale_zero : a - b.scale 0 = a := by
  have h (x y : ℝ) : x - y * 0 = x := by rw [mul_zero, sub_zero]
  exact Vec3.ext (h _ _) (h _ _) (h _ _)

theorem sub_scale_eq_lerp (k : ℝ) : a - (a - b).scale k = b.lerp a (1 - k) := by
  have h (x y : ℝ) : x - (x - y) * k = y + (x - y) * (1 - k) := by ring
  exact Vec3.ext (h _ _) (h _ _) (h _ _)

theorem lerp_sub_left (k : ℝ) : b.lerp a k - b = (a - b).scale k := by
  have h (x y : ℝ) : y + (x - y) * k - y = (x - y) * k := by ring
  exact Vec3.ext (h _ _) (h _ _) (h _ _)

end Vec3

namespace Angle

section Step

variable {limit : ℝ} (hlimit : 0 ≤ limit)
include hlimit

theorem approach_eq (goal current : ℝ) :
    approach goal limit current = current + SignType.sign (goal - current) * min limit |goal - current| := by
  rw [approach]
  split
  · next h =>
      have hfar : 0 < goal - current := hlimit.trans_lt h
      rw [sign_pos hfar, abs_of_pos hfar, min_eq_left h.le, SignType.coe_one, one_mul]
  · next h =>
      split
      · next h' =>
          have hfar : goal - current < 0 := h'.trans_le (neg_nonpos.mpr hlimit)
          rw [sign_neg hfar, abs_of_neg hfar, min_eq_left (by linarith), SignType.coe_neg_one, neg_one_mul,
            sub_eq_add_neg]
      · next h' =>
          have hnear : |goal - current| ≤ limit := abs_le.mpr ⟨not_lt.mp h', not_lt.mp h⟩
          rw [min_eq_right hnear, sign_mul_abs, add_sub_cancel]

theorem approach_share (goal current : ℝ) :
    approach goal limit current =
      goal - (goal - current) * (lessen limit |goal - current| / |goal - current|) := by
  have hshare : (goal - current) * (lessen limit |goal - current| / |goal - current|) =
      SignType.sign (goal - current) * lessen limit |goal - current| := by
    by_cases hthere : goal - current = 0
    · rw [hthere, zero_mul, sign_zero, SignType.coe_zero, zero_mul]
    · nth_rewrite 1 [← sign_mul_abs (goal - current)]
      rw [mul_assoc, mul_div_cancel₀ _ (abs_ne_zero.mpr hthere)]
  rw [hshare, approach_eq hlimit, ← sub_lessen, mul_sub, sign_mul_abs, ← add_sub_assoc, add_sub_cancel]

theorem approach_approach {first : ℝ} (hfirst : 0 ≤ first) (goal current : ℝ) :
    approach goal limit (approach goal first current) = approach goal (first + limit) current := by
  rw [approach_share hlimit, approach_left hfirst, approach_share (add_nonneg hfirst hlimit),
    approach_share hfirst, sub_sub_cancel, mul_assoc, lessen_div_lessen hlimit]

theorem approachAlong_share (goal current : Vec3 ℝ) :
    approachAlong goal limit current =
      goal - (goal - current).scale (lessen limit (goal - current).length / (goal - current).length) := by
  rw [approachAlong]
  split
  · next h =>
      have hthere : (goal - current).length = 0 := by simpa using h
      rw [hthere, div_zero, Vec3.sub_scale_zero, Vec3.eq_of_length_sub hthere]
  split
  · next h =>
      have hlength : (goal - current).length ≠ 0 := (hlimit.trans_lt h).ne'
      rw [Vec3.sub_scale_eq_lerp, lessen_of_le h.le, sub_div, div_self hlength, sub_sub_cancel]
      rfl
  · next h => rw [lessen_eq_zero (not_lt.mp h), zero_div, Vec3.sub_scale_zero]

theorem approachAlong_approachAlong {first : ℝ} (hfirst : 0 ≤ first) (goal current : Vec3 ℝ) :
    approachAlong goal limit (approachAlong goal first current) = approachAlong goal (first + limit) current := by
  rw [approachAlong_share hlimit, approachAlong_left hfirst, approachAlong_share (add_nonneg hfirst hlimit),
    approachAlong_share hfirst, Vec3.sub_sub_self, Vec3.scale_scale, lessen_div_lessen hlimit]

theorem approachEach_approachEach {first : ℝ} (hfirst : 0 ≤ first) (goal current : Vec3 ℝ) :
    approachEach goal limit (approachEach goal first current) = approachEach goal (first + limit) current :=
  Vec3.ext (approach_approach hlimit hfirst _ _) (approach_approach hlimit hfirst _ _)
    (approach_approach hlimit hfirst _ _)

theorem approachAlong_straight (goal current : Vec3 ℝ) :
    ∃ share, 0 ≤ share ∧ share ≤ 1 ∧ approachAlong goal limit current = current.lerp goal share ∧
      (approachAlong goal limit current - current).length = min limit (goal - current).length := by
  have hlength := Vec3.length_nonneg (goal - current)
  have hleft : 0 ≤ lessen limit (goal - current).length / (goal - current).length :=
    div_nonneg (le_max_right _ _) hlength
  have hpart : lessen limit (goal - current).length / (goal - current).length ≤ 1 :=
    div_le_one_of_le₀ (lessen_le hlimit hlength) hlength
  refine ⟨1 - lessen limit (goal - current).length / (goal - current).length, sub_nonneg.mpr hpart,
    sub_le_self _ hleft, ?_, ?_⟩
  · rw [approachAlong_share hlimit, Vec3.sub_scale_eq_lerp]
  · rw [approachAlong_share hlimit, Vec3.sub_scale_eq_lerp, Vec3.lerp_sub_left, Vec3.length_scale,
      abs_of_nonneg (sub_nonneg.mpr hpart), sub_mul, one_mul, ← sub_lessen]
    by_cases hthere : (goal - current).length = 0
    · rw [hthere, mul_zero, lessen_eq_zero hlimit]
    · rw [div_mul_cancel₀ _ hthere]

theorem iterate_move {β : Type} {move : ℝ → β → β}
    (hmove : ∀ {first}, 0 ≤ first → ∀ x, move limit (move first x) = move (first + limit) x) {k : ℕ} (hk : 1 ≤ k)
    (x : β) : (move limit)^[k] x = move (k * limit) x := by
  induction k, hk using Nat.le_induction with
  | base => rw [Function.iterate_one, Nat.cast_one, one_mul]
  | succ k _ ih =>
      rw [Function.iterate_succ_apply', ih, hmove (mul_nonneg (Nat.cast_nonneg k) hlimit), Nat.cast_succ,
        add_one_mul]

/-- A step moves an angle, or a point along the straight way, by exactly the limit or by all that is left, and a
number of steps are one step with all their limits. -/
theorem steps_add_up (goal current : Vec3 ℝ) :
    let toward (goal current : ℝ) := current + SignType.sign (goal - current) * min limit |goal - current|
    approachEach goal limit current =
        ⟨toward goal.x current.x, toward goal.y current.y, toward goal.z current.z⟩ ∧
      (∃ share, 0 ≤ share ∧ share ≤ 1 ∧ approachAlong goal limit current = current.lerp goal share ∧
        (approachAlong goal limit current - current).length = min limit (goal - current).length) ∧
      (∀ {α : Type} [Scalar α] (goal current : Vec3 α) (limit : α),
        ((goal - current).length == 0) = true → approachAlong goal limit current = current) ∧
      ∀ k : ℕ, 1 ≤ k →
        (approachEach goal limit)^[k] current = approachEach goal (k * limit) current ∧
          (approachAlong goal limit)^[k] current = approachAlong goal (k * limit) current := by
  refine ⟨?_, approachAlong_straight hlimit goal current, ?_, fun k hk => ⟨?_, ?_⟩⟩
  · exact Vec3.ext (approach_eq hlimit _ _) (approach_eq hlimit _ _) (approach_eq hlimit _ _)
  · intro α _ goal current limit hthere
    rw [approachAlong, if_pos hthere]
  · exact iterate_move hlimit (fun hfirst => approachEach_approachEach hlimit hfirst goal) hk current
  · exact iterate_move hlimit (fun hfirst => approachAlong_approachAlong hlimit hfirst goal) hk current

end Step

theorem approach_of_near {goal limit current : ℝ} (h : |goal - current| ≤ limit) :
    approach goal limit current = goal := by
  rw [approach_share ((abs_nonneg _).trans h), lessen_eq_zero h, zero_div, mul_zero, sub_zero]

theorem steps_add_up_five : (0 : ℝ) ≤ 1 ∧
    (approachAlong (⟨3, 4, 0⟩ : Vec3 ℝ) 1)^[5] ⟨0, 0, 0⟩ = ⟨3, 4, 0⟩ ∧
      (approachEach (⟨3, 4, 0⟩ : Vec3 ℝ) 1)^[5] ⟨0, 0, 0⟩ = ⟨3, 4, 0⟩ := by
  obtain ⟨-, -, -, hsteps⟩ := steps_add_up zero_le_one (⟨3, 4, 0⟩ : Vec3 ℝ) ⟨0, 0, 0⟩
  obtain ⟨heach, halong⟩ := hsteps 5 (by norm_num)
  have hdistance : ((⟨3, 4, 0⟩ : Vec3 ℝ) - ⟨0, 0, 0⟩).length = 5 := by
    have hsum : ((3 - 0) * (3 - 0) + (4 - 0) * (4 - 0) + (0 - 0) * (0 - 0) : ℝ) = 5 ^ 2 := by norm_num
    exact (congrArg Real.sqrt hsum).trans (Real.sqrt_sq (by norm_num))
  refine ⟨zero_le_one, ?_, ?_⟩
  · rw [halong, approachAlong_share (by positivity), hdistance, lessen_eq_zero (by norm_num), zero_div,
      Vec3.sub_scale_zero]
  · rw [heach]
    exact Vec3.ext (approach_of_near (by norm_num)) (approach_of_near (by norm_num))
      (approach_of_near (by norm_num))

end Angle

theorem Blend.step_step {first later : ℝ} (hfirst : 0 ≤ first) (hlater : 0 ≤ later)
    (target current : Controllers ℝ) :
    step later target (step first target current) = step (first + later) target current := by
  apply Controllers.ext_get
  intro c
  simp only [step, Controllers.get_ofFn, stepSlot]
  split
  · rw [add_mul]
    exact Angle.approachAlong_approachAlong (shift_nonneg hlater) (shift_nonneg hfirst) _ _
  · rw [add_mul]
    exact Angle.approachEach_approachEach (turn_nonneg hlater) (turn_nonneg hfirst) _ _

end PlayerAnimation
