import PlayerAnimation.Blend
import PlayerAnimation.Proofs.Exact

namespace PlayerAnimation

noncomputable def lessen (part way : ℝ) : ℝ := max (way - part) 0

section Lessen

variable {part way : ℝ}

theorem lessen_le (hpart : 0 ≤ part) (hway : 0 ≤ way) : lessen part way ≤ way :=
  max_le (sub_le_self _ hpart) hway

theorem lessen_zero (hway : 0 ≤ way) : lessen 0 way = way := by
  rw [lessen, sub_zero, max_eq_left hway]

theorem lessen_eq_zero (h : way ≤ part) : lessen part way = 0 := max_eq_right (sub_nonpos.mpr h)

theorem lessen_of_le (h : part ≤ way) : lessen part way = way - part := max_eq_left (sub_nonneg.mpr h)

theorem lessen_lessen (hpart : 0 ≤ part) (before : ℝ) :
    lessen part (lessen before way) = lessen (before + part) way := by
  obtain h | h := le_total way before
  · rw [lessen_eq_zero h, lessen_eq_zero hpart, lessen_eq_zero (h.trans (le_add_of_nonneg_right hpart))]
  · rw [lessen_of_le h, lessen, lessen, sub_sub]

end Lessen

namespace Vec3

variable (a : Vec3 ℝ)

theorem length_nonneg : 0 ≤ a.length := Real.sqrt_nonneg _

theorem length_eq_zero (h : a.length = 0) : a = ⟨0, 0, 0⟩ := by
  have hx := mul_self_nonneg a.x
  have hy := mul_self_nonneg a.y
  have hz := mul_self_nonneg a.z
  have hsum : a.x * a.x + a.y * a.y + a.z * a.z = 0 :=
    (Real.sqrt_eq_zero (add_nonneg (add_nonneg hx hy) hz)).mp h
  rw [add_eq_zero_iff_of_nonneg (add_nonneg hx hy) hz, add_eq_zero_iff_of_nonneg hx hy] at hsum
  obtain ⟨⟨hx, hy⟩, hz⟩ := hsum
  exact Vec3.ext (mul_self_eq_zero.mp hx) (mul_self_eq_zero.mp hy) (mul_self_eq_zero.mp hz)

theorem length_scale (k : ℝ) : (a.scale k).length = |k| * a.length := by
  have hsum : a.x * k * (a.x * k) + a.y * k * (a.y * k) + a.z * k * (a.z * k) =
      k ^ 2 * (a.x * a.x + a.y * a.y + a.z * a.z) := by
    ring
  calc (a.scale k).length = √(k ^ 2 * (a.x * a.x + a.y * a.y + a.z * a.z)) := congrArg Real.sqrt hsum
    _ = |k| * a.length := by rw [Real.sqrt_mul (sq_nonneg k), Real.sqrt_sq_eq_abs]; rfl

theorem length_sub_self : (a - a).length = 0 := by
  have hsum (x y z : ℝ) : (x - x) * (x - x) + (y - y) * (y - y) + (z - z) * (z - z) = 0 := by ring
  exact (congrArg Real.sqrt (hsum a.x a.y a.z)).trans Real.sqrt_zero

variable {a} {b : Vec3 ℝ}

theorem eq_of_length_sub (h : (a - b).length = 0) : a = b := by
  have hsub := length_eq_zero _ h
  have hx : a.x - b.x = 0 := congrArg Vec3.x hsub
  have hy : a.y - b.y = 0 := congrArg Vec3.y hsub
  have hz : a.z - b.z = 0 := congrArg Vec3.z hsub
  exact Vec3.ext (sub_eq_zero.mp hx) (sub_eq_zero.mp hy) (sub_eq_zero.mp hz)

end Vec3

namespace Angle

variable {limit : ℝ}

theorem approach_left (hlimit : 0 ≤ limit) (goal current : ℝ) :
    |goal - approach goal limit current| = lessen limit |goal - current| := by
  rw [approach]
  split
  · next h =>
      have hfar : 0 ≤ goal - current := hlimit.trans h.le
      rw [abs_of_nonneg hfar, lessen_of_le h.le, abs_of_nonneg (by linarith : 0 ≤ goal - (current + limit))]
      ring
  · next h =>
      split
      · next h' =>
          have hfar : goal - current ≤ 0 := by linarith
          rw [abs_of_nonpos hfar, lessen_of_le (by linarith), abs_of_nonpos (by linarith)]
          ring
      · next h' =>
          have hnear : |goal - current| ≤ limit := abs_le.mpr ⟨not_lt.mp h', not_lt.mp h⟩
          rw [lessen_eq_zero hnear, sub_self, abs_zero]

theorem approachAlong_left (hlimit : 0 ≤ limit) (goal current : Vec3 ℝ) :
    (goal - approachAlong goal limit current).length = lessen limit (goal - current).length := by
  rw [approachAlong]
  split
  · next h =>
      have hthere : (goal - current).length = 0 := by simpa using h
      rw [hthere, lessen_eq_zero hlimit]
  split
  · next h =>
      -- The step goes along the way that is left, so it leaves a multiple of it.
      have hlength : 0 < (goal - current).length := hlimit.trans_lt h
      have hline (x y k : ℝ) : x - (y + (x - y) * k) = (x - y) * (1 - k) := by ring
      have hleft : goal - (current + (goal - current).scale (limit / (goal - current).length)) =
          (goal - current).scale (1 - limit / (goal - current).length) :=
        Vec3.ext (hline _ _ _) (hline _ _ _) (hline _ _ _)
      have hshare : 0 ≤ 1 - limit / (goal - current).length := sub_nonneg.mpr ((div_le_one hlength).mpr h.le)
      rw [hleft, Vec3.length_scale, abs_of_nonneg hshare, lessen_of_le h.le, sub_mul, one_mul,
        div_mul_cancel₀ _ hlength.ne']
  · next h =>
      rw [lessen_eq_zero (not_lt.mp h), Vec3.length_sub_self]

end Angle

namespace Blend

def turning : List Controller := Controller.bones ++ [.originAngles]

/-- How far each component of each rotation is from the target. -/
noncomputable def turnsLeft (target current : Controllers ℝ) : List ℝ :=
  turning.flatMap fun c =>
    [|(target.get c).x - (current.get c).x|, |(target.get c).y - (current.get c).y|,
      |(target.get c).z - (current.get c).z|]

noncomputable def largest (ways : List ℝ) : ℝ := ways.foldr max 0

noncomputable def shiftLeft (target current : Controllers ℝ) : ℝ :=
  (target.originOffset - current.originOffset).length

theorem le_largest {way : ℝ} {ways : List ℝ} (h : way ∈ ways) : way ≤ largest ways := by
  induction ways with
  | nil => cases h
  | cons first ways ih =>
      obtain rfl | h := List.mem_cons.mp h
      · exact le_max_left _ _
      · exact (ih h).trans (le_max_right _ _)

theorem shiftLeft_nonneg (target current : Controllers ℝ) : 0 ≤ shiftLeft target current :=
  Vec3.length_nonneg _

section Arrived

variable {target current : Controllers ℝ}

theorem turnsLeft_nonneg {way : ℝ} (h : way ∈ turnsLeft target current) : 0 ≤ way := by
  obtain ⟨c, -, hway⟩ := List.mem_flatMap.mp h
  simp only [List.mem_cons, List.not_mem_nil, or_false] at hway
  obtain rfl | rfl | rfl := hway
  · exact abs_nonneg _
  · exact abs_nonneg _
  · exact abs_nonneg _

theorem turned_of_turnsLeft (h : ∀ way ∈ turnsLeft target current, way = 0) {c : Controller}
    (hc : c ∈ turning) : current.get c = target.get c := by
  have hway {x y : ℝ} (hmem : |x - y| ∈ turnsLeft target current) : y = x :=
    (sub_eq_zero.mp (abs_eq_zero.mp (h _ hmem))).symm
  apply Vec3.ext
  · exact hway (List.mem_flatMap.mpr ⟨c, hc, by simp⟩)
  · exact hway (List.mem_flatMap.mpr ⟨c, hc, by simp⟩)
  · exact hway (List.mem_flatMap.mpr ⟨c, hc, by simp⟩)

theorem turnsLeft_self {way : ℝ} (h : way ∈ turnsLeft target target) : way = 0 := by
  obtain ⟨c, -, hway⟩ := List.mem_flatMap.mp h
  simpa only [sub_self, abs_zero, List.mem_cons, List.not_mem_nil, or_false, or_self] using hway

theorem mem_turning {c : Controller} (h : c ≠ .originOffset) : c ∈ turning := by
  cases c with
  | originOffset => exact absurd rfl h
  | _ => decide

theorem arrived (hturns : ∀ way ∈ turnsLeft target current, way = 0) (hshift : shiftLeft target current = 0) :
    current = target := by
  apply Controllers.ext_get
  intro c
  by_cases hc : c = .originOffset
  · rw [hc]
    exact (Vec3.eq_of_length_sub hshift).symm
  · exact turned_of_turnsLeft hturns (mem_turning hc)

end Arrived

section Step

variable {duration : ℝ} (hduration : 0 ≤ duration) (target current : Controllers ℝ)
include hduration

theorem turn_nonneg : 0 ≤ duration * turnPerMs := by
  have hturn : (0 : ℝ) ≤ turnPerMs := by
    rw [turnPerMs, Exact.ofScientific_eq]
    positivity
  exact mul_nonneg hduration hturn

theorem shift_nonneg : 0 ≤ duration * shiftPerMs := by
  have hshift : (0 : ℝ) ≤ shiftPerMs := by
    rw [shiftPerMs, Exact.ofScientific_eq]
    positivity
  exact mul_nonneg hduration hshift

theorem turnsLeft_step :
    turnsLeft target (step duration target current) =
      (turnsLeft target current).map (lessen (duration * turnPerMs)) := by
  rw [turnsLeft, turnsLeft, List.map_flatMap]
  apply List.flatMap_congr
  intro c hc
  have hne : c ≠ .originOffset := by
    rintro rfl
    revert hc
    decide
  have hstep : (step duration target current).get c =
      Angle.approachEach (target.get c) (duration * turnPerMs) (current.get c) := by
    rw [step, Controllers.get_ofFn, stepSlot, if_neg hne]
  rw [hstep]
  have hleft := Angle.approach_left (turn_nonneg hduration)
  simp only [List.map_cons, List.map_nil, ← hleft]
  rfl

theorem shiftLeft_step :
    shiftLeft target (step duration target current) =
      lessen (duration * shiftPerMs) (shiftLeft target current) :=
  Angle.approachAlong_left (shift_nonneg hduration) _ _

theorem step_self : step duration target target = target := by
  apply arrived
  · intro way hway
    rw [turnsLeft_step hduration] at hway
    obtain ⟨start, hstart, rfl⟩ := List.mem_map.mp hway
    rw [turnsLeft_self hstart, lessen_eq_zero (turn_nonneg hduration)]
  · rw [shiftLeft_step hduration, shiftLeft, Vec3.length_sub_self, lessen_eq_zero (shift_nonneg hduration)]

theorem turnsLeft_le :
    List.Forall₂ (· ≤ ·) (turnsLeft target (step duration target current)) (turnsLeft target current) := by
  rw [turnsLeft_step hduration, List.forall₂_map_left_iff, List.forall₂_same]
  intro way hway
  exact lessen_le (turn_nonneg hduration) (turnsLeft_nonneg hway)

theorem left_iterate (n : ℕ) :
    turnsLeft target ((step duration target)^[n] current) =
        (turnsLeft target current).map (lessen (n * (duration * turnPerMs))) ∧
      shiftLeft target ((step duration target)^[n] current) =
        lessen (n * (duration * shiftPerMs)) (shiftLeft target current) := by
  have hturn := turn_nonneg hduration
  have hshift := shift_nonneg hduration
  induction n with
  | zero =>
      rw [Nat.cast_zero, zero_mul, zero_mul, lessen_zero (shiftLeft_nonneg _ _)]
      refine ⟨?_, rfl⟩
      have hsame := List.map_congr_left fun way (hway : way ∈ turnsLeft target current) =>
        lessen_zero (turnsLeft_nonneg hway)
      exact (hsame.trans (List.map_id' _)).symm
  | succ n ih =>
      obtain ⟨hturns, hshifts⟩ := ih
      rw [Function.iterate_succ_apply', turnsLeft_step hduration, shiftLeft_step hduration, hturns, hshifts,
        lessen_lessen hshift, List.map_map, Nat.cast_succ, add_one_mul, add_one_mul]
      refine ⟨?_, rfl⟩
      exact List.map_congr_left fun way _ => lessen_lessen hturn _

theorem arrives {n : ℕ} (hturns : largest (turnsLeft target current) ≤ n * (duration * turnPerMs))
    (hshift : shiftLeft target current ≤ n * (duration * shiftPerMs)) :
    (step duration target)^[n] current = target := by
  obtain ⟨hturned, hshifted⟩ := left_iterate hduration target current n
  apply arrived
  · intro way hway
    rw [hturned] at hway
    obtain ⟨start, hstart, rfl⟩ := List.mem_map.mp hway
    exact lessen_eq_zero ((le_largest hstart).trans hturns)
  · rw [hshifted, lessen_eq_zero hshift]

end Step

end Blend

/-- From a frame on, the pose is the target and nothing changes any more. No enhanced blend is under way. -/
structure Settled (compat : Compat) (key : PlayerKey) (posed : ℕ → Posed ℝ) (n : ℕ) : Prop where
  arrived : ∀ m, n ≤ m → (posed m).client.control = (posed m).target
  still : ∀ m, n ≤ m → (posed m).target = (posed n).target ∧
    (posed m).client.control = (posed n).client.control ∧
    (posed m).store.entry key = (posed n).store.entry key
  idle : compat = .enhanced → ∀ m, n ≤ m → ((posed m).store.entry key).movementRunning = false

/-- From its first frame on, a pose goes by steps to one target, and what is recorded stays. -/
structure Stepping (key : PlayerKey) (duration : ℝ) (target start : Controllers ℝ) (data : PlayerData ℝ)
    (posed : ℕ → Posed ℝ) : Prop where
  aimed : ∀ n, (posed n).target = target
  first : (posed 0).client.control = Blend.step duration target start
  next : ∀ n, (posed (n + 1)).client.control = Blend.step duration target (posed n).client.control
  entry : ∀ n, (posed n).store.entry key = data

namespace Stepping

open Blend

variable {key : PlayerKey} {duration : ℝ} {target start : Controllers ℝ} {data : PlayerData ℝ}
  {posed : ℕ → Posed ℝ}

theorem control (h : Stepping key duration target start data posed) (n : ℕ) :
    (posed n).client.control = (step duration target)^[n + 1] start := by
  induction n with
  | zero => exact h.first
  | succ n ih => rw [h.next, ih, Function.iterate_succ_apply' _ (n + 1)]

theorem arrives (h : Stepping key duration target start data posed) (hduration : 0 < duration) {n : ℕ}
    (hn : max (largest (turnsLeft target start) / (0.36 * duration))
      (shiftLeft target start / (0.1 * duration)) ≤ n + 1) :
    (posed n).client.control = target := by
  obtain ⟨hturns, hshift⟩ := max_le_iff.mp hn
  rw [div_le_iff₀ (by positivity)] at hturns hshift
  rw [h.control]
  apply Blend.arrives hduration.le
  · calc largest (turnsLeft target start) ≤ (n + 1) * (0.36 * duration) := hturns
      _ = ((n + 1 : ℕ) : ℝ) * (duration * turnPerMs) := by
        rw [turnPerMs, Exact.ofScientific_eq]
        push_cast
        ring
  · calc shiftLeft target start ≤ (n + 1) * (0.1 * duration) := hshift
      _ = ((n + 1 : ℕ) : ℝ) * (duration * shiftPerMs) := by
        rw [shiftPerMs, Exact.ofScientific_eq]
        push_cast
        ring

theorem stays (h : Stepping key duration target start data posed) (hduration : 0 < duration) {n m : ℕ}
    (hn : (posed n).client.control = target) (hm : n ≤ m) : (posed m).client.control = target := by
  induction m, hm using Nat.le_induction with
  | base => exact hn
  | succ m _ ih => rw [h.next, ih, step_self hduration.le]

theorem settled {compat : Compat} {first n : ℕ}
    (h : Stepping key duration target start data fun k => posed (first + k)) (hduration : 0 < duration)
    (hover : compat = .enhanced → data.movementRunning = false)
    (hn : (posed (first + n)).client.control = target) : Settled compat key posed (first + n) := by
  have hlater {m : ℕ} (hm : first + n ≤ m) : ∃ k, n ≤ k ∧ first + k = m := ⟨m - first, by omega, by omega⟩
  refine ⟨?_, ?_, ?_⟩
  · intro m hm
    obtain ⟨k, hk, rfl⟩ := hlater hm
    exact (h.stays hduration hn hk).trans (h.aimed k).symm
  · intro m hm
    obtain ⟨k, hk, rfl⟩ := hlater hm
    exact ⟨(h.aimed k).trans (h.aimed n).symm, (h.stays hduration hn hk).trans hn.symm,
      (h.entry k).trans (h.entry n).symm⟩
  · intro henhanced m hm
    obtain ⟨k, -, rfl⟩ := hlater hm
    rw [h.entry k]
    exact hover henhanced

theorem settles {compat : Compat} {first : ℕ}
    (h : Stepping key duration target start data fun k => posed (first + k)) (hduration : 0 < duration)
    (hover : compat = .enhanced → data.movementRunning = false) :
    ∃ n < max 1 ⌈max (largest (turnsLeft target start) / (0.36 * duration))
      (shiftLeft target start / (0.1 * duration))⌉₊, Settled compat key posed (first + n) := by
  obtain ⟨n, hn, henough⟩ := Exact.exists_calls (max (largest (turnsLeft target start) / (0.36 * duration))
    (shiftLeft target start / (0.1 * duration)))
  exact ⟨n, by omega, h.settled hduration hover (h.arrives hduration henough)⟩

end Stepping

end PlayerAnimation
