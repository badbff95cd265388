import PlayerAnimation.Proofs.Angle.Swing

namespace PlayerAnimation.SwingAngle

open Angle

variable {destination tolerance limit speed duration : ℝ}

noncomputable def way (s : SwingAngle ℝ) (destination : ℝ) : ℝ := |diff destination s.angle|

theorem half_le_pace (away tolerance : ℝ) : 1 / 2 ≤ pace away tolerance := by
  rw [pace]
  split
  · rw [Exact.ofScientific_eq]
    norm_num
  split
  · rw [Exact.one_eq]
    norm_num
  · rw [Exact.ofNat_eq]
    norm_num

theorem move_cases (s : SwingAngle ℝ) (destination tolerance : ℝ) (hspeed : 0 ≤ speed * duration) :
    s.move destination tolerance speed duration = still (wrap360 destination) ∨
      ∃ step, speed * duration / 2 ≤ step ∧ step < s.way destination ∧
        (s.move destination tolerance speed duration).swinging = true ∧
        (s.move destination tolerance speed duration).way destination = s.way destination - step := by
  obtain ⟨hlow, hhigh⟩ := diff_mem destination s.angle
  have hpace := half_le_pace (diff destination s.angle) tolerance
  have harrived := wrap360_add_diff destination s.angle
  rw [move]
  generalize pace (diff destination s.angle) tolerance = scale at hpace ⊢
  have hhalf : speed * duration / 2 ≤ duration * scale * speed := by nlinarith
  simp only [Exact.zero_eq, harrived]
  split
  · next hright =>
      split
      · exact Or.inl rfl
      · next hshort =>
          rw [not_le] at hshort
          have hleft : diff destination (s.angle + duration * scale * speed) =
              diff destination s.angle - duration * scale * speed :=
            diff_add (by linarith) (by linarith)
          refine Or.inr ⟨duration * scale * speed, hhalf, ?_, rfl, ?_⟩
          · rwa [way, abs_of_nonneg hright]
          · rw [way, diff_wrap360, hleft, way, abs_of_nonneg hright, abs_of_nonneg (by linarith)]
  · next hright =>
      rw [not_le] at hright
      split
      · exact Or.inl rfl
      · next hshort =>
          rw [mul_neg, not_le] at hshort
          have hleft : diff destination (s.angle + duration * scale * -speed) =
              diff destination s.angle - duration * scale * -speed :=
            diff_add (by linarith) (by linarith)
          refine Or.inr ⟨duration * scale * speed, hhalf, ?_, rfl, ?_⟩
          · rw [way, abs_of_neg hright]
            linarith
          · rw [way, diff_wrap360, hleft, way, abs_of_neg hright, abs_of_neg (by linarith)]
            ring

theorem hold_of_near {angle : ℝ} (h : |diff destination angle| ≤ limit) : hold angle destination limit = angle := by
  obtain ⟨hlow, hhigh⟩ := abs_le.mp h
  rw [hold, if_neg (not_lt.mpr hhigh), if_neg (not_lt.mpr hlow)]

theorem hold_le (hlimit : 1 / 2 ≤ limit) (destination angle : ℝ) :
    |diff destination (hold angle destination limit)| ≤ |diff destination angle| := by
  obtain h | h := le_total |diff destination angle| limit
  · rw [hold_of_near h]
  · exact (hold_close hlimit angle).trans h

theorem swing_cases {s : SwingAngle ℝ} (hawake : s.awake destination tolerance = true) (hlimit : 1 / 2 ≤ limit)
    (hspeed : 0 ≤ speed * duration) :
    s.swing destination tolerance limit speed duration = still (wrap360 destination) ∨
      (s.swing destination tolerance limit speed duration).swinging = true ∧
        speed * duration / 2 < s.way destination ∧
        (s.swing destination tolerance limit speed duration).way destination ≤
          s.way destination - speed * duration / 2 := by
  rw [swing, if_pos hawake]
  obtain harrived | ⟨step, hhalf, hshort, hswinging, hway⟩ := s.move_cases destination tolerance hspeed
  · -- What has arrived is not held back: it is no way from the destination.
    have hthere : |diff destination (wrap360 destination)| ≤ limit := by
      rw [diff_wrap360, diff_self, abs_zero]
      linarith
    rw [harrived]
    exact Or.inl (SwingAngle.ext (hold_of_near hthere) rfl)
  · refine Or.inr ⟨hswinging, hhalf.trans_lt hshort, ?_⟩
    have hheld := hold_le hlimit destination (s.move destination tolerance speed duration).angle
    exact hheld.trans (hway.trans_le (by linarith))

theorem swing_way_le (s : SwingAngle ℝ) (hlimit : 1 / 2 ≤ limit) (hspeed : 0 ≤ speed * duration) :
    (s.swing destination tolerance limit speed duration).way destination ≤ s.way destination := by
  by_cases hawake : s.awake destination tolerance = true
  · obtain harrived | ⟨-, -, hway⟩ := swing_cases hawake hlimit hspeed
    · rw [harrived, way, still, diff_wrap360, diff_self, abs_zero]
      exact abs_nonneg _
    · exact hway.trans (by linarith)
  · rw [swing, if_neg hawake]

theorem swing_arrived (htolerance : 0 ≤ tolerance) (speed duration : ℝ) :
    (still (wrap360 destination)).swing destination tolerance limit speed duration =
      still (wrap360 destination) := by
  apply swing_of_near rfl
  rwa [abs_diff_comm, still, diff_wrap360, diff_self, abs_zero]

/-- If each step of a swinging angle brings it to rest or takes at least `part` off the way, it swings until
it rests, and it rests once `part` has been taken off the way often enough. -/
theorem iterate_rests {next : SwingAngle ℝ → SwingAngle ℝ} {rest : SwingAngle ℝ} {part : ℝ}
    (hrest : Function.IsFixedPt next rest)
    (hnext : ∀ s, s.swinging = true → next s = rest ∨ (next s).swinging = true ∧
      part < s.way destination ∧ (next s).way destination ≤ s.way destination - part)
    {s : SwingAngle ℝ} (hswinging : s.swinging = true) {n : ℕ} (hway : s.way destination ≤ (n + 1) * part) :
    ∃ last ≤ n, (∀ m ≤ last, (next^[m] s).swinging = true) ∧ ∀ m > last, next^[m] s = rest := by
  have hnow {s : SwingAngle ℝ} (hswinging : s.swinging = true) (h : next s = rest) :
      (∀ m ≤ 0, (next^[m] s).swinging = true) ∧ ∀ m > 0, next^[m] s = rest := by
    refine ⟨fun m hm => ?_, fun m hm => ?_⟩
    · rwa [Nat.le_zero.mp hm]
    · obtain ⟨m, rfl⟩ := Nat.exists_eq_succ_of_ne_zero hm.ne'
      rw [Function.iterate_succ_apply, h]
      exact (hrest.iterate m).eq
  -- The bound is counted down along the run, so the angle that the run starts from changes with it.
  induction n generalizing s with
  | zero =>
      obtain h | ⟨-, hfar, -⟩ := hnext s hswinging
      · exact ⟨0, le_rfl, hnow hswinging h⟩
      · rw [Nat.cast_zero, zero_add, one_mul] at hway
        exact absurd hway (not_le.mpr hfar)
  | succ n ih =>
      obtain h | ⟨hgoes, -, hless⟩ := hnext s hswinging
      · exact ⟨0, Nat.zero_le _, hnow hswinging h⟩
      · rw [Nat.cast_succ, add_one_mul] at hway
        obtain ⟨last, hlast, hbefore, hafter⟩ := ih hgoes (by linarith)
        refine ⟨last + 1, Nat.succ_le_succ hlast, fun m hm => ?_, fun m hm => ?_⟩
        · cases m with
          | zero => exact hswinging
          | succ m => exact hbefore m (Nat.le_of_succ_le_succ hm)
        · cases m with
          | zero => exact absurd hm (Nat.not_lt_zero _)
          | succ m => exact hafter m (Nat.lt_of_succ_lt_succ hm)

/-- No swing leads away from the destination, and one that ends has arrived. An angle on its way swings
until it arrives, within a number of calls that the way and the speed tell, and after that nothing changes. -/
theorem swing_approaches (s : SwingAngle ℝ) (destination : ℝ) (htolerance : 0 ≤ tolerance)
    (hlimit : 1 / 2 ≤ limit) (hspeed : 0 ≤ speed * duration) :
    let next (s : SwingAngle ℝ) := s.swing destination tolerance limit speed duration
    |diff (next s).angle destination| ≤ |diff s.angle destination| ∧
      (s.swinging = true ∨ tolerance < |diff s.angle destination| → (next s).swinging = false →
        (next s).angle = wrap360 destination) ∧
      (s.swinging = true → 0 < speed * duration →
        ∃ n ≤ max 1 ⌈|diff s.angle destination| / (speed * duration / 2)⌉₊, 0 < n ∧
          (∀ m < n, (next^[m] s).swinging = true) ∧
          ∀ m ≥ n, next^[m] s = still (wrap360 destination)) := by
  intro next
  have hway (s : SwingAngle ℝ) : |diff s.angle destination| = s.way destination := abs_diff_comm _ _
  rw [hway, hway]
  refine ⟨s.swing_way_le hlimit hspeed, fun hstarts hended => ?_, fun hswinging hpos => ?_⟩
  · rw [← hway, ← awake_iff] at hstarts
    obtain harrived | ⟨hgoes, -, -⟩ := swing_cases hstarts hlimit hspeed
    · exact congrArg angle harrived
    · exact absurd (hended.symm.trans hgoes) Bool.false_ne_true
  · obtain ⟨n, hn, henough⟩ := Exact.exists_calls (s.way destination / (speed * duration / 2))
    rw [div_le_iff₀ (by positivity)] at henough
    have hrest : Function.IsFixedPt next (still (wrap360 destination)) :=
      swing_arrived htolerance speed duration
    obtain ⟨last, hlast, hbefore, hafter⟩ := iterate_rests hrest
      (fun s hs => swing_cases (awake_iff.mpr (Or.inl hs)) hlimit hspeed) hswinging henough
    rw [← hn]
    exact ⟨last + 1, Nat.succ_le_succ hlast, Nat.succ_pos last,
      fun m hm => hbefore m (Nat.le_of_lt_succ hm), fun m hm => hafter m hm⟩

theorem swing_approaches_acrossZero :
    let next (s : SwingAngle ℝ) := s.swing 100 40 45 0.1 50
    |diff (next ⟨350, true⟩).angle 100| ≤ 110 ∧
      ∃ n ≤ 44, ∀ m ≥ n, next^[m] ⟨350, true⟩ = still 100 := by
  intro next
  have haway : |diff (350 : ℝ) 100| = 110 := by
    have hmod : (100 : ℝ) - 350 ≡ 110 [PMOD 360] := AddCommGroup.modEq_iff_zsmul.mpr ⟨1, by norm_num⟩
    rw [abs_diff_comm, diff_eq_of_modEq hmod (by norm_num) (by norm_num)]
    norm_num
  have hself : wrap360 (100 : ℝ) = 100 := by
    rw [wrap360_eq, toIcoMod_eq_self]
    norm_num
  obtain ⟨hnear, -, hstops⟩ := swing_approaches ⟨350, true⟩ 100 (by norm_num : (0 : ℝ) ≤ 40)
    (by norm_num : (1 / 2 : ℝ) ≤ 45) (by norm_num : (0 : ℝ) ≤ 0.1 * 50)
  rw [haway] at hnear hstops
  obtain ⟨n, hn, -, -, hafter⟩ := hstops rfl (by norm_num)
  rw [hself] at hafter
  have hcalls : max 1 ⌈(110 : ℝ) / (0.1 * 50 / 2)⌉₊ = 44 := by norm_num
  exact ⟨hnear, n, hcalls ▸ hn, hafter⟩

end PlayerAnimation.SwingAngle
