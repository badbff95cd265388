import PlayerAnimation.Proofs.Fault
import PlayerAnimation.Proofs.Single.Order
import PlayerAnimation.Stance

namespace PlayerAnimation

namespace StanceTransition

theorem duration_bounds (transition : StanceTransition) : 0 ≤ transition.duration ∧ transition.duration ≤ 400 := by
  cases transition with
  | none | standToCrouch | crouchToProne | proneToCrouch | crouchToStand => decide

variable {transition : StanceTransition} (h : transition ≠ .none)
include h

theorem duration_mem : transition.duration ∈ [150, 400] := by
  cases transition with
  | none => exact absurd rfl h
  | standToCrouch | crouchToProne | proneToCrouch | crouchToStand => decide

theorem duration_pos : 0 < transition.duration := by
  cases transition with
  | none => exact absurd rfl h
  | standToCrouch | crouchToProne | proneToCrouch | crouchToStand => decide

theorem blendTime_pos : 0 < transition.blendTime := by
  cases transition with
  | none => exact absurd rfl h
  | standToCrouch | crouchToProne | proneToCrouch | crouchToStand => decide

example : crouchToProne.blendTime = 231 := by decide

end StanceTransition

namespace StanceTimer

theorem progress_exists {α : Type} [Scalar α] {s : StanceTimer} {time : Int}
    (h : Scalar.holds α (s.finish - time)) : ∃ progress : α, s.progress time = .ok progress := by
  have hsub : Clock.sub α s.finish time = .ok (s.finish - time) := clock_sub_eq_ok.mpr ⟨h, rfl⟩
  rw [progress]
  split
  · exact ⟨0, rfl⟩
  · rw [hsub]
    exact ⟨_, rfl⟩

theorem progress_eq_ok {α : Type} [Scalar α] {s : StanceTimer} {time : Int} {p : α} (hchange : s.transition ≠ .none)
    (hpos : 0 < s.duration) :
    s.progress time = .ok p ↔ Scalar.holds α (s.finish - time) ∧
      1 - Scalar.ofInt (s.finish - time) / Scalar.ofInt s.duration = p := by
  have hruns : ¬ (s.transition = .none ∨ s.duration ≤ 0) := not_or.mpr ⟨hchange, not_le.mpr hpos⟩
  rw [progress, if_neg hruns]
  constructor
  · intro h
    obtain ⟨left, hleft, h⟩ := bind_eq_ok.mp h
    obtain ⟨hholds, rfl⟩ := clock_sub_eq_ok.mp hleft
    exact ⟨hholds, pure_eq_ok.mp h⟩
  · rintro ⟨hholds, rfl⟩
    exact bind_eq_ok.mpr ⟨_, clock_sub_eq_ok.mpr ⟨hholds, rfl⟩, rfl⟩

/-- Rounding makes no transition begin early or end late. -/
theorem progress_away {s : StanceTimer} {time : Int} {p : Float32} (hheld : Scalar.holds Float32 s.duration)
    (haway : time ≤ s.finish - s.duration ∨ s.finish ≤ time) (h : s.progress time = .ok p) :
    p ≤ 0 ∨ 1 ≤ p := by
  by_cases hruns : s.transition = .none ∨ s.duration ≤ 0
  · rw [progress, if_pos hruns] at h
    obtain rfl := pure_eq_ok.mp h
    exact Or.inl (by decide)
  rw [not_or, not_le] at hruns
  obtain ⟨hchange, hpos⟩ := hruns
  obtain ⟨hholds, rfl⟩ := (progress_eq_ok hchange hpos).mp h
  rw [WordClock.holds_iff] at hheld hholds
  have habs : |s.finish - time| ≤ 2 ^ 31 := by
    rw [abs_le]
    omega
  have hfraction := Single.fraction_represents hpos (by omega) habs
  rw [scalar_one]
  rcases haway with hearly | hlate
  · have hrounded := Single.rounded_rest_antitone hpos (show s.duration ≤ s.finish - time by omega)
    rw [Single.share_self hpos, sub_self, Single.rounded_zero] at hrounded
    exact Or.inl (hfraction.le Single.zero_represents hrounded)
  · have hrounded := Single.rounded_rest_antitone hpos (show s.finish - time ≤ 0 by omega)
    rw [Single.share_zero, sub_zero, Single.rounded_one] at hrounded
    exact Or.inr (Single.one_represents.le hfraction hrounded)

end StanceTimer

end PlayerAnimation
