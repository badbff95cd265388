import PlayerAnimation.Proofs.Blend.Pass
import PlayerAnimation.Proofs.Blend.Time

namespace PlayerAnimation

variable {α : Type}

structure Steady (d : PlayerData α) : Prop where
  stance : d.stance = .initial
  settled : d.movement = d.movementLast
  duration : 0 ≤ d.movementTime ∧ d.movementTime ≤ 400
  finish : 0 ≤ d.movementEnd ∧ d.movementEnd ≤ 0x7fffffff

variable [Scalar α]

/-- What a pass changes: a blend that starts ends after the time that is noted for it, and otherwise only
that time is replaced. -/
structure Noted (key : PlayerKey) (p : Pass α) (before after : PlayerData α) : Prop where
  movement : after.movement = (p.note key before).movement
  duration : after.movementTime = (p.note key before).movementTime
  finish : after.movementEnd =
    if after.movement = before.movementLast then before.movementEnd else p.time + after.movementTime

theorem fresh_steady (key : PlayerKey) : Steady ((Store.fresh : Store α).entry key) := by
  rw [Store.entry_fresh]
  exact ⟨rfl, rfl, by simp [PlayerData.fresh], by simp [PlayerData.fresh]⟩

variable (key : PlayerKey) (p : Pass α) {d : PlayerData α}

theorem note_duration (hd : Steady d) :
    0 ≤ (p.note key d).movementTime ∧ (p.note key d).movementTime ≤ 400 ∧
      ((p.note key d).movement ≠ d.movementLast → p.classifies key ∧ 0 < (p.note key d).movementTime) := by
  rw [Pass.note]
  cases p.classifies key with
  | true =>
      have hb : 0 < (p.enhanced key).blendTime ∧ (p.enhanced key).blendTime ≤ 400 :=
        Enhanced.of_time_bounds _ _ _ _
      exact ⟨Int.le_of_lt hb.1, hb.2, fun _ => ⟨rfl, hb.1⟩⟩
  | false => exact ⟨hd.duration.1, hd.duration.2, fun h => absurd hd.settled h⟩

theorem note_movement_ne (hc : p.classifies key) : (p.note key d).movement ≠ .empty := by
  rw [Pass.note, if_pos hc]
  exact Enhanced.of_movement_ne _ _ _ _

theorem Noted.starts {key : PlayerKey} {p : Pass α} {before after : PlayerData α}
    (h : Noted key p before after) (hb : Steady before) (hs : after.movement ≠ before.movementLast) :
    p.classifies key ∧ 0 < after.movementTime ∧ after.movementTime ≤ 400 ∧
      after.movementEnd = p.time + after.movementTime := by
  obtain ⟨-, hhigh, hstart⟩ := note_duration key p hb
  rw [← h.movement, ← h.duration] at hstart
  rw [← h.duration] at hhigh
  obtain ⟨hclass, hpos⟩ := hstart hs
  exact ⟨hclass, hpos, hhigh, by rw [h.finish, if_neg hs]⟩

variable [WordClock α] {time : Int}

theorem progress_some (h : 0 < d.movementTime) (hd : 0 ≤ d.movementEnd ∧ d.movementEnd ≤ 0x7fffffff)
    (ht : 0 ≤ time ∧ time ≤ 0x7fffffff) :
    Blend.progress? d time =
      .ok (some (1 - Scalar.ofInt (d.movementEnd - time) / Scalar.ofInt d.movementTime)) := by
  have hsub : Clock.sub α d.movementEnd time = .ok (d.movementEnd - time) := by
    rw [clock_sub_eq_ok, WordClock.holds_iff]
    omega
  rw [Blend.progress?, if_pos h, hsub]
  rfl

theorem progress_ok (d : PlayerData α) (time : Int)
    (hd : 0 ≤ d.movementEnd ∧ d.movementEnd ≤ 0x7fffffff) (ht : 0 ≤ time ∧ time ≤ 0x7fffffff) :
    ∃ progress, Blend.progress? d time = .ok progress := by
  by_cases h : 0 < d.movementTime
  · exact ⟨_, progress_some h hd ht⟩
  · exact ⟨none, if_neg h⟩

theorem begin_ok (d : PlayerData α) (pose : Controllers α) (h0 : 0 ≤ time) (h1 : time ≤ 0x7fffffff - 400)
    (hd : d.movement ≠ d.movementLast → 0 < d.movementTime ∧ d.movementTime ≤ 400) :
    ∃ begun events, Blend.begin d time pose = .ok (begun, events) ∧ begun.stance = d.stance ∧
      begun.movement = d.movement ∧ begun.movementLast = d.movement ∧
      begun.movementTime = d.movementTime ∧
      begun.movementEnd = if d.movement = d.movementLast then d.movementEnd else time + d.movementTime := by
  rw [Blend.begin]
  by_cases hm : d.movement = d.movementLast
  · rw [if_pos hm]
    exact ⟨_, _, rfl, rfl, rfl, hm.symm, rfl, by rw [if_pos hm]⟩
  · obtain ⟨hpos, hle⟩ := hd hm
    have hadd : Clock.add α time d.movementTime = .ok (time + d.movementTime) := by
      rw [clock_add_eq_ok, WordClock.holds_iff]
      omega
    rw [if_neg hm, if_neg (by omega)]
    dsimp only
    rw [hadd]
    exact ⟨_, _, rfl, rfl, rfl, rfl, rfl, by rw [if_neg hm]⟩

theorem stride_noted (hd : Steady d) (h0 : 0 ≤ p.time) (h1 : p.time ≤ 0x7fffffff - 400) :
    ∃ stride, p.stride key d = .ok stride ∧ Steady stride.data ∧ Noted key p d stride.data := by
  obtain ⟨hlow, hhigh, hstart⟩ := note_duration key p hd
  obtain ⟨hstance, hlast, hend⟩ := p.note_kept key d
  obtain ⟨target, htarget⟩ := p.build_initial key
  obtain ⟨begun, events, hb, hs, hm, hl, ht, he⟩ := begin_ok (p.note key d) p.ci.control h0 h1
    (by rw [hlast]; exact fun h => ⟨(hstart h).2, hhigh⟩)
  rw [hlast, hend] at he
  have hbounds : 0 ≤ begun.movementEnd ∧ begun.movementEnd ≤ 0x7fffffff := by
    rw [he]
    have := hd.finish
    split <;> omega
  obtain ⟨progress, hp⟩ := progress_ok begun p.time hbounds (by omega)
  obtain ⟨running, hr⟩ := Blend.finish_eq begun progress p.time
  refine ⟨_, by rw [Pass.stride, hd.stance, htarget, hb]; simp only [bind, Except.bind, hp]; rfl, ?_, ?_⟩
  · rw [hr]
    exact ⟨by rw [hs, hstance, hd.stance], by rw [hm, hl], by rw [ht]; exact ⟨hlow, hhigh⟩, hbounds⟩
  · rw [hr]
    exact ⟨hm, ht, by rw [he, hm, ht]⟩

end PlayerAnimation
