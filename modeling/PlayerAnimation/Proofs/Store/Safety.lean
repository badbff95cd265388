import PlayerAnimation.Proofs.Blend.Steady
import PlayerAnimation.Proofs.Stance
import PlayerAnimation.Proofs.Store.Timers

namespace PlayerAnimation

variable {α : Type} [Scalar α]

/-- The clock can hold what is recorded about a player, and the time between it and any other time. -/
structure InTime (d : PlayerData α) : Prop extends Timed d where
  stanceEnd : 0 ≤ d.stance.finish ∧ d.stance.finish ≤ 0x7fffffff
  blendEnd : 0 ≤ d.movementEnd ∧ d.movementEnd ≤ 0x7fffffff

namespace InTime

theorem fresh : InTime (PlayerData.fresh : PlayerData α) where
  toTimed := .fresh
  stanceEnd := by simp [PlayerData.fresh, StanceTimer.initial]
  blendEnd := by simp [PlayerData.fresh]

theorem fresh_entry (key : PlayerKey) : InTime ((Store.fresh : Store α).entry key) := by
  rw [Store.entry_fresh]
  exact fresh

variable {d d' : PlayerData α} {time : Int}

theorem edit (h0 : 0 ≤ time) (h1 : time ≤ 0x7fffffff - 400) (hedit : Edit time d d') (h : InTime d) :
    InTime d' := by
  refine ⟨h.toTimed.edit hedit, ?_, ?_⟩
  · rw [edits_stance (.single hedit)]
    exact h.stanceEnd
  · cases hedit with
    | classify | settle => exact h.blendEnd
    | restart pose hne hduration =>
        -- The duration is the one that is recorded; the default, which is used without one, never is.
        have hbounds := h.bounds
        obtain rfl := hduration (h.positive hne)
        dsimp only
        omega

theorem keeps (h0 : 0 ≤ time) (h1 : time ≤ 0x7fffffff - 400) :
    Keeps (InTime : PlayerData α → Prop) time where
  edit _ _ := edit h0 h1
  stance d transition h := by
    have hbounds := transition.duration_bounds
    refine ⟨(Timed.keeps time).stance d transition h.toTimed, ?_, h.blendEnd⟩
    rw [StanceTimer.startedAt]
    dsimp only
    omega

end InTime

section Calls

variable [WordClock α]

theorem stance_start_ok {time : Int} (h0 : 0 ≤ time) (h1 : time ≤ 0x7fffffff - 400)
    (transition : StanceTransition) : ∃ timer, StanceTimer.start α transition time = .ok timer := by
  have hbounds := transition.duration_bounds
  have hadd : Clock.add α time transition.duration = .ok (time + transition.duration) := by
    rw [clock_add_eq_ok, WordClock.holds_iff]
    omega
  rw [StanceTimer.start, hadd]
  exact ⟨_, rfl⟩

variable {frame : Frame} {s : Store α} {ci : ClientInfo α} {key : PlayerKey} (host : Host α)
  (es : EntityState α) (hkey : PlayerKey.of ci.clientNum frame.role = .ok key) (h0 : 0 ≤ frame.time)
  (h1 : frame.time ≤ 0x7fffffff - 400)
include hkey h0 h1

theorem buildTarget_ok (hs : InTime (s.entry key)) (neutral : Bool) :
    ∃ built, buildTarget frame host s es ci neutral = .ok built := by
  obtain ⟨progress, hprogress⟩ : ∃ progress : α, (s.entry key).stance.progress frame.time = .ok progress := by
    have hend := hs.stanceEnd
    apply StanceTimer.progress_exists
    rw [WordClock.holds_iff]
    omega
  rw [buildTarget]
  split
  · exact ⟨_, rfl⟩
  split
  · exact ⟨_, rfl⟩
  dsimp only
  split
  · rw [hkey]
    simp only [bind, Except.bind, hprogress]
    exact ⟨_, rfl⟩
  · exact ⟨_, rfl⟩

theorem poseController_ok (hs : InTime (s.entry key)) (tuning : Tuning α) :
    ∃ posed, poseController frame host s es ci tuning = .ok posed := by
  obtain ⟨built, hbuilt⟩ := buildTarget_ok host es hkey h0 h1 hs tuning.neutral
  have hbuild : InTime (built.store.entry key) :=
    edits_keep (buildTarget_edits hbuilt key) (InTime.keeps h0 h1).edit hs
  obtain ⟨begun, events, hbegin, -⟩ := begin_ok (built.store.entry key) ci.control h0 h1
    fun hne => ⟨hbuild.positive hne, hbuild.bounds.2⟩
  have hbegun : InTime begun := edits_keep (begin_edits hbegin) (InTime.keeps h0 h1).edit hbuild
  -- How far the blend is gets computed even when none starts, from an end recorded at any earlier time.
  obtain ⟨progress, hprogress⟩ := progress_ok begun frame.time hbegun.blendEnd (by omega)
  rw [poseController_eq, hbuilt, hkey]
  simp only [bind, Except.bind, hbegin, hprogress]
  split
  · exact ⟨_, rfl⟩
  · exact ⟨_, rfl⟩

theorem startAnimation_ok (body : Body) (number : AnimNum) :
    ∃ started, startAnimation frame host s ci body number = .ok started := by
  obtain ⟨timer, htimer⟩ : ∃ timer, StanceTimer.start α
      (Started.stanceChange frame host (ci.lerpFrame body) body number) frame.time = .ok timer :=
    stance_start_ok h0 h1 _
  rw [startAnimation]
  split
  · exact ⟨_, rfl⟩
  dsimp only
  split
  · exact ⟨_, rfl⟩
  · rw [hkey]
    simp only [bind, Except.bind, htimer]
    exact ⟨_, rfl⟩

end Calls

end PlayerAnimation
