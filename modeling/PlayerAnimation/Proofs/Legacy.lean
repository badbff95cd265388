import PlayerAnimation.Proofs.Playing

namespace PlayerAnimation

variable {α : Type} [Scalar α]

/-- What a player aims at with the original animations, and what the game is told. -/
def Target.plain (role : Role) (moveTypes : MoveTypes) (es : EntityState α) (ci : ClientInfo α)
    (neutral : Bool) : Controllers α × List HostEdit :=
  if neutral && role = .server then (.zero, [.resetAnimations es.clientNum])
  else if es.onMountedGun then (.zero, [])
  else (base es ci moveTypes, [])

def Started.plain (host : Host α) (ci : ClientInfo α) (body : Body) (number : AnimNum) : ClientInfo α :=
  if ignores host number then ci
  else ci.setLerpFrame body
    (play (ci.lerpFrame body) number (blend host (ci.lerpFrame body) body number .none))

section Pass

variable {frame : Frame} {host : Host α} {s : Store α} {es : EntityState α} {ci : ClientInfo α}
  (hlegacy : frame.compat = .legacy)
include hlegacy

theorem buildTarget_plain (neutral : Bool) :
    buildTarget frame host s es ci neutral =
      .ok ⟨(Target.plain frame.role (host.moveTypes ci) es ci neutral).1, s,
        (Target.plain frame.role (host.moveTypes ci) es ci neutral).2⟩ := by
  have hplain : ¬ frame.compat.isEnhanced := by
    rw [hlegacy]
    exact Bool.false_ne_true
  rw [buildTarget, Target.plain]
  dsimp only
  rw [if_neg hplain]
  split
  · rfl
  split
  · rfl
  · rfl

theorem poseController_plain (tuning : Tuning α) :
    poseController frame host s es ci tuning =
      let (target, edits) := Target.plain frame.role (host.moveTypes ci) es ci tuning.neutral
      let control := Blend.step (Scalar.ofInt frame.frameTime) target ci.control
      .ok ⟨target, { ci with control }, s, control.writes, edits, []⟩ := by
  have hplain : ¬ frame.compat.isEnhanced := by
    rw [hlegacy]
    exact Bool.false_ne_true
  rw [poseController_eq, buildTarget_plain hlegacy]
  exact if_neg hplain

theorem startAnimation_plain (body : Body) (number : AnimNum) :
    startAnimation frame host s ci body number = .ok ⟨.none, s, Started.plain host ci body number, []⟩ := by
  rw [Started.plain]
  by_cases hignored : Started.ignores host number
  · rw [startAnimation_ignored hignored, if_pos hignored]
  · rw [if_neg hignored]
    rw [Started.ignores] at hignored
    rw [startAnimation, if_neg hignored]
    dsimp only
    rw [Started.stanceChange_none (Or.inl hlegacy), if_pos rfl]
    rfl

end Pass

end PlayerAnimation
