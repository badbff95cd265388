import PlayerAnimation.Blend
import PlayerAnimation.Stance.Start

namespace PlayerAnimation

inductive Call (α : Type)
  | build (frame : Frame) (host : Host α) (es : EntityState α) (ci : ClientInfo α) (neutral : Bool)
  | pose (frame : Frame) (host : Host α) (es : EntityState α) (ci : ClientInfo α) (tuning : Tuning α)
  | start (frame : Frame) (host : Host α) (ci : ClientInfo α) (body : Body) (number : AnimNum)
  | reset

inductive Outcome (α : Type)
  | built (target : Controllers α) (edits : List HostEdit)
  | posed (target : Controllers α) (client : ClientInfo α) (bones : List (BoneWrite α))
      (edits : List HostEdit) (events : List PoseEvent)
  | started (transition : StanceTransition) (client : ClientInfo α) (events : List PoseEvent)
  | done

namespace Store

variable {α : Type} [Scalar α]

def call (s : Store α) : Call α → Except Fault (Outcome α × Store α)
  | .build frame host es ci neutral => do
      let built ← buildTarget frame host s es ci neutral
      pure (.built built.target built.edits, built.store)
  | .pose frame host es ci tuning => do
      let posed ← poseController frame host s es ci tuning
      pure (.posed posed.target posed.client posed.bones posed.edits posed.events, posed.store)
  | .start frame host ci body number => do
      let started ← startAnimation frame host s ci body number
      pure (.started started.transition started.client started.events, started.store)
  | .reset => pure (.done, fresh)

def run (s : Store α) : List (Call α) → Except Fault (List (Outcome α) × Store α)
  | [] => pure ([], s)
  | call :: calls => do
      let (outcome, s) ← s.call call
      let (outcomes, s) ← s.run calls
      pure (outcome :: outcomes, s)

theorem run_append (s : Store α) (calls calls' : List (Call α)) :
    s.run (calls ++ calls') = (do
      let (outcomes, s) ← s.run calls
      let (outcomes', s) ← s.run calls'
      pure (outcomes ++ outcomes', s)) := by
  induction calls generalizing s with
  | nil => simp [run]
  | cons call calls ih => simp [run, ih]

end Store

end PlayerAnimation
