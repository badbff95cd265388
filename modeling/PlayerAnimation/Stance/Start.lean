import PlayerAnimation.Store

namespace PlayerAnimation

structure Started (α : Type) where
  transition : StanceTransition
  store : Store α
  client : ClientInfo α
  events : List PoseEvent

namespace Started

variable {α : Type} [Scalar α]

def neutralBlend : Int := 200

def moves (animation : Option (Animation α)) : Bool :=
  animation.any fun a => a.moveSpeed != 0

def minBlend (current next : Option (Animation α)) : Int :=
  if moves next then 120 else if moves current then 250 else 170

def plainBlend (current next : Option (Animation α)) : Int :=
  let asked := (next.map Animation.initialLerp).getD neutralBlend
  if next.isNone || asked ≤ 0 then max asked (minBlend current next) else asked

def play (lf : LerpFrame α) (number : AnimNum) (blend : Int) : LerpFrame α :=
  { lf with
    animationTime := blend
    animationNumber := number
    animation := if 0 < number.index then some number.index else none }

/-- The change of stance that an accepted animation makes. Only the legs change the stance, only with the
enhanced animations, and not with the first animation or the neutral one. -/
def stanceChange (frame : Frame) (host : Host α) (lf : LerpFrame α) (body : Body) (number : AnimNum) :
    StanceTransition :=
  if frame.compat.isEnhanced && body = .legs && lf.animation.isSome && 0 < number.index then
    .classify host lf.animationNumber ⟨number.index⟩
  else .none

def blend (host : Host α) (lf : LerpFrame α) (body : Body) (number : AnimNum)
    (change : StanceTransition) : Int :=
  if lf.animation.isNone && body = .legs then 0
  else if change ≠ .none then change.blendTime
  else
    plainBlend (lf.animation.bind host.animation)
      (if 0 < number.index then host.animation number.index else none)

end Started

open Started in
def startAnimation {α : Type} [Scalar α] (frame : Frame) (host : Host α) (store : Store α)
    (ci : ClientInfo α) (body : Body) (number : AnimNum) : Except Fault (Started α) :=
  if 0 < number.index && (host.animation number.index).isNone then pure ⟨.none, store, ci, []⟩
  else do
    let lf := ci.lerpFrame body
    let change := stanceChange frame host lf body number
    let played := ci.setLerpFrame body (play lf number (blend host lf body number change))
    if change = .none then pure ⟨change, store, played, []⟩
    else do
      let key ← PlayerKey.of ci.clientNum frame.role
      let timer ← StanceTimer.start α change frame.time
      pure
        { transition := change
          store := store.put key { store.entry key with stance := timer }
          client := played
          events := [.stanceTransition frame.role ci.clientNum change timer.finish] }

end PlayerAnimation
