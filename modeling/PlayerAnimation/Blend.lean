import PlayerAnimation.Target.Enhanced

namespace PlayerAnimation

structure Tuning (α : Type) where
  neutral : Bool
  offsets : Option (Controllers α)
deriving DecidableEq

namespace Blend

open Angle

variable {α : Type} [Scalar α]

def turnPerMs : α := 0.36

def shiftPerMs : α := 0.1

def defaultTime : Int := 300

def stepSlot (duration : α) (c : Controller) (target current : Vec3 α) : Vec3 α :=
  if c = .originOffset then approachAlong target (duration * shiftPerMs) current
  else approachEach target (duration * turnPerMs) current

def step (duration : α) (target current : Controllers α) : Controllers α :=
  .ofFn fun c => stepSlot duration c (target.get c) (current.get c)

def lerp (start target : Controllers α) (fraction : α) : Controllers α :=
  .ofFn fun c => (start.get c).lerp (target.get c) fraction

def begin (data : PlayerData α) (time : Int) (pose : Controllers α) :
    Except Fault (PlayerData α × List PoseEvent) :=
  if data.movement = data.movementLast then pure (data, [])
  else do
    let duration := if data.movementTime ≤ 0 then defaultTime else data.movementTime
    let finish ← Clock.add α time duration
    pure
      ({ data with
          movementLast := data.movement
          movementTime := duration
          movementEnd := finish
          movementRunning := true
          movementStart := pose },
        [.movementChanged time data.movement duration])

def progress? (data : PlayerData α) (time : Int) : Except Fault (Option α) :=
  if 0 < data.movementTime then do
    let left ← Clock.sub α data.movementEnd time
    pure (some (1 - Scalar.ofInt left / Scalar.ofInt data.movementTime))
  else pure none

def isOver (progress : Option α) : Bool := progress.all fun p => 1 < p

def advance (data : PlayerData α) (progress : Option α) (duration : α)
    (target current : Controllers α) : Controllers α :=
  match progress with
  | some p =>
      if 0 ≤ p && p ≤ 1 then lerp data.movementStart target p else step duration target current
  | none => step duration target current

structure Writing (α : Type) where
  pose : Controllers α
  writes : List (BoneWrite α)

namespace Writing

variable {α : Type}

def start (pose : Controllers α) : Writing α := ⟨pose, []⟩

def move (w : Writing α) (c : Controller) (f : Vec3 α → Vec3 α) : Writing α :=
  { w with pose := w.pose.set c (f (w.pose.get c)) }

def writeBone (w : Writing α) (c : Controller) : Writing α :=
  { w with writes := w.writes ++ [.bone c (w.pose.get c)] }

def visit (w : Writing α) (c : Controller) (f : Vec3 α → Vec3 α) : Writing α :=
  let moved := w.move c f
  if c.isOrigin then moved else moved.writeBone c

def visitEach (w : Writing α) (cs : List Controller) (f : Controller → Vec3 α → Vec3 α) : Writing α :=
  cs.foldl (fun w c => w.visit c (f c)) w

def writeOrigin (w : Writing α) : Writing α :=
  { w with writes := w.writes ++ [.origin w.pose.originOffset w.pose.originAngles] }

end Writing

def stepEach (duration : α) (target current : Controllers α) : Writing α :=
  let turn := duration * turnPerMs
  let shift := duration * shiftPerMs
  let bones := Controller.bones.foldl
    (fun (w : Writing α) c => (w.move c (approachEach (target.get c) turn)).writeBone c)
    (.start current)
  let turned := bones.move .originAngles (approachEach target.originAngles turn)
  (turned.move .originOffset (approachAlong target.originOffset shift)).writeOrigin

def advanceSlot (data : PlayerData α) (progress : Option α) (duration : α) (c : Controller)
    (target current : Vec3 α) : Vec3 α :=
  match progress with
  | some p =>
      if 0 ≤ p && p ≤ 1 then (data.movementStart.get c).lerp target p
      else stepSlot duration c target current
  | none => stepSlot duration c target current

def advanceEach (data : PlayerData α) (progress : Option α) (duration : α)
    (target current : Controllers α) : Writing α :=
  ((Writing.start current).visitEach Controller.all fun c =>
    advanceSlot data progress duration c (target.get c)).writeOrigin

def finish (data : PlayerData α) (progress : Option α) (time : Int) :
    PlayerData α × List PoseEvent :=
  if data.movementRunning && isOver progress then
    ({ data with movementRunning := false }, [.movementFinished time])
  else (data, [])

end Blend

structure Posed (α : Type) where
  target : Controllers α
  client : ClientInfo α
  store : Store α
  bones : List (BoneWrite α)
  edits : List HostEdit
  events : List PoseEvent

open Blend in
/-- Moves the pose of a player towards its target and writes it to the model. Without the enhanced
animations it moves by steps of limited size. With them, a change of what the player does starts a blend
in a straight line; once that is over, the pose goes on by steps. -/
def poseController {α : Type} [Scalar α] (frame : Frame) (host : Host α) (store : Store α)
    (es : EntityState α) (ci : ClientInfo α) (tuning : Tuning α) : Except Fault (Posed α) := do
  let built ← buildTarget frame host store es ci tuning.neutral
  let duration := Scalar.ofInt frame.frameTime
  if frame.compat.isEnhanced then
    let target := match tuning.offsets with
      | some offsets => built.target + offsets
      | none => built.target
    let key ← PlayerKey.of ci.clientNum frame.role
    let (data, begun) ← begin (built.store.entry key) frame.time ci.control
    let progress ← progress? data frame.time
    let shown := advanceEach data progress duration target ci.control
    let (data, finished) := finish data progress frame.time
    pure
      { target
        client := { ci with control := shown.pose }
        store := built.store.put key data
        bones := shown.writes
        edits := built.edits
        events := begun ++ finished }
  else
    let shown := stepEach duration built.target ci.control
    pure
      { target := built.target
        client := { ci with control := shown.pose }
        store := built.store
        bones := shown.writes
        edits := built.edits
        events := [] }

end PlayerAnimation
