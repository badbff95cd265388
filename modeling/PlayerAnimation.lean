import PlayerAnimation.Game.Operation
import PlayerAnimation.Main
import PlayerAnimation.Proofs.Fault
import PlayerAnimation.Proofs.Text
import PlayerAnimation.Proofs.Text.Words
import PlayerAnimation.Proofs.Number.Lists
import PlayerAnimation.Proofs.Flags.Bits
import PlayerAnimation.Proofs.Flags.Text
import PlayerAnimation.Proofs.Blend.Writing
import PlayerAnimation.Proofs.Store.Locality
import PlayerAnimation.Proofs.Store.Session
import PlayerAnimation.Proofs.Single.Rounding
import PlayerAnimation.Proofs.Single.Unpacked
import PlayerAnimation.Proofs.Single.Arithmetic
import PlayerAnimation.Proofs.Single.Order
import PlayerAnimation.Proofs.Single.Kinds
import PlayerAnimation.Proofs.Blend.Time
import PlayerAnimation.Proofs.Blend.Pass
import PlayerAnimation.Proofs.Blend.Steady
import PlayerAnimation.Proofs.Blend.Duration
import PlayerAnimation.Proofs.Exact
import PlayerAnimation.Proofs.Angle.Rotation
import PlayerAnimation.Proofs.Angle.Distance
import PlayerAnimation.Proofs.Angle.Swing
import PlayerAnimation.Proofs.Angle.Arrival
import PlayerAnimation.Proofs.Facing
import PlayerAnimation.Proofs.Facing.Level
import PlayerAnimation.Proofs.Rotation
import PlayerAnimation.Proofs.Blend.Line
import PlayerAnimation.Proofs.Target
import PlayerAnimation.Proofs.Store.Edit
import PlayerAnimation.Proofs.Store.HostEdits
import PlayerAnimation.Proofs.Store.Timers
import PlayerAnimation.Proofs.Console
import PlayerAnimation.Proofs.Game.Step
import PlayerAnimation.Proofs.Game.Variables
import PlayerAnimation.Proofs.Game.Setting
import PlayerAnimation.Proofs.Config
import PlayerAnimation.Proofs.Game.Merge
import PlayerAnimation.Proofs.Number.Plain
import PlayerAnimation.Proofs.Number.Double
import PlayerAnimation.Proofs.Number.Shortest
import PlayerAnimation.Proofs.Config.Number
import PlayerAnimation.Proofs.Game.Numbers
import PlayerAnimation.Proofs.Blend.Signals
import PlayerAnimation.Proofs.Game.Switch
import PlayerAnimation.Proofs.Store.Safety
import PlayerAnimation.Proofs.Game.Safety
import PlayerAnimation.Proofs.Movement
import PlayerAnimation.Proofs.Movement.Direction
import PlayerAnimation.Proofs.Movement.Range
import PlayerAnimation.Proofs.Playing
import PlayerAnimation.Proofs.Legacy
import PlayerAnimation.Proofs.Game.Legacy
import PlayerAnimation.Proofs.Blend.Approach
import PlayerAnimation.Proofs.Blend.Settle
import PlayerAnimation.Proofs.Angle.Steps
import PlayerAnimation.Proofs.Game.Blends
import PlayerAnimation.Proofs.Stance
import PlayerAnimation.Proofs.Target.Enhanced
import PlayerAnimation.Proofs.Target.Flattening
import PlayerAnimation.Proofs.Target.Footprint
import PlayerAnimation.Proofs.Target.Pitch
import PlayerAnimation.Proofs.Target.Transition
import PlayerAnimation.Proofs.Facing.Range
import PlayerAnimation.Proofs.Stance.Fraction
