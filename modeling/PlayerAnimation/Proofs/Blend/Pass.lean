import PlayerAnimation.Proofs.Fault
import PlayerAnimation.Proofs.Store.Locality

namespace PlayerAnimation

/-- An enhanced pass over a player, with all that it is given apart from the store. -/
structure Pass (α : Type) where
  time : Int
  frameTime : Int
  host : Host α
  es : EntityState α
  ci : ClientInfo α
  tuning : Tuning α

structure Stride (α : Type) where
  target : Controllers α
  control : Controllers α
  data : PlayerData α

namespace Blend

variable {α : Type} [Scalar α]

theorem begin_same {d begun : PlayerData α} {time : Int} {pose : Controllers α} {events : List PoseEvent}
    (h : begin d time pose = .ok (begun, events)) (hm : d.movement = d.movementLast) : begun = d := by
  rw [begin, if_pos hm] at h
  exact (Prod.mk.inj (pure_eq_ok.mp h)).1.symm

theorem begin_started {d begun : PlayerData α} {time : Int} {pose : Controllers α}
    {events : List PoseEvent} (h : begin d time pose = .ok (begun, events)) (hm : d.movement ≠ d.movementLast) :
    ∃ duration, 0 < duration ∧ (0 < d.movementTime → duration = d.movementTime) ∧
      begun = { d with
        movementLast := d.movement
        movementTime := duration
        movementEnd := time + duration
        movementRunning := true
        movementStart := pose } := by
  rw [begin, if_neg hm] at h
  obtain ⟨finish, hfinish, h⟩ := bind_eq_ok.mp h
  obtain ⟨-, rfl⟩ := clock_add_eq_ok.mp hfinish
  refine ⟨if d.movementTime ≤ 0 then defaultTime else d.movementTime, ?_, ?_, ?_⟩
  · split
    · decide
    · omega
  · intro hpos
    exact if_neg (by omega)
  · exact (Prod.mk.inj (pure_eq_ok.mp h)).1.symm

theorem finish_eq (d : PlayerData α) (progress : Option α) (time : Int) :
    ∃ running, (finish d progress time).1 = { d with movementRunning := running } := by
  rw [finish]
  split
  · exact ⟨_, rfl⟩
  · exact ⟨d.movementRunning, rfl⟩

end Blend

namespace Pass

variable {α : Type} (key : PlayerKey) (p : Pass α)

def frame : Frame := ⟨key.role, .enhanced, p.time, p.frameTime⟩

def client : ClientInfo α := { p.ci with clientNum := key.client }

/-- Whether the pass records what the player is doing. -/
def classifies : Bool := !(p.tuning.neutral && key.role = .server) && !p.es.onMountedGun

variable [Scalar α]

def enhanced : Enhanced α :=
  .of p.host p.es (p.client key) (Target.base p.es (p.client key) (p.host.moveTypes (p.client key)))

def note (d : PlayerData α) : PlayerData α :=
  if p.classifies key then
    { d with movement := (p.enhanced key).movement, movementTime := (p.enhanced key).blendTime }
  else d

def build (stance : StanceTimer) : Except Fault (Controllers α) :=
  if p.classifies key then do
    let progress ← stance.progress p.time
    pure (Enhanced.inTransition stance.transition progress (p.enhanced key).pose)
  else pure .zero

def tuned (target : Controllers α) : Controllers α :=
  match p.tuning.offsets with
  | some offsets => target + offsets
  | none => target

/-- The pass as a function of the data of the player. -/
def stride (d : PlayerData α) : Except Fault (Stride α) := do
  let target ← p.build key d.stance
  let (begun, _) ← Blend.begin (p.note key d) p.time p.ci.control
  let progress ← Blend.progress? begun p.time
  pure
    { target := p.tuned target
      control := Blend.advance begun progress (Scalar.ofInt p.frameTime) (p.tuned target) p.ci.control
      data := (Blend.finish begun progress p.time).1 }

def pose (s : Store α) : Except Fault (Posed α) :=
  poseController (p.frame key) p.host s p.es (p.client key) p.tuning

theorem note_kept (d : PlayerData α) :
    (p.note key d).stance = d.stance ∧ (p.note key d).movementLast = d.movementLast ∧
      (p.note key d).movementEnd = d.movementEnd := by
  rw [note]
  split
  · exact ⟨rfl, rfl, rfl⟩
  · exact ⟨rfl, rfl, rfl⟩

theorem build_initial : ∃ target, p.build key .initial = .ok target := by
  rw [build]
  split
  · exact ⟨_, rfl⟩
  · exact ⟨_, rfl⟩

theorem buildTarget_eq (s : Store α) :
    (buildTarget (p.frame key) p.host s p.es (p.client key) p.tuning.neutral).map
        (fun built => (built.target, built.store.entry key)) =
      (p.build key (s.entry key).stance).map fun target => (target, p.note key (s.entry key)) := by
  have hk : PlayerKey.of (p.client key).clientNum (p.frame key).role = .ok key := PlayerKey.of_client key
  have hneutral : (p.tuning.neutral && decide ((p.frame key).role = .server)) =
      (p.tuning.neutral && decide (key.role = .server)) := rfl
  have htime : (p.frame key).time = p.time := rfl
  rw [buildTarget, build, note, classifies, hneutral]
  cases p.tuning.neutral && decide (key.role = .server) with
  | true => rfl
  | false =>
      cases p.es.onMountedGun with
      | true => rfl
      | false =>
          simp only [hk, htime, bind, Except.bind]
          cases (s.entry key).stance.progress (α := α) p.time with
          | error e => rfl
          | ok progress =>
              refine congrArg Except.ok (Prod.ext rfl ?_)
              exact Store.entry_put_self s key _

theorem pose_stride (s : Store α) :
    (p.pose key s).map
        (fun posed => (⟨posed.target, posed.client.control, posed.store.entry key⟩ : Stride α)) =
      p.stride key (s.entry key) := by
  have hk : PlayerKey.of (p.client key).clientNum (p.frame key).role = .ok key := PlayerKey.of_client key
  have henh : (p.frame key).compat.isEnhanced = true := rfl
  have htime : (p.frame key).time = p.time := rfl
  have hcontrol : (p.client key).control = p.ci.control := rfl
  have hb := p.buildTarget_eq key s
  simp only [pose, poseController_eq, stride, bind, Except.bind]
  cases hbuild : p.build key (s.entry key).stance with
  | error e =>
      rw [hbuild] at hb
      cases hbt : buildTarget (p.frame key) p.host s p.es (p.client key) p.tuning.neutral with
      | error e' =>
          rw [hbt] at hb
          exact congrArg _ (Except.error.inj hb)
      | ok built =>
          rw [hbt] at hb
          cases hb
  | ok target =>
      rw [hbuild] at hb
      obtain ⟨built, hbt, he⟩ := map_eq_ok.mp hb
      have htarget : built.target = target := congrArg Prod.fst he
      have hentry : built.store.entry key = p.note key (s.entry key) := congrArg Prod.snd he
      subst htarget
      rw [hbt, ← hentry]
      simp only [hk, henh, htime, hcontrol, if_true]
      cases Blend.begin (built.store.entry key) p.time p.ci.control with
      | error e => rfl
      | ok begun =>
          dsimp only
          cases Blend.progress? begun.1 p.time with
          | error e => rfl
          | ok progress =>
              have hset := Store.entry_put_self built.store key (Blend.finish begun.1 progress p.time).1
              exact congrArg (fun data => Except.ok (Stride.mk _ _ data)) hset

end Pass

end PlayerAnimation
