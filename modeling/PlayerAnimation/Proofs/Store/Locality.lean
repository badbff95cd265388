import PlayerAnimation.Proofs.Blend.Writing
import PlayerAnimation.Proofs.Fault
import PlayerAnimation.Store.Call

namespace PlayerAnimation

variable {α : Type}

namespace Store

@[simp] theorem put_entry (s : Store α) (key : PlayerKey) : s.put key (s.entry key) = s := by
  apply ext_entry
  intro other
  by_cases h : other = key
  · rw [h, entry_put_self]
  · exact entry_put_of_ne s h _

@[simp] theorem put_put (s : Store α) (key : PlayerKey) (data data' : PlayerData α) :
    (s.put key data).put key data' = s.put key data' := by
  apply ext_entry
  intro other
  by_cases h : other = key
  · rw [h, entry_put_self, entry_put_self]
  · rw [entry_put_of_ne _ h, entry_put_of_ne _ h, entry_put_of_ne _ h]

theorem put_comm (s : Store α) {key key' : PlayerKey} (h : key ≠ key') (data data' : PlayerData α) :
    (s.put key data).put key' data' = (s.put key' data').put key data := by
  apply ext_entry
  intro other
  by_cases ho : other = key
  · subst ho
    rw [entry_put_of_ne _ h, entry_put_self, entry_put_self]
  · by_cases ho' : other = key'
    · subst ho'
      rw [entry_put_self, entry_put_of_ne _ ho, entry_put_self]
    · rw [entry_put_of_ne _ ho', entry_put_of_ne _ ho, entry_put_of_ne _ ho, entry_put_of_ne _ ho']

end Store

def PlayerKey.first (role : Role) : PlayerKey := ⟨⟨0, Nat.succ_pos 63⟩, role⟩

theorem PlayerKey.of_client (key : PlayerKey) : PlayerKey.of key.client key.role = .ok key := by
  rw [PlayerKey.of, dif_pos key.client.isLt]

section Scene

variable [Scalar α]

def Host.twoStances : Host α :=
  .ofScript #[⟨"", .empty, .empty, 0, 0⟩, ⟨"", .idle, .empty, 0, 0⟩, ⟨"", .idleCrouch, .empty, 0, 0⟩] .idle
    false

def ClientInfo.playing (clientNum : Nat) (number : AnimNum) : ClientInfo α :=
  (initial clientNum).setLerpFrame .legs (Started.play .initial number 0)

end Scene

section Passes

variable [Scalar α] {frame : Frame} {host : Host α} {ci : ClientInfo α} {key : PlayerKey} {s t : Store α}

theorem buildTarget_local (hk : PlayerKey.of ci.clientNum frame.role = .ok key)
    (h : s.entry key = t.entry key) (es : EntityState α) (neutral : Bool) :
    buildTarget frame host s es ci neutral =
      (buildTarget frame host t es ci neutral).map fun built =>
        { built with store := s.put key (built.store.entry key) } := by
  rw [buildTarget, buildTarget]
  split
  · simp [pure, Except.pure, Except.map, ← h]
  split
  · simp [pure, Except.pure, Except.map, ← h]
  dsimp only
  split
  · rw [hk]
    simp only [bind, Except.bind, ← h]
    cases (s.entry key).stance.progress (α := α) frame.time with
    | error e => rfl
    | ok p => simp [pure, Except.pure, Except.map]
  · simp [pure, Except.pure, Except.map, ← h]

theorem poseController_local (hk : PlayerKey.of ci.clientNum frame.role = .ok key)
    (h : s.entry key = t.entry key) (es : EntityState α) (tuning : Tuning α) :
    poseController frame host s es ci tuning =
      (poseController frame host t es ci tuning).map fun posed =>
        { posed with store := s.put key (posed.store.entry key) } := by
  rw [poseController_eq, poseController_eq, buildTarget_local hk h]
  cases buildTarget frame host t es ci tuning.neutral with
  | error e => rfl
  | ok built =>
      simp only [Except.map, bind, Except.bind, hk]
      split
      · simp only [Store.entry_put_self]
        cases Blend.begin (built.store.entry key) frame.time ci.control with
        | error e => rfl
        | ok begun =>
            dsimp only
            cases Blend.progress? begun.1 frame.time with
            | error e => rfl
            | ok progress => simp [pure, Except.pure]
      · rfl

theorem poseController_other {es : EntityState α} {tuning : Tuning α} {posed : Posed α}
    (h : poseController frame host s es ci tuning = .ok posed) (hk : PlayerKey.of ci.clientNum frame.role = .ok key)
    {other : PlayerKey} (ho : other ≠ key) : posed.store.entry other = s.entry other := by
  rw [poseController_local hk rfl] at h
  obtain ⟨_, -, rfl⟩ := map_eq_ok.mp h
  exact Store.entry_put_of_ne s ho _

theorem startAnimation_local (hk : PlayerKey.of ci.clientNum frame.role = .ok key)
    (h : s.entry key = t.entry key) (body : Body) (number : AnimNum) :
    startAnimation frame host s ci body number =
      (startAnimation frame host t ci body number).map fun started =>
        { started with store := s.put key (started.store.entry key) } := by
  rw [startAnimation, startAnimation]
  split
  · simp [pure, Except.pure, Except.map, ← h]
  dsimp only
  split
  · simp [pure, Except.pure, Except.map, ← h]
  · rw [hk]
    simp only [bind, Except.bind, ← h]
    cases StanceTimer.start α (Started.stanceChange frame host (ci.lerpFrame body) body number) frame.time with
    | error e => rfl
    | ok timer => simp [pure, Except.pure, Except.map]

end Passes

end PlayerAnimation
