import PlayerAnimation.Proofs.Store.Edit

namespace PlayerAnimation

variable {α : Type}

/-- Whether the legs of a player throw a grenade with the animation of another stance. -/
def Enhanced.ThrowsOffStance (host : Host α) (es : EntityState α) (ci : ClientInfo α) : Prop :=
  ∃ legs, ci.legs.animation.bind host.animation = some legs ∧
    (legs.name = "pb_stand_grenade_throw" ∧ (es.isProne = true ∨ es.isCrouching = true) ∨
      legs.name = "pb_crouch_grenade_throw" ∧ es.isCrouching = false)

theorem Enhanced.throwMismatch_iff {host : Host α} {es : EntityState α} {ci : ClientInfo α} :
    throwMismatch host es ci = true ↔ ThrowsOffStance host es ci := by
  rw [throwMismatch, ThrowsOffStance, Option.any_eq_true]
  simp only [Bool.or_eq_true, Bool.and_eq_true, beq_iff_eq, Bool.not_eq_true']

instance (host : Host α) (es : EntityState α) (ci : ClientInfo α) : Decidable (Enhanced.ThrowsOffStance host es ci) :=
  decidable_of_iff _ Enhanced.throwMismatch_iff

/-- What the game is told when a target is built for a player. -/
def HostEdit.due (frame : Frame) (host : Host α) (es : EntityState α) (ci : ClientInfo α) (neutral : Bool) :
    List HostEdit :=
  if neutral = true ∧ frame.role = .server then [.resetAnimations es.clientNum]
  else if frame.role = .server ∧ frame.compat = .enhanced ∧ es.onMountedGun = false ∧
      Enhanced.ThrowsOffStance host es ci then [.clearLegsTimer es.clientNum]
  else []

theorem HostEdit.due_of_harmless {frame : Frame} {neutral : Bool}
    (h : frame.role = .client ∨ frame.compat = .legacy ∧ neutral = false) (host : Host α) (es : EntityState α)
    (ci : ClientInfo α) : due frame host es ci neutral = [] := by
  rw [due]
  obtain hclient | ⟨hlegacy, hneutral⟩ := h
  · have hrole : frame.role ≠ .server := by rw [hclient]; decide
    rw [if_neg fun h => hrole h.2, if_neg fun h => hrole h.1]
  · have hcompat : frame.compat ≠ .enhanced := by rw [hlegacy]; decide
    rw [hneutral, if_neg fun h => Bool.false_ne_true h.1, if_neg fun h => hcompat h.2.1]

section Passes

variable [Scalar α] {frame : Frame} {host : Host α} {s : Store α} {es : EntityState α} {ci : ClientInfo α}

theorem buildTarget_due {neutral : Bool} {built : Built α}
    (h : buildTarget frame host s es ci neutral = .ok built) :
    built.edits = HostEdit.due frame host es ci neutral := by
  by_cases hneutral : (neutral && frame.role = .server) = true
  · rw [buildTarget, if_pos hneutral] at h
    obtain rfl := pure_eq_ok.mp h
    rw [HostEdit.due, if_pos (by simpa using hneutral)]
  · rw [buildTarget, if_neg hneutral] at h
    rw [HostEdit.due, if_neg (by simpa using hneutral)]
    split at h
    · next hgun =>
        obtain rfl := pure_eq_ok.mp h
        rw [if_neg fun hclear => Bool.false_ne_true (hclear.2.2.1.symm.trans hgun)]
    · next hafoot =>
        have hfree : es.onMountedGun = false := (Bool.not_eq_true _).mp hafoot
        dsimp only at h
        split at h
        · next hcompat =>
            have henhanced : frame.compat = .enhanced := Compat.isEnhanced_iff.mp hcompat
            obtain ⟨key, -, h⟩ := bind_eq_ok.mp h
            obtain ⟨progress, -, h⟩ := bind_eq_ok.mp h
            obtain rfl := pure_eq_ok.mp h
            simp only [Bool.and_eq_true, decide_eq_true_eq, Enhanced.throwMismatch_iff, henhanced, hfree, true_and]
        · next hplain =>
            obtain rfl := pure_eq_ok.mp h
            rw [if_neg fun hclear => hplain (Compat.isEnhanced_iff.mpr hclear.2.1)]

theorem poseController_due {tuning : Tuning α} {posed : Posed α}
    (h : poseController frame host s es ci tuning = .ok posed) :
    posed.edits = HostEdit.due frame host es ci tuning.neutral := by
  rw [poseController_eq] at h
  obtain ⟨built, hbuilt, h⟩ := bind_eq_ok.mp h
  rw [← buildTarget_due hbuilt]
  dsimp only at h
  split at h
  · obtain ⟨key, -, h⟩ := bind_eq_ok.mp h
    obtain ⟨begun, -, h⟩ := bind_eq_ok.mp h
    obtain ⟨progress, -, h⟩ := bind_eq_ok.mp h
    obtain rfl := pure_eq_ok.mp h
    rfl
  · obtain rfl := pure_eq_ok.mp h
    rfl

end Passes

section Runs

def Outcome.edits : Outcome α → List HostEdit
  | .built _ edits => edits
  | .posed _ _ _ edits _ => edits
  | .started .. | .done => []

def Call.neutral : Call α → Bool
  | .build _ _ _ _ neutral => neutral
  | .pose _ _ _ _ tuning => tuning.neutral
  | .start .. | .reset => false

def Call.due : Call α → List HostEdit
  | .build frame host es ci neutral => HostEdit.due frame host es ci neutral
  | .pose frame host es ci tuning => HostEdit.due frame host es ci tuning.neutral
  | .start .. | .reset => []

theorem Call.due_of_harmless {call : Call α}
    (h : ∀ frame, call.frame? = some frame → frame.role = .client ∨ frame.compat = .legacy ∧ call.neutral = false) :
    call.due = [] := by
  cases call with
  | build frame host es ci | pose frame host es ci => exact HostEdit.due_of_harmless (h frame rfl) host es ci
  | start | reset => rfl

variable [Scalar α] {s s' : Store α}

theorem Store.call_due {call : Call α} {outcome : Outcome α} (h : s.call call = .ok (outcome, s')) :
    outcome.edits = call.due := by
  cases call with
  | build =>
      obtain ⟨built, hbuilt, rfl, -⟩ := call_build.mp h
      exact buildTarget_due hbuilt
  | pose =>
      obtain ⟨posed, hposed, rfl, -⟩ := call_pose.mp h
      exact poseController_due hposed
  | start =>
      obtain ⟨started, -, rfl, -⟩ := call_start.mp h
      rfl
  | reset =>
      obtain ⟨rfl, -⟩ := call_reset.mp h
      rfl

theorem Store.run_due {calls : List (Call α)} {outcomes : List (Outcome α)} (h : s.run calls = .ok (outcomes, s')) :
    outcomes.map Outcome.edits = calls.map Call.due := by
  induction calls generalizing s outcomes with
  | nil =>
      obtain ⟨rfl, -⟩ := Prod.mk.inj (pure_eq_ok.mp h)
      rfl
  | cons call calls ih =>
      obtain ⟨outcome, t, rest, hcall, hrest, rfl⟩ := run_cons.mp h
      rw [List.map_cons, List.map_cons, call_due hcall, ih hrest]

end Runs

/-- What the game is told goes by the input of a pass alone: to reset a player who is to be neutral, or to end
the throw of another stance, and both only on the server. -/
theorem edits_where_due (α : Type) [Scalar α] :
    (∀ (frame : Frame) (host : Host α) (s : Store α) (es : EntityState α) (ci : ClientInfo α) (tuning : Tuning α)
        (posed : Posed α), poseController frame host s es ci tuning = .ok posed →
      posed.edits =
        if tuning.neutral = true ∧ frame.role = .server then [.resetAnimations es.clientNum]
        else if frame.role = .server ∧ frame.compat = .enhanced ∧ es.onMountedGun = false ∧
            Enhanced.ThrowsOffStance host es ci then [.clearLegsTimer es.clientNum]
        else []) ∧
    ∀ (s s' : Store α) (calls : List (Call α)) (outcomes : List (Outcome α)), s.run calls = .ok (outcomes, s') →
      (∀ call ∈ calls, ∀ frame, call.frame? = some frame →
        frame.role = .client ∨ frame.compat = .legacy ∧ call.neutral = false) →
      ∀ outcome ∈ outcomes, outcome.edits = [] := by
  refine ⟨fun frame host s es ci tuning posed h => poseController_due h, ?_⟩
  intro s s' calls outcomes h hharmless outcome hmem
  have hedits : outcome.edits ∈ calls.map Call.due := by
    rw [← Store.run_due h]
    exact List.mem_map_of_mem hmem
  obtain ⟨call, hcall, hdue⟩ := List.mem_map.mp hedits
  rw [← hdue]
  exact Call.due_of_harmless (hharmless call hcall)

section Example

theorem edits_where_due_throwing :
    let frame (role : Role) (compat : Compat) : Frame := ⟨role, compat, 1000, 50⟩
    let host : Host Float32 :=
      .ofScript #[⟨"", .empty, .empty, 0, 0⟩, ⟨"pb_stand_grenade_throw", .idle, .empty, 0, 0⟩] .idleProne false
    let es : EntityState Float32 := { EntityState.initial 2 with flags := .prone }
    let ci : ClientInfo Float32 := .playing 2 ⟨1⟩
    (∃ posed, poseController (frame .server .enhanced) host .fresh es ci ⟨false, none⟩ = .ok posed ∧
      posed.edits = [.clearLegsTimer 2]) ∧
    ∃ outcomes s,
      Store.fresh.run
          [.pose (frame .client .enhanced) host es ci ⟨true, none⟩,
            .pose (frame .server .legacy) host es ci ⟨false, none⟩] = .ok (outcomes, s) ∧
        ∀ outcome ∈ outcomes, outcome.edits = [] := by
  intro frame host es ci
  obtain ⟨hpass, hrun⟩ := edits_where_due Float32
  constructor
  · obtain ⟨posed, h⟩ : ∃ posed,
        poseController (frame .server .enhanced) host .fresh es ci ⟨false, none⟩ = .ok posed :=
      exists_eq_ok (by decide +kernel)
    refine ⟨posed, h, (hpass _ _ _ _ _ _ _ h).trans ?_⟩
    decide
  · obtain ⟨⟨outcomes, s⟩, h⟩ : ∃ p, (Store.fresh : Store Float32).run
        [.pose (frame .client .enhanced) host es ci ⟨true, none⟩,
          .pose (frame .server .legacy) host es ci ⟨false, none⟩] = .ok p :=
      exists_eq_ok (by decide +kernel)
    refine ⟨outcomes, s, h, hrun _ _ _ _ h ?_⟩
    rintro call hcall frame' hframe
    rcases List.mem_cons.mp hcall with rfl | hcall
    · obtain rfl := Option.some.inj hframe
      exact .inl rfl
    · obtain rfl := List.mem_singleton.mp hcall
      obtain rfl := Option.some.inj hframe
      exact .inr ⟨rfl, rfl⟩

end Example

end PlayerAnimation
