import PlayerAnimation.Proofs.Blend.Steady
import PlayerAnimation.Proofs.Exact

namespace PlayerAnimation

section Replay

variable {α : Type} [Scalar α]

theorem Enhanced.of_control (host : Host α) (es : EntityState α) (ci : ClientInfo α)
    (control base : Controllers α) (h : host.moveTypes { ci with control } = host.moveTypes ci) :
    Enhanced.of host es { ci with control } base = Enhanced.of host es ci base := by
  rw [Enhanced.of, Enhanced.of, Enhanced.locomotion, Enhanced.locomotion, h]
  rfl

namespace Pass

variable (key : PlayerKey) (p : Pass α)

def again (time frameTime : Int) (control : Controllers α) : Pass α :=
  { p with time, frameTime, ci := { p.ci with control } }

/-- What the pass aims at in another frame, for a player with the given stance. -/
def goal (stance : StanceTimer) (time : Int) : Controllers α :=
  p.tuned (((p.again time p.frameTime p.ci.control).build key stance).toOption.getD .zero)

theorem goal_eq {stance : StanceTimer} {time : Int} {target : Controllers α}
    (h : (p.again time p.frameTime p.ci.control).build key stance = .ok target) :
    p.goal key stance time = p.tuned target := by
  rw [goal, h]
  rfl

/-- Whether the game answers the same whichever pose the player has got to. -/
def Unposed : Prop :=
  ∀ control, p.host.moveTypes { p.client key with control } = p.host.moveTypes (p.client key)

variable {key p}

theorem Unposed.enhanced (h : p.Unposed key) (time frameTime : Int) (control : Controllers α) :
    (p.again time frameTime control).enhanced key = p.enhanced key := by
  have hc : (p.again time frameTime control).client key = { p.client key with control } := rfl
  have hbase := Enhanced.of_control p.host p.es (p.client key) control
    (Target.base p.es (p.client key) (p.host.moveTypes (p.client key))) (h control)
  rw [Pass.enhanced, Pass.enhanced, hc, ← hbase]
  exact congrArg (fun moveTypes => Enhanced.of p.host p.es { p.client key with control }
    (Target.base p.es (p.client key) moveTypes)) (h control)

theorem Unposed.note (h : p.Unposed key) (time frameTime : Int) (control : Controllers α)
    (d : PlayerData α) : (p.again time frameTime control).note key d = p.note key d := by
  rw [Pass.note, Pass.note, h.enhanced]
  rfl

theorem Unposed.build (h : p.Unposed key) (time frameTime : Int) (control : Controllers α)
    (stance : StanceTimer) :
    (p.again time frameTime control).build key stance =
      (p.again time p.frameTime p.ci.control).build key stance := by
  rw [Pass.build, Pass.build, h.enhanced, h.enhanced]
  rfl

end Pass

/-- Passes with the same input, each in a frame of its own and from the pose that the one before it came
to. -/
def replay (key : PlayerKey) (p : Pass α) :
    Store α → Controllers α → List (Int × Int) → Except Fault (List (Posed α))
  | _, _, [] => pure []
  | s, control, (time, frameTime) :: frames => do
      let posed ← (p.again time frameTime control).pose key s
      let rest ← replay key p posed.store posed.client.control frames
      pure (posed :: rest)

end Replay

theorem get_lerp {α : Type} [Scalar α] (start target : Controllers α) (fraction : α) (c : Controller) :
    (Blend.lerp start target fraction).get c =
      start.get c + (target.get c - start.get c).scale fraction :=
  Controllers.get_ofFn _ c

theorem lerp_zero (start target : Controllers ℝ) : Blend.lerp start target 0 = start := by
  have hline (x y : ℝ) : x + (y - x) * 0 = x := by ring
  apply Controllers.ext_get
  intro c
  rw [get_lerp]
  exact Vec3.ext (hline _ _) (hline _ _) (hline _ _)

theorem lerp_one (start target : Controllers ℝ) : Blend.lerp start target 1 = target := by
  have hline (x y : ℝ) : x + (y - x) * 1 = y := by ring
  apply Controllers.ext_get
  intro c
  rw [get_lerp]
  exact Vec3.ext (hline _ _) (hline _ _) (hline _ _)

/-- What is recorded of a player while a blend goes on that the given pass has started. -/
structure Underway (key : PlayerKey) (p : Pass ℝ) (d : PlayerData ℝ) : Prop where
  noted : p.classifies key →
    d.movement = (p.enhanced key).movement ∧ d.movementTime = (p.enhanced key).blendTime
  settled : d.movement = d.movementLast
  positive : 0 < d.movementTime
  held : Scalar.holds ℝ d.movementTime
  finish : d.movementEnd = p.time + d.movementTime
  start : d.movementStart = p.ci.control

namespace Underway

variable {key : PlayerKey} {p : Pass ℝ} {d : PlayerData ℝ} {time : ℤ}

theorem note_eq (h : Underway key p d) : p.note key d = d := by
  rw [Pass.note]
  split
  · next hc =>
      obtain ⟨hm, ht⟩ := h.noted hc
      rw [← hm, ← ht]
  · rfl

noncomputable def fraction (p : Pass ℝ) (d : PlayerData ℝ) (time : ℤ) : ℝ :=
  ((time - p.time : ℤ) : ℝ) / d.movementTime

theorem fraction_start (p : Pass ℝ) (d : PlayerData ℝ) : fraction p d p.time = 0 := by
  rw [fraction, sub_self, Int.cast_zero, zero_div]

theorem fraction_end (h : Underway key p d) : fraction p d (p.time + d.movementTime) = 1 := by
  have hne : (d.movementTime : ℝ) ≠ 0 := by exact_mod_cast h.positive.ne'
  rw [fraction, add_sub_cancel_left, div_self hne]

theorem fraction_mem (h : Underway key p d) (h0 : p.time ≤ time) (h1 : time ≤ p.time + d.movementTime) :
    0 ≤ fraction p d time ∧ fraction p d time ≤ 1 := by
  have hd : (0 : ℝ) < d.movementTime := by exact_mod_cast h.positive
  have hlow : (0 : ℝ) ≤ (time - p.time : ℤ) := by exact_mod_cast sub_nonneg.mpr h0
  have hhigh : ((time - p.time : ℤ) : ℝ) ≤ d.movementTime := by
    exact_mod_cast sub_le_iff_le_add'.mpr h1
  exact ⟨div_nonneg hlow hd.le, (div_le_one hd).mpr hhigh⟩

theorem progress_eq (h : Underway key p d) (h0 : p.time ≤ time) (h1 : time ≤ p.time + d.movementTime) :
    Blend.progress? d time = .ok (some (fraction p d time)) := by
  have hd : (d.movementTime : ℝ) ≠ 0 := by exact_mod_cast h.positive.ne'
  have hsub : Clock.sub ℝ d.movementEnd time = .ok (d.movementEnd - time) := by
    refine clock_sub_eq_ok.mpr ⟨holds_of_between h.held ?_ ?_, rfl⟩
    · rw [h.finish]
      omega
    · rw [h.finish]
      omega
  have hf : 1 - ((d.movementEnd - time : ℤ) : ℝ) / (d.movementTime : ℝ) = fraction p d time := by
    rw [fraction, h.finish]
    push_cast
    field_simp
    ring
  rw [Blend.progress?, if_pos h.positive, hsub]
  simp only [bind, Except.bind, Exact.one_eq, Exact.ofInt_eq]
  exact congrArg (fun f => Except.ok (some f)) hf

theorem advance_eq (h : Underway key p d) (h0 : p.time ≤ time) (h1 : time ≤ p.time + d.movementTime)
    (duration : ℝ) (target current : Controllers ℝ) :
    Blend.advance d (some (fraction p d time)) duration target current =
      Blend.lerp p.ci.control target (fraction p d time) := by
  obtain ⟨hlow, hhigh⟩ := h.fraction_mem h0 h1
  rw [← h.start]
  refine if_pos ?_
  simp only [Exact.zero_eq, Exact.one_eq, Bool.and_eq_true, decide_eq_true_eq]
  exact ⟨hlow, hhigh⟩

theorem finish_eq (h : Underway key p d) (h0 : p.time ≤ time) (h1 : time ≤ p.time + d.movementTime) :
    Blend.finish d (some (fraction p d time)) time = (d, []) := by
  obtain ⟨-, hhigh⟩ := h.fraction_mem h0 h1
  refine if_neg ?_
  simp only [Blend.isOver, Option.all_some, Exact.one_eq, Bool.and_eq_true, decide_eq_true_eq]
  exact fun hover => hhigh.not_gt hover.2

theorem stride_eq (hp : p.Unposed key) (h : Underway key p d) (h0 : p.time ≤ time)
    (h1 : time ≤ p.time + d.movementTime) (frameTime : ℤ) (control : Controllers ℝ) :
    (p.again time frameTime control).stride key d =
      ((p.again time p.frameTime p.ci.control).build key d.stance).map fun target =>
        ⟨p.tuned target, Blend.lerp p.ci.control (p.tuned target) (fraction p d time), d⟩ := by
  have hbegin : Blend.begin d time control = .ok (d, []) := if_pos h.settled
  rw [Pass.stride, hp.build, hp.note, h.note_eq]
  cases (p.again time p.frameTime p.ci.control).build key d.stance with
  | error e => rfl
  | ok target =>
      have hb : Blend.begin d (p.again time frameTime control).time
          (p.again time frameTime control).ci.control = .ok (d, []) := hbegin
      have hpr : Blend.progress? d (p.again time frameTime control).time =
          .ok (some (fraction p d time)) := h.progress_eq h0 h1
      simp only [bind, Except.bind, hb, hpr]
      rw [h.advance_eq h0 h1]
      have hf := congrArg Prod.fst (h.finish_eq h0 h1)
      exact congrArg (fun data => Except.ok (Stride.mk _ _ data)) hf

end Underway

theorem progress_held {d : PlayerData ℝ} {time : ℤ} {progress : Option ℝ}
    (h : Blend.progress? d time = .ok progress) (hd : 0 < d.movementTime) :
    Scalar.holds ℝ (d.movementEnd - time) := by
  rw [Blend.progress?, if_pos hd] at h
  obtain ⟨left, hleft, -⟩ := bind_eq_ok.mp h
  exact (clock_sub_eq_ok.mp hleft).1

theorem stride_start {key : PlayerKey} {p : Pass ℝ} {d : PlayerData ℝ} {stride : Stride ℝ}
    (h : p.stride key d = .ok stride) (hr : stride.data.movement ≠ d.movementLast) :
    Underway key p stride.data ∧ stride.data.stance = d.stance ∧ stride.control = p.ci.control ∧
      ∃ target, p.build key d.stance = .ok target ∧ stride.target = p.tuned target := by
  rw [Pass.stride] at h
  obtain ⟨target, htarget, h⟩ := bind_eq_ok.mp h
  obtain ⟨⟨begun, events⟩, hbegin, h⟩ := bind_eq_ok.mp h
  obtain ⟨progress, hprogress, h⟩ := bind_eq_ok.mp h
  obtain rfl := pure_eq_ok.mp h
  obtain ⟨running, hrunning⟩ := Blend.finish_eq begun progress p.time
  dsimp only at hr
  rw [hrunning] at hr
  obtain ⟨hstance, hlast, -⟩ := p.note_kept key d
  have hm : (p.note key d).movement ≠ (p.note key d).movementLast := by
    intro hm
    have hb : Blend.begin (p.note key d) p.time p.ci.control = .ok (p.note key d, []) := if_pos hm
    obtain rfl := (Prod.mk.inj (Except.ok.inj (hbegin.symm.trans hb))).1
    exact hr (hm.trans hlast)
  obtain ⟨duration, hpos, htime, hbegun⟩ := Blend.begin_started hbegin hm
  have hunder : Underway key p begun := by
    have hheld := progress_held hprogress (by rw [hbegun]; exact hpos)
    rw [hbegun] at hheld ⊢
    refine ⟨fun hc => ?_, rfl, hpos, by simpa using hheld, rfl, rfl⟩
    have hnote : p.note key d =
        { d with movement := (p.enhanced key).movement, movementTime := (p.enhanced key).blendTime } :=
      if_pos hc
    have hb : 0 < (p.enhanced key).blendTime := (Enhanced.of_time_bounds _ _ _ _).1
    rw [hnote] at htime ⊢
    exact ⟨rfl, htime hb⟩
  have hend : p.time ≤ p.time + begun.movementTime := by
    have := hunder.positive
    omega
  obtain rfl := Except.ok.inj (hprogress.symm.trans (hunder.progress_eq le_rfl hend))
  have hdata := congrArg Prod.fst (hunder.finish_eq le_rfl hend)
  dsimp only
  rw [hdata, hunder.advance_eq le_rfl hend, Underway.fraction_start]
  exact ⟨hunder, by rw [hbegun]; exact hstance, lerp_zero _ _, target, htarget, rfl⟩

structure OnLine (p : Pass ℝ) (duration : ℤ) (target : Controllers ℝ) (time : ℤ) (posed : Posed ℝ) :
    Prop where
  target_eq : posed.target = target
  control_eq : ∀ c, posed.client.control.get c =
    p.ci.control.get c + (posed.target.get c - p.ci.control.get c).scale
      (((time - p.time : ℤ) : ℝ) / duration)
  arrives : time = p.time + duration → posed.client.control = posed.target

theorem pose_on_line {key : PlayerKey} {p : Pass ℝ} {d : PlayerData ℝ} {s : Store ℝ} {posed : Posed ℝ}
    {time frameTime : ℤ} {control : Controllers ℝ} (hp : p.Unposed key) (hd : Underway key p d)
    (hs : s.entry key = d) (h0 : p.time ≤ time) (h1 : time ≤ p.time + d.movementTime)
    (h : (p.again time frameTime control).pose key s = .ok posed) :
    posed.store.entry key = d ∧ ∃ target,
      (p.again time p.frameTime p.ci.control).build key d.stance = .ok target ∧
      OnLine p d.movementTime (p.tuned target) time posed := by
  have hpose := (p.again time frameTime control).pose_stride key s
  rw [h, hs, hd.stride_eq hp h0 h1] at hpose
  obtain ⟨target, htarget, hstride⟩ := map_eq_ok.mp hpose.symm
  obtain ⟨ht, hc, he⟩ := Stride.mk.inj hstride
  refine ⟨he.symm, target, htarget, ht.symm, fun c => ?_, fun ha => ?_⟩
  · rw [← hc, ← ht]
    exact get_lerp _ _ _ c
  · rw [← hc, ← ht, ha, hd.fraction_end]
    exact lerp_one _ _

theorem replay_on_line {key : PlayerKey} {p : Pass ℝ} {d : PlayerData ℝ} {s : Store ℝ}
    {frames : List (ℤ × ℤ)} {control : Controllers ℝ} {poses : List (Posed ℝ)} (hp : p.Unposed key)
    (hd : Underway key p d) (hs : s.entry key = d)
    (hf : ∀ f ∈ frames, p.time ≤ f.1 ∧ f.1 ≤ p.time + d.movementTime)
    (h : replay key p s control frames = .ok poses) :
    List.Forall₂ (fun f posed => ∃ target,
      (p.again f.1 p.frameTime p.ci.control).build key d.stance = .ok target ∧
        OnLine p d.movementTime (p.tuned target) f.1 posed) frames poses := by
  induction frames generalizing s control poses with
  | nil =>
      obtain rfl := pure_eq_ok.mp h
      exact .nil
  | cons f frames ih =>
      obtain ⟨⟨h0, h1⟩, hf⟩ := List.forall_mem_cons.mp hf
      obtain ⟨posed, hposed, h⟩ := bind_eq_ok.mp h
      obtain ⟨rest, hrest, h⟩ := bind_eq_ok.mp h
      obtain rfl := pure_eq_ok.mp h
      obtain ⟨he, hline⟩ := pose_on_line hp hd hs h0 h1 hposed
      exact .cons hline (ih he hf hrest)

theorem replay_ok {key : PlayerKey} {p : Pass ℝ} {d : PlayerData ℝ} {s : Store ℝ} {frames : List (ℤ × ℤ)}
    {control : Controllers ℝ} (hp : p.Unposed key) (hd : Underway key p d) (hs : s.entry key = d)
    (hf : ∀ f ∈ frames, p.time ≤ f.1 ∧ f.1 ≤ p.time + d.movementTime)
    (hstance : ∀ f ∈ frames, ∃ x : ℝ, d.stance.progress f.1 = .ok x) :
    ∃ poses, replay key p s control frames = .ok poses := by
  induction frames generalizing s control with
  | nil => exact ⟨[], rfl⟩
  | cons f frames ih =>
      obtain ⟨⟨h0, h1⟩, hf⟩ := List.forall_mem_cons.mp hf
      obtain ⟨⟨x, hx⟩, hstance⟩ := List.forall_mem_cons.mp hstance
      obtain ⟨target, htarget⟩ : ∃ target,
          (p.again f.1 p.frameTime p.ci.control).build key d.stance = .ok target := by
        rw [Pass.build]
        split
        · exact ⟨_, bind_eq_ok.mpr ⟨x, hx, rfl⟩⟩
        · exact ⟨_, rfl⟩
      have hpose := (p.again f.1 f.2 control).pose_stride key s
      rw [hs, hd.stride_eq hp h0 h1, htarget] at hpose
      obtain ⟨posed, hposed, -⟩ := map_eq_ok.mp hpose
      obtain ⟨he, -⟩ := pose_on_line hp hd hs h0 h1 hposed
      obtain ⟨rest, hrest⟩ := ih he hf hstance
      exact ⟨posed :: rest, bind_eq_ok.mpr ⟨posed, hposed, bind_eq_ok.mpr ⟨rest, hrest, rfl⟩⟩⟩

/-- The pass that starts a blend leaves the pose where it is. From then to the end of the blend, the pose
after a pass depends on the time of that pass alone: it is on the line to the target of that time, as far
along as the blend, and at the end it is the target. -/
theorem blend_on_line (key : PlayerKey) (p : Pass ℝ) (s : Store ℝ) (first : Posed ℝ)
    (hp : p.Unposed key) (hfirst : p.pose key s = .ok first)
    (hstarts : (first.store.entry key).movement ≠ (s.entry key).movementLast) :
    let duration := (first.store.entry key).movementTime
    0 < duration ∧ first.client.control = p.ci.control ∧
    ∃ target : ℤ → Controllers ℝ, first.target = target p.time ∧
      ∀ frames : List (ℤ × ℤ), (∀ f ∈ frames, p.time ≤ f.1 ∧ f.1 ≤ p.time + duration) →
        (∀ poses, replay key p first.store first.client.control frames = .ok poses →
          List.Forall₂ (fun f posed => OnLine p duration (target f.1) f.1 posed) frames poses) ∧
        ((∀ f ∈ frames, ∃ x : ℝ, (first.store.entry key).stance.progress f.1 = .ok x) →
          ∃ poses, replay key p first.store first.client.control frames = .ok poses) := by
  have hpose := p.pose_stride key s
  rw [hfirst] at hpose
  obtain ⟨hd, hstance, hcontrol, target, htarget, hfirstTarget⟩ := stride_start hpose.symm hstarts
  dsimp only at hd hstance hcontrol hfirstTarget
  have hstart : (p.again p.time p.frameTime p.ci.control).build key (first.store.entry key).stance =
      .ok target := by
    rw [hstance]
    exact htarget
  refine ⟨hd.positive, hcontrol, p.goal key (first.store.entry key).stance, ?_,
    fun frames hf => ⟨fun poses h => ?_, fun h => replay_ok hp hd rfl hf h⟩⟩
  · rw [hfirstTarget, p.goal_eq key hstart]
  · refine (replay_on_line hp hd rfl hf h).imp ?_
    rintro f posed ⟨target, htarget, hline⟩
    rw [p.goal_eq key htarget]
    exact hline

section Example

def stander : PlayerKey := .first .client

noncomputable def stand : Pass ℝ :=
  { time := 1000
    frameTime := 10
    host := .ofScript #[⟨"", .empty, .empty, 0, 0⟩] .empty false
    es := EntityState.initial 0
    ci := ClientInfo.initial 0
    tuning := ⟨false, some { Controllers.zero with head := ⟨90, 0, 0⟩ }⟩ }

theorem stand_time [Scalar ℝ] : (stand.enhanced stander).blendTime = 250 := by
  rw [Pass.enhanced, Enhanced.of, (Enhanced.ladder_spec _ _ _).1]
  exact Enhanced.upright_time _ _ _ _ _

theorem blend_on_line_stand :
    ∃ (first : Posed ℝ) (poses : List (Posed ℝ)) (target : ℤ → Controllers ℝ),
      stand.pose stander .fresh = .ok first ∧
      replay stander stand first.store first.client.control [(1250, 250), (1125, 8)] = .ok poses ∧
      List.Forall₂ (fun (f : ℤ × ℤ) posed => OnLine stand 250 (target f.1) f.1 posed)
        [(1250, 250), (1125, 8)] poses := by
  obtain ⟨stride, hstride, hsteady, hnoted⟩ :=
    stride_noted stander stand (fresh_steady stander) (by decide) (by decide)
  have hpose := stand.pose_stride stander .fresh
  rw [hstride] at hpose
  obtain ⟨first, hfirst, rfl⟩ := map_eq_ok.mp hpose
  have hstarts : (first.store.entry stander).movement ≠
      ((Store.fresh : Store ℝ).entry stander).movementLast := by
    rw [hnoted.movement, Store.entry_fresh]
    exact note_movement_ne stander stand rfl
  have htime : (first.store.entry stander).movementTime = 250 := by
    rw [hnoted.duration]
    exact stand_time
  obtain ⟨-, hcontrol, target, -, hframes⟩ :=
    blend_on_line stander stand .fresh first (fun _ => rfl) hfirst hstarts
  rw [htime] at hframes
  obtain ⟨hline, hposes⟩ := hframes [(1250, 250), (1125, 8)] (by decide)
  obtain ⟨poses, hposes⟩ := hposes fun f _ => by
    rw [hsteady.stance]
    exact ⟨_, rfl⟩
  exact ⟨first, poses, target, hfirst, hposes, hline poses hposes⟩

end Example

end PlayerAnimation
