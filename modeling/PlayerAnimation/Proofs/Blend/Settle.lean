import PlayerAnimation.Proofs.Blend.Approach
import PlayerAnimation.Proofs.Blend.Line
import PlayerAnimation.Proofs.Legacy

namespace PlayerAnimation

namespace Pass

variable {α : Type} [Scalar α] (compat : Compat) (key : PlayerKey) (p : Pass α)

def poseAs (s : Store α) : Except Fault (Posed α) :=
  poseController ⟨key.role, compat, p.time, p.frameTime⟩ p.host s p.es (p.client key) p.tuning

/-- The pass once in every frame, each from the pose that the one before it came to. -/
def watch (times : ℕ → ℤ) (s : Store α) : ℕ → Except Fault (Posed α)
  | 0 => (p.again (times 0) p.frameTime p.ci.control).poseAs compat key s
  | n + 1 => do
      let posed ← watch times s n
      (p.again (times (n + 1)) p.frameTime posed.client.control).poseAs compat key posed.store

def aim : Controllers α := p.tuned (if p.classifies key then (p.enhanced key).pose else .zero)

variable {compat key p} {times : ℕ → ℤ} {s : Store α}

theorem watch_succ {n : ℕ} {posed next : Posed α} (h : p.watch compat key times s n = .ok posed)
    (hnext : p.watch compat key times s (n + 1) = .ok next) :
    (p.again (times (n + 1)) p.frameTime posed.client.control).poseAs compat key posed.store = .ok next := by
  rw [watch, h] at hnext
  exact hnext

theorem watch_ok
    (h : ∀ time control t, ∃ posed, (p.again time p.frameTime control).poseAs compat key t = .ok posed) :
    ∃ posed : ℕ → Posed α, ∀ n, p.watch compat key times s n = .ok (posed n) := by
  have hframe : ∀ n, ∃ posed, p.watch compat key times s n = .ok posed := by
    intro n
    induction n with
    | zero => exact h _ _ _
    | succ n ih =>
        obtain ⟨posed, hposed⟩ := ih
        rw [watch, hposed]
        exact h _ _ _
  exact Classical.skolem.mp hframe

end Pass

section Caught

variable {α : Type} [Scalar α] {key : PlayerKey} {p : Pass α} {d : PlayerData α}

/-- Data that another pass of the same kind leaves as it is, save that a blend may come to its end. -/
structure Caught (key : PlayerKey) (p : Pass α) (d : PlayerData α) : Prop where
  noted : p.classifies key →
    d.movement = (p.enhanced key).movement ∧ d.movementTime = (p.enhanced key).blendTime
  settled : d.movement = d.movementLast

theorem Caught.note_eq (h : Caught key p d) : p.note key d = d := by
  rw [Pass.note]
  split
  · next hc =>
      obtain ⟨hm, ht⟩ := h.noted hc
      rw [← hm, ← ht]
  · rfl

theorem Caught.running (h : Caught key p d) (running : Bool) :
    Caught key p { d with movementRunning := running } :=
  ⟨h.noted, h.settled⟩

theorem caught_begin {begun : PlayerData α} {time : ℤ} {pose : Controllers α} {events : List PoseEvent}
    (h : Blend.begin (p.note key d) time pose = .ok (begun, events)) : Caught key p begun := by
  have hnoted (hc : p.classifies key) : (p.note key d).movement = (p.enhanced key).movement ∧
      (p.note key d).movementTime = (p.enhanced key).blendTime := by
    rw [Pass.note, if_pos hc]
    exact ⟨rfl, rfl⟩
  by_cases hm : (p.note key d).movement = (p.note key d).movementLast
  · rw [Blend.begin_same h hm]
    exact ⟨hnoted, hm⟩
  · obtain ⟨duration, -, hduration, rfl⟩ := Blend.begin_started h hm
    refine ⟨fun hc => ?_, rfl⟩
    obtain ⟨hmovement, htime⟩ := hnoted hc
    have hpos : 0 < (p.enhanced key).blendTime := (Enhanced.of_time_bounds _ _ _ _).1
    rw [htime] at hduration
    exact ⟨hmovement, hduration hpos⟩

theorem stride_data {stride : Stride α} (h : p.stride key d = .ok stride) :
    ∃ begun events running, Blend.begin (p.note key d) p.time p.ci.control = .ok (begun, events) ∧
      stride.data = { begun with movementRunning := running } := by
  rw [Pass.stride] at h
  obtain ⟨target, -, h⟩ := bind_eq_ok.mp h
  obtain ⟨⟨begun, events⟩, hbegin, h⟩ := bind_eq_ok.mp h
  obtain ⟨progress, -, h⟩ := bind_eq_ok.mp h
  obtain rfl := pure_eq_ok.mp h
  obtain ⟨running, hrunning⟩ := Blend.finish_eq begun progress p.time
  exact ⟨begun, events, running, hbegin, hrunning⟩

theorem stride_catches {time frameTime : ℤ} {control : Controllers α} {stride : Stride α} (hp : p.Unposed key)
    (h : (p.again time frameTime control).stride key d = .ok stride) : Caught key p stride.data := by
  obtain ⟨begun, events, running, hbegin, hdata⟩ := stride_data h
  rw [hp.note] at hbegin
  rw [hdata]
  exact (caught_begin hbegin).running running

theorem stride_caught {time frameTime : ℤ} {control : Controllers α} {stride : Stride α} (hp : p.Unposed key)
    (hd : Caught key p d) (h : (p.again time frameTime control).stride key d = .ok stride) :
    ∃ running, stride.data = { d with movementRunning := running } := by
  obtain ⟨begun, events, running, hbegin, hdata⟩ := stride_data h
  rw [hp.note, hd.note_eq] at hbegin
  rw [Blend.begin_same hbegin hd.settled] at hdata
  exact ⟨running, hdata⟩

theorem finish_over {progress : Option α} (h : Blend.isOver progress) (d : PlayerData α) (time : ℤ) :
    (Blend.finish d progress time).1 = { d with movementRunning := false } := by
  rw [Blend.finish, h, Bool.and_true]
  split
  · rfl
  · next hrunning =>
      rw [Bool.not_eq_true] at hrunning
      rw [← hrunning]

end Caught

/-- The real numbers with a clock that counts on for ever. -/
@[reducible] noncomputable def Exact.endless : Scalar ℝ := { Exact.instScalar with holds := fun _ => true }

section Endless

attribute [local instance] Exact.endless

variable {key : PlayerKey} {p : Pass ℝ} {d : PlayerData ℝ} {stance : StanceTimer} {time : ℤ}
  {control : Controllers ℝ}

theorem stance_progress_endless (stance : StanceTimer) (time : ℤ) :
    stance.progress (α := ℝ) time = .ok
      (if stance.transition = .none ∨ stance.duration ≤ 0 then 0
        else 1 - ((stance.finish - time : ℤ) : ℝ) / stance.duration) := by
  rw [StanceTimer.progress]
  split
  · simp only [pure, Except.pure, Exact.zero_eq]
  · simp only [bind, Except.bind, pure, Except.pure, Exact.one_eq]
    rfl

theorem progress_endless (d : PlayerData ℝ) (time : ℤ) :
    Blend.progress? d time = .ok
      (if 0 < d.movementTime then some (1 - ((d.movementEnd - time : ℤ) : ℝ) / d.movementTime)
        else none) := by
  rw [Blend.progress?]
  split
  · simp only [bind, Except.bind, pure, Except.pure, Exact.one_eq]
    rfl
  · rfl

theorem begin_endless (d : PlayerData ℝ) (time : ℤ) (pose : Controllers ℝ) :
    ∃ begun events, Blend.begin d time pose = .ok (begun, events) := by
  rw [Blend.begin]
  split
  · exact ⟨_, _, rfl⟩
  · exact ⟨_, _, rfl⟩

theorem build_endless (key : PlayerKey) (p : Pass ℝ) (stance : StanceTimer) :
    ∃ target, p.build key stance = .ok target := by
  rw [Pass.build]
  split
  · rw [stance_progress_endless]
    exact ⟨_, rfl⟩
  · exact ⟨_, rfl⟩

theorem stride_endless (key : PlayerKey) (p : Pass ℝ) (d : PlayerData ℝ) :
    ∃ stride, p.stride key d = .ok stride := by
  obtain ⟨target, htarget⟩ := build_endless key p d.stance
  obtain ⟨begun, events, hbegin⟩ := begin_endless (p.note key d) p.time p.ci.control
  rw [Pass.stride, htarget, hbegin]
  simp only [bind, Except.bind, progress_endless]
  exact ⟨_, rfl⟩

theorem finish_begun {begun : PlayerData ℝ} {progress : Option ℝ} (hpos : 0 < begun.movementTime)
    (hend : begun.movementEnd = time + begun.movementTime)
    (h : Blend.progress? begun time = .ok progress) : (Blend.finish begun progress time).1 = begun := by
  have hne : (begun.movementTime : ℝ) ≠ 0 := by exact_mod_cast hpos.ne'
  have hstart : (1 : ℝ) - ((begun.movementEnd - time : ℤ) : ℝ) / begun.movementTime = 0 := by
    rw [hend, add_sub_cancel_left, div_self hne, sub_self]
  rw [progress_endless, if_pos hpos, hstart] at h
  obtain rfl := Except.ok.inj h
  rw [Blend.finish, if_neg]
  rw [Blend.isOver, Option.all_some, Exact.one_eq, Bool.and_eq_true, decide_eq_true_iff]
  exact fun hover => absurd hover.2 (by norm_num)

theorem stride_runs {stride : Stride ℝ} (hclassifies : p.classifies key)
    (hmovement : (p.enhanced key).movement ≠ d.movementLast) (h : p.stride key d = .ok stride) :
    stride.data.movementRunning = true ∧ stride.data.movementEnd = p.time + (p.enhanced key).blendTime := by
  have hnote : p.note key d =
      { d with movement := (p.enhanced key).movement, movementTime := (p.enhanced key).blendTime } :=
    if_pos hclassifies
  have hpos : 0 < (p.enhanced key).blendTime := (Enhanced.of_time_bounds _ _ _ _).1
  rw [Pass.stride, hnote] at h
  obtain ⟨target, -, h⟩ := bind_eq_ok.mp h
  obtain ⟨⟨begun, events⟩, hbegin, h⟩ := bind_eq_ok.mp h
  obtain ⟨progress, hprogress, h⟩ := bind_eq_ok.mp h
  obtain rfl := pure_eq_ok.mp h
  obtain ⟨duration, -, hduration, hbegun⟩ := Blend.begin_started hbegin hmovement
  obtain rfl : duration = (p.enhanced key).blendTime := hduration hpos
  have hfinish : (Blend.finish begun progress p.time).1 = begun :=
    finish_begun (by rw [hbegun]; exact hpos) (by rw [hbegun]) hprogress
  dsimp only
  rw [hfinish, hbegun]
  exact ⟨rfl, rfl⟩

theorem inTransition_ended {progress : ℝ} (h : progress ≤ 0 ∨ 1 ≤ progress) (transition : StanceTransition)
    (pose : Controllers ℝ) : Enhanced.inTransition transition progress pose = pose := by
  refine if_pos ?_
  rw [Exact.zero_eq, Exact.one_eq]
  exact h

theorem build_over (hp : p.Unposed key) (hover : stance.finish ≤ time) :
    (p.again time p.frameTime control).build key stance =
      .ok (if p.classifies key then (p.enhanced key).pose else .zero) := by
  have hclassifies : (p.again time p.frameTime control).classifies key = p.classifies key := rfl
  have htime : (p.again time p.frameTime control).time = time := rfl
  rw [Pass.build, hp.enhanced, hclassifies, htime, stance_progress_endless]
  split
  · refine congrArg Except.ok (inTransition_ended ?_ _ _)
    split
    · exact Or.inl le_rfl
    · next hchange =>
        have hduration : (0 : ℝ) < stance.duration := by exact_mod_cast not_le.mp (not_or.mp hchange).2
        have hleft : ((stance.finish - time : ℤ) : ℝ) ≤ 0 := by exact_mod_cast sub_nonpos.mpr hover
        have hshare := div_nonpos_of_nonpos_of_nonneg hleft hduration.le
        exact Or.inr (by linarith)
  · rfl

theorem progress_over (hover : d.movementEnd < time) :
    ∃ progress : Option ℝ, Blend.progress? d time = .ok progress ∧ Blend.isOver progress ∧
      ∀ duration target current, Blend.advance d progress duration target current =
        Blend.step duration target current := by
  refine ⟨_, progress_endless d time, ?_⟩
  split
  · next hduration =>
      have hduration : (0 : ℝ) < d.movementTime := by exact_mod_cast hduration
      have hleft : ((d.movementEnd - time : ℤ) : ℝ) < 0 := by exact_mod_cast sub_neg.mpr hover
      have hpast : 1 < 1 - ((d.movementEnd - time : ℤ) : ℝ) / d.movementTime := by
        have hshare := div_neg_of_neg_of_pos hleft hduration
        linarith
      constructor
      · rw [Blend.isOver, Option.all_some, Exact.one_eq]
        exact decide_eq_true hpast
      · intro duration target current
        refine if_neg ?_
        rw [Exact.zero_eq, Exact.one_eq, Bool.and_eq_true, decide_eq_true_eq, decide_eq_true_eq]
        exact fun hline => hpast.not_ge hline.2
  · exact ⟨rfl, fun _ _ _ => rfl⟩

theorem stride_over (hp : p.Unposed key) (hd : Caught key p d) (hblend : d.movementEnd < time)
    (hstance : d.stance.finish ≤ time) :
    (p.again time p.frameTime control).stride key d =
      .ok ⟨p.aim key, Blend.step (p.frameTime : ℝ) (p.aim key) control,
        { d with movementRunning := false }⟩ := by
  obtain ⟨progress, hprogress, hover, hadvance⟩ := progress_over hblend
  have hbegin : Blend.begin d (p.again time p.frameTime control).time
      (p.again time p.frameTime control).ci.control = .ok (d, []) := if_pos hd.settled
  have htime : (p.again time p.frameTime control).time = time := rfl
  rw [Pass.stride, build_over hp hstance, hp.note, hd.note_eq]
  simp only [bind, Except.bind, hbegin]
  rw [htime, hprogress]
  dsimp only
  rw [hadvance, finish_over hover]
  rfl

section Legacy

noncomputable def Pass.plainAim (key : PlayerKey) (p : Pass ℝ) : Controllers ℝ :=
  (Target.plain key.role (p.host.moveTypes (p.client key)) p.es (p.client key) p.tuning.neutral).1

theorem poseAs_legacy (hp : p.Unposed key) {s : Store ℝ} {posed : Posed ℝ}
    (h : (p.again time p.frameTime control).poseAs .legacy key s = .ok posed) :
    posed.target = p.plainAim key ∧
      posed.client.control = Blend.step (p.frameTime : ℝ) (p.plainAim key) control ∧ posed.store = s := by
  have hplain : (p.again time p.frameTime control).poseAs .legacy key s = .ok _ := poseController_plain rfl _
  obtain rfl := Except.ok.inj (hplain.symm.trans h)
  have hmove : p.host.moveTypes ((p.again time p.frameTime control).client key) =
      p.host.moveTypes (p.client key) := hp control
  have haim : (Target.plain key.role (p.host.moveTypes ((p.again time p.frameTime control).client key)) p.es
      ((p.again time p.frameTime control).client key) p.tuning.neutral).1 = p.plainAim key := by
    rw [hmove]
    rfl
  refine ⟨haim, ?_, rfl⟩
  exact congrArg (fun target => Blend.step (p.frameTime : ℝ) target control) haim

end Legacy

theorem poseAs_stride {s : Store ℝ} {posed : Posed ℝ} (h : p.poseAs .enhanced key s = .ok posed) :
    p.stride key (s.entry key) = .ok ⟨posed.target, posed.client.control, posed.store.entry key⟩ := by
  have hpose := p.pose_stride key s
  have hposed : p.pose key s = .ok posed := h
  rw [hposed] at hpose
  exact hpose.symm

theorem poseAs_endless (compat : Compat) (p : Pass ℝ) (s : Store ℝ) :
    ∃ posed, p.poseAs compat key s = .ok posed := by
  cases compat with
  | legacy => exact ⟨_, poseController_plain rfl _⟩
  | enhanced =>
      obtain ⟨stride, hstride⟩ := stride_endless key p (s.entry key)
      have hpose := p.pose_stride key s
      rw [hstride] at hpose
      obtain ⟨posed, hposed, -⟩ := map_eq_ok.mp hpose
      exact ⟨posed, hposed⟩

theorem times_pass {times : ℕ → ℤ} (htimes : StrictMono times) (time : ℤ) : ∃ n, ∀ m, n ≤ m → time < times m := by
  have hgrow : ∀ n : ℕ, times 0 + n ≤ times n := by
    intro n
    induction n with
    | zero => simp
    | succ n ih =>
        have hlater : times n < times (n + 1) := htimes n.lt_succ_self
        omega
  refine ⟨(time - times 0).toNat + 1, fun m hm => ?_⟩
  have := hgrow m
  omega

section Run

variable {s : Store ℝ} {times : ℕ → ℤ} {posed : ℕ → Posed ℝ} (hp : p.Unposed key)
include hp

section Enhanced

variable (h : ∀ n, p.watch .enhanced key times s n = .ok (posed n))
include h

theorem watch_caught (n : ℕ) : Caught key p ((posed n).store.entry key) := by
  cases n with
  | zero => exact stride_catches hp (poseAs_stride (h 0))
  | succ n => exact stride_catches hp (poseAs_stride (Pass.watch_succ (h n) (h (n + 1))))

theorem watch_recorded (n : ℕ) :
    ∃ running, (posed n).store.entry key = { (posed 0).store.entry key with movementRunning := running } := by
  induction n with
  | zero => exact ⟨_, rfl⟩
  | succ n ih =>
      obtain ⟨before, hbefore⟩ := ih
      have hstride := poseAs_stride (Pass.watch_succ (h n) (h (n + 1)))
      obtain ⟨running, hrunning⟩ := stride_caught hp (watch_caught hp h n) hstride
      dsimp only at hrunning
      rw [hrunning, hbefore]
      exact ⟨running, rfl⟩

theorem watch_enhanced (htimes : StrictMono times) :
    ∃ first start data, data.movementRunning = false ∧
      Stepping key p.frameTime (p.aim key) start data fun n => posed (first + n) := by
  -- What is recorded after the first frame tells when the blend and the change of stance end.
  let data := (posed 0).store.entry key
  obtain ⟨last, hlast⟩ := times_pass htimes (max data.movementEnd data.stance.finish)
  have hframe : ∀ n, last ≤ n → (posed (n + 1)).target = p.aim key ∧
      (posed (n + 1)).client.control = Blend.step (p.frameTime : ℝ) (p.aim key) (posed n).client.control ∧
      (posed (n + 1)).store.entry key = { data with movementRunning := false } := by
    intro n hn
    have hstride := poseAs_stride (Pass.watch_succ (h n) (h (n + 1)))
    obtain ⟨running, hrecorded⟩ := watch_recorded hp h n
    obtain ⟨hblend, hstance⟩ := max_lt_iff.mp (hlast (n + 1) (by omega))
    have hcaught := watch_caught hp h n
    rw [hrecorded] at hstride hcaught
    obtain ⟨htarget, hcontrol, hentry⟩ :=
      Stride.mk.inj (Except.ok.inj ((stride_over hp hcaught hblend hstance.le).symm.trans hstride))
    exact ⟨htarget.symm, hcontrol.symm, hentry.symm⟩
  have hindex n : posed (last + 1 + n) = posed (last + n + 1) := by rw [Nat.add_right_comm]
  refine ⟨last + 1, (posed last).client.control, { data with movementRunning := false }, rfl, ?_⟩
  refine ⟨fun n => ?_, (hframe last le_rfl).2.1, fun n => ?_, fun n => ?_⟩
  · rw [hindex]
    exact (hframe (last + n) (Nat.le_add_right last n)).1
  · exact (hframe (last + 1 + n) (by omega)).2.1
  · rw [hindex]
    exact (hframe (last + n) (Nat.le_add_right last n)).2.2

end Enhanced

theorem watch_legacy (h : ∀ n, p.watch .legacy key times s n = .ok (posed n)) :
    Stepping key p.frameTime (p.plainAim key) p.ci.control (s.entry key) posed := by
  have hfirst := poseAs_legacy hp (h 0)
  have hnext n := poseAs_legacy hp (Pass.watch_succ (h n) (h (n + 1)))
  refine ⟨?_, hfirst.2.1, fun n => (hnext n).2.1, ?_⟩
  · intro n
    cases n with
    | zero => exact hfirst.1
    | succ n => exact (hnext n).1
  · intro n
    induction n with
    | zero => rw [hfirst.2.2]
    | succ n ih => rw [(hnext n).2.2, ih]

end Run

def Pass.before (p : Pass ℝ) (posed : ℕ → Posed ℝ) : ℕ → Controllers ℝ
  | 0 => p.ci.control
  | n + 1 => (posed n).client.control

/-- A player about whom nothing changes but the pose comes to rest, whatever is recorded and whichever pose
is the first. With the original animations this takes no more frames than the longest way needs at full
speed, and no component of a rotation ever gets further from its target. -/
theorem poses_settle (compat : Compat) (key : PlayerKey) (p : Pass ℝ) (s : Store ℝ) (times : ℕ → ℤ)
    (hp : p.Unposed key) (hframe : 0 < p.frameTime) (htimes : StrictMono times) :
    ∃ posed : ℕ → Posed ℝ, (∀ n, p.watch compat key times s n = .ok (posed n)) ∧
      (∃ n, Settled compat key posed n) ∧
      (compat = .legacy →
        let turn := Blend.largest (Blend.turnsLeft (posed 0).target p.ci.control)
        let shift := Blend.shiftLeft (posed 0).target p.ci.control
        (∃ n < max 1 ⌈max (turn / (0.36 * p.frameTime)) (shift / (0.1 * p.frameTime))⌉₊,
          Settled compat key posed n) ∧
        ∀ n, List.Forall₂ (· ≤ ·) (Blend.turnsLeft (posed n).target (posed n).client.control)
          (Blend.turnsLeft (posed n).target (p.before posed n))) := by
  have hduration : (0 : ℝ) < p.frameTime := by exact_mod_cast hframe
  obtain ⟨posed, hposed⟩ : ∃ posed : ℕ → Posed ℝ, ∀ n, p.watch compat key times s n = .ok (posed n) :=
    Pass.watch_ok fun _ _ _ => poseAs_endless compat _ _
  refine ⟨posed, hposed, ?_⟩
  cases compat with
  | legacy =>
      have hsteps := watch_legacy hp hposed
      have hall : Stepping key p.frameTime (p.plainAim key) p.ci.control (s.entry key)
          fun n => posed (0 + n) := by
        simpa only [Nat.zero_add] using hsteps
      have hidle : Compat.legacy = .enhanced → (s.entry key).movementRunning = false := nofun
      obtain ⟨n, hn, hsettled⟩ := hall.settles hduration hidle
      rw [Nat.zero_add] at hsettled
      rw [← hsteps.aimed 0] at hn
      refine ⟨⟨n, hsettled⟩, fun _ => ⟨⟨n, hn, hsettled⟩, fun n => ?_⟩⟩
      have hstep : (posed n).client.control =
          Blend.step (p.frameTime : ℝ) (posed n).target (p.before posed n) := by
        rw [hsteps.aimed]
        cases n with
        | zero => exact hsteps.first
        | succ n => exact hsteps.next n
      rw [hstep]
      exact Blend.turnsLeft_le hduration.le _ _
  | enhanced =>
      obtain ⟨first, start, data, hidle, hsteps⟩ := watch_enhanced hp hposed htimes
      obtain ⟨n, -, hsettled⟩ := hsteps.settles hduration fun _ => hidle
      exact ⟨⟨first + n, hsettled⟩, nofun⟩

section Example

noncomputable def gunner : Pass ℝ :=
  { stand with
    es := { EntityState.initial 0 with flags := EntityFlags.mountedGun }
    ci := { ClientInfo.initial 0 with control := { Controllers.zero with head := ⟨9, 0, 0⟩ } } }

theorem gunner_turn : Blend.largest (Blend.turnsLeft .zero gunner.ci.control) = 9 := by
  simp [Blend.largest, Blend.turnsLeft, Blend.turning, Controller.bones, Controllers.get, gunner,
    Controllers.zero, Controllers.ofFn, Vec3.zero]

theorem gunner_shift : Blend.shiftLeft .zero gunner.ci.control = 0 := Vec3.length_sub_self _

/-- With the enhanced animations a player who stands comes to rest after a blend, and with the original ones a
player at a mounted gun does within three frames. -/
theorem poses_settle_blend :
    (∃ posed, (∀ n, stand.watch .enhanced stander (fun n => 1000 + 10 * n) .fresh n = .ok (posed n)) ∧
      ((posed 0).store.entry stander).movementRunning = true ∧
      ((posed 0).store.entry stander).movementEnd = 1250 ∧
      ∃ n, 0 < n ∧ Settled .enhanced stander posed n) ∧
    ∃ posed, (∀ n, gunner.watch .legacy stander (fun n => 1000 + 10 * n) .fresh n = .ok (posed n)) ∧
      ∃ n < 3, Settled .legacy stander posed n := by
  have htimes : StrictMono fun n : ℕ => (1000 + 10 * n : ℤ) := by
    intro a b hab
    dsimp only
    omega
  constructor
  · obtain ⟨posed, hposed, ⟨n, hsettled⟩, -⟩ :=
      poses_settle .enhanced stander stand .fresh _ (fun _ => rfl) (by decide) htimes
    have hmovement : (stand.enhanced stander).movement ≠ ((Store.fresh : Store ℝ).entry stander).movementLast := by
      rw [Store.entry_fresh]
      exact Enhanced.of_movement_ne _ _ _ _
    obtain ⟨hrunning, hend⟩ := stride_runs rfl hmovement (poseAs_stride (hposed 0))
    refine ⟨posed, hposed, hrunning, hend.trans (congrArg (1000 + ·) stand_time), n, ?_, hsettled⟩
    refine Nat.pos_of_ne_zero fun hn => ?_
    have hidle := hsettled.idle rfl 0 hn.le
    exact absurd (hrunning.symm.trans hidle) (by decide)
  · obtain ⟨posed, hposed, -, hlegacy⟩ :=
      poses_settle .legacy stander gunner .fresh _ (fun _ => rfl) (by decide) htimes
    obtain ⟨⟨n, hn, hsettled⟩, -⟩ := hlegacy rfl
    have htarget : (posed 0).target = .zero := (poseAs_legacy (fun _ => rfl) (hposed 0)).1
    have htime : (gunner.frameTime : ℝ) = 10 := by norm_num [gunner, stand]
    rw [htarget, gunner_turn, gunner_shift, htime] at hn
    have hceil : ⌈max (9 / (0.36 * 10)) (0 / (0.1 * 10) : ℝ)⌉₊ ≤ 3 := by
      rw [Nat.ceil_le]
      norm_num
    exact ⟨posed, hposed, n, by omega, hsettled⟩

end Example

end Endless

end PlayerAnimation
