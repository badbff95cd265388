import PlayerAnimation.Proofs.Blend.Signals
import PlayerAnimation.Proofs.Single.Kinds
import PlayerAnimation.Proofs.Stance

namespace PlayerAnimation

namespace StanceTimer

def elapsed (left whole : ℤ) : Float32 := Scalar.clamp 0 1 (1 - Single.ofInt left / Single.ofInt whole)

theorem fraction_eq {s : StanceTimer} {time : Int} {f : Float32} (hchange : s.transition ≠ .none)
    (hpos : 0 < s.duration) :
    s.fraction time = .ok f ↔
      Scalar.holds Float32 (s.finish - time) ∧ elapsed (s.finish - time) s.duration = f := by
  rw [fraction, bind_eq_ok]
  constructor
  · rintro ⟨_, hp, hf⟩
    obtain ⟨hholds, rfl⟩ := (progress_eq_ok hchange hpos).mp hp
    obtain rfl := pure_eq_ok.mp hf
    rw [scalar_zero, scalar_one]
    exact ⟨hholds, rfl⟩
  · rintro ⟨hholds, rfl⟩
    refine ⟨_, (progress_eq_ok hchange hpos).mpr ⟨hholds, rfl⟩, pure_eq_ok.mpr ?_⟩
    rw [scalar_zero, scalar_one]
    rfl

section Elapsed

variable {left left' whole : ℤ} (hwhole : whole ∈ [150, 400]) (hleft : |left| ≤ 2 ^ 31)
include hwhole

theorem whole_bounds : 0 < whole ∧ whole ≤ 400 := by
  have hall : ∀ t ∈ [150, 400], (0 : ℤ) < t ∧ t ≤ 400 := by decide
  exact hall whole hwhole

include hleft

theorem rest_represents :
    Single.Represents (1 - Single.ofInt left / Single.ofInt whole) (Single.rounded (1 - Single.share left whole)) :=
  Single.fraction_represents (whole_bounds hwhole).1 ((whole_bounds hwhole).2.trans (by decide)) hleft

theorem elapsed_represents :
    Single.Represents (elapsed left whole) (max 0 (min 1 (Single.rounded (1 - Single.share left whole)))) :=
  Single.zero_represents.clamp Single.one_represents (rest_represents hwhole hleft) zero_le_one

theorem elapsed_bounds : 0 ≤ elapsed left whole ∧ elapsed left whole ≤ 1 := by
  have hpart := elapsed_represents hwhole hleft
  exact ⟨Single.zero_represents.le hpart (le_max_left _ _),
    hpart.le Single.one_represents (max_le zero_le_one (min_le_left _ _))⟩

theorem elapsed_antitone (hleft' : |left'| ≤ 2 ^ 31) (h : left' ≤ left) :
    elapsed left whole ≤ elapsed left' whole :=
  (elapsed_represents hwhole hleft).le (elapsed_represents hwhole hleft')
    (max_le_max_left _ (min_le_min_left _ (Single.rounded_rest_antitone (whole_bounds hwhole).1 h)))

theorem elapsed_early (h : whole ≤ left) : elapsed left whole = 0 := by
  obtain ⟨hpos, hle⟩ := whole_bounds hwhole
  obtain rfl | hearly : left = whole ∨ whole + 1 ≤ left := by omega
  · have hall : ∀ t ∈ [150, 400], elapsed t t = 0 := by decide
    exact hall left hwhole
  have hlast : (1 : Float32) - Single.ofInt (whole + 1) / Single.ofInt whole < 0 := by
    have hall : ∀ t ∈ [150, 400], (1 : Float32) - Single.ofInt (t + 1) / Single.ofInt t < 0 := by decide
    exact hall whole hwhole
  have hnear : |whole + 1| ≤ 2 ^ 31 := abs_le.mpr (by omega)
  rw [(rest_represents hwhole hnear).lt_iff Single.zero_represents] at hlast
  refine if_pos (((rest_represents hwhole hleft).lt_iff Single.zero_represents).mpr ?_)
  exact (Single.rounded_rest_antitone hpos hearly).trans_lt hlast

theorem elapsed_late (h : left ≤ 0) : elapsed left whole = 1 := by
  obtain rfl | hlate : left = 0 ∨ left < 0 := by omega
  · have hall : ∀ t ∈ [150, 400], elapsed 0 t = 1 := by decide
    exact hall whole hwhole
  have hblend : whole ∈ [100, 150, 250, 400] := by
    have hall : ∀ t ∈ [150, 400], (t : ℤ) ∈ [100, 150, 250, 400] := by decide
    exact hall whole hwhole
  have hrest := rest_represents hwhole hleft
  have hover : 1 < Single.rounded (1 - Single.share left whole) := (fraction_over_iff hblend).mpr hlate
  have hnot : ¬ 1 - Single.ofInt left / Single.ofInt whole < 0 := by
    rw [hrest.lt_iff Single.zero_represents]
    exact not_lt.mpr (zero_le_one.trans hover.le)
  rw [elapsed, Scalar.clamp, if_neg hnot]
  exact if_pos ((Single.one_represents.lt_iff hrest).mpr hover)

theorem elapsed_between (hpos : 0 < left) (hlt : left < whole) : 0 < elapsed left whole ∧ elapsed left whole < 1 := by
  obtain ⟨hwpos, hle⟩ := whole_bounds hwhole
  have hends : 0 < elapsed (whole - 1) whole ∧ elapsed 1 whole < 1 := by
    have hall : ∀ t ∈ [150, 400], 0 < elapsed (t - 1) t ∧ elapsed 1 t < 1 := by decide
    exact hall whole hwhole
  have hpart := elapsed_represents hwhole hleft
  have hfirst := elapsed_represents hwhole (show |whole - 1| ≤ 2 ^ 31 from abs_le.mpr (by omega))
  have hlast := elapsed_represents hwhole (show |(1 : ℤ)| ≤ 2 ^ 31 by decide)
  rw [Single.zero_represents.lt_iff hfirst, hlast.lt_iff Single.one_represents] at hends
  rw [Single.zero_represents.lt_iff hpart, hpart.lt_iff Single.one_represents]
  have hmono {m n : ℤ} (h : n ≤ m) := max_le_max_left 0 (min_le_min_left 1 (Single.rounded_rest_antitone hwpos h))
  exact ⟨hends.1.trans_le (hmono (by omega)), (hmono (by omega)).trans_lt hends.2⟩

theorem elapsed_eq_zero_iff : elapsed left whole = 0 ↔ whole ≤ left := by
  refine ⟨fun hzero => ?_, elapsed_early hwhole hleft⟩
  by_contra hlt
  rw [not_le] at hlt
  rcases le_or_gt left 0 with hlate | hpos
  · rw [elapsed_late hwhole hleft hlate] at hzero
    exact absurd hzero (by decide)
  · have hsome := (elapsed_between hwhole hleft hpos hlt).1
    rw [hzero] at hsome
    exact absurd hsome (by decide)

theorem elapsed_eq_one_iff : elapsed left whole = 1 ↔ left ≤ 0 := by
  refine ⟨fun hone => ?_, elapsed_late hwhole hleft⟩
  by_contra hpos
  rw [not_le] at hpos
  rcases le_or_gt whole left with hearly | hlt
  · rw [elapsed_early hwhole hleft hearly] at hone
    exact absurd hone (by decide)
  · have hpart := (elapsed_between hwhole hleft hpos hlt).2
    rw [hone] at hpart
    exact absurd hpart (by decide)

end Elapsed

section Clock

theorem abs_left_le {left : ℤ} (h : Scalar.holds Float32 left) : |left| ≤ 2 ^ 31 := by
  rw [WordClock.holds_iff] at h
  exact abs_le.mpr (by omega)

variable {transition : StanceTransition} {start time : Int} (hchange : transition ≠ .none)
include hchange

theorem fraction_startedAt {f : Float32} : (startedAt transition start).fraction time = .ok f ↔
    Scalar.holds Float32 (start + transition.duration - time) ∧
      elapsed (start + transition.duration - time) transition.duration = f :=
  fraction_eq hchange (StanceTransition.duration_pos hchange)

theorem fraction_by_clock (hholds : Scalar.holds Float32 (start + transition.duration - time)) :
    ∃ f : Float32, (startedAt transition start).fraction time = .ok f ∧ 0 ≤ f ∧ f ≤ 1 ∧
      (f = 0 ↔ time ≤ start) ∧ (f = 1 ↔ start + transition.duration ≤ time) ∧
      (start < time → time < start + transition.duration → 0 < f ∧ f < 1) := by
  have hwhole := StanceTransition.duration_mem hchange
  have hleft := abs_left_le hholds
  obtain ⟨hlow, hhigh⟩ := elapsed_bounds hwhole hleft
  refine ⟨_, (fraction_startedAt hchange).mpr ⟨hholds, rfl⟩, hlow, hhigh, ?_, ?_, fun hstarted hrunning => ?_⟩
  · rw [elapsed_eq_zero_iff hwhole hleft]
    omega
  · rw [elapsed_eq_one_iff hwhole hleft]
    omega
  · exact elapsed_between hwhole hleft (by omega) (by omega)

theorem fraction_mono {early late : Int} {f g : Float32} (h : early ≤ late)
    (hearly : (startedAt transition start).fraction early = .ok f)
    (hlate : (startedAt transition start).fraction late = .ok g) : f ≤ g := by
  obtain ⟨hholds, rfl⟩ := (fraction_startedAt hchange).mp hearly
  obtain ⟨hholds', rfl⟩ := (fraction_startedAt hchange).mp hlate
  exact elapsed_antitone (StanceTransition.duration_mem hchange) (abs_left_le hholds) (abs_left_le hholds')
    (by omega)

end Clock

end StanceTimer

/-- Whether a call works out or moves the pose of a player. -/
def Call.isPass {α : Type} : Call α → Bool
  | .build .. | .pose .. => true
  | .start .. | .reset => false

section Store

variable {α : Type} {key : PlayerKey}

theorem Records.not_isPass {call : Call α} {outcome : Outcome α} {timer : StanceTimer}
    (h : Records key (call, outcome) timer) : ¬ call.isPass := by
  cases h with
  | start | reset => exact Bool.false_ne_true

variable [Scalar α] {s t : Store α} {calls : List (Call α)} {outcomes : List (Outcome α)}

theorem Store.run_unrecorded (h : s.run calls = .ok (outcomes, t))
    (hnot : ∀ turn ∈ calls.zip outcomes, ∀ timer, ¬ Records key turn timer) :
    (t.entry key).stance = (s.entry key).stance := by
  obtain ⟨-, hkept⟩ | ⟨before, turn, after, hlog, hrec, -⟩ := run_stance h key
  · exact hkept
  · have hmem : turn ∈ calls.zip outcomes := by
      rw [hlog]
      exact List.mem_append_right _ List.mem_cons_self
    exact absurd hrec (hnot turn hmem _)

theorem Store.run_passes (h : s.run calls = .ok (outcomes, t)) (hpass : ∀ call ∈ calls, call.isPass) :
    (t.entry key).stance = (s.entry key).stance := by
  refine run_unrecorded h fun turn hturn timer hrec => ?_
  obtain ⟨call, outcome⟩ := turn
  exact hrec.not_isPass (hpass call (List.of_mem_zip hturn).1)

end Store

/-- The part of a change of stance that is over goes by the clock, as long as nothing has replaced the change.
-/
theorem fraction_follows_clock {frame : Frame} {host : Host Float32} {s t : Store Float32}
    {ci : ClientInfo Float32} {body : Body} {number : AnimNum} {started : Started Float32} {key : PlayerKey}
    {calls : List (Call Float32)} {outcomes : List (Outcome Float32)}
    (h : startAnimation frame host s ci body number = .ok started) (hchange : started.transition ≠ .none)
    (hkey : PlayerKey.of ci.clientNum frame.role = .ok key)
    (hrun : started.store.run calls = .ok (outcomes, t))
    (hlast : ∀ turn ∈ calls.zip outcomes, ∀ timer, ¬ Records key turn timer) :
    let timer := (t.entry key).stance
    let finish := frame.time + started.transition.duration
    (∀ time, Scalar.holds Float32 (finish - time) →
      ∃ f : Float32, timer.fraction time = .ok f ∧ 0 ≤ f ∧ f ≤ 1 ∧
        (f = 0 ↔ time ≤ frame.time) ∧ (f = 1 ↔ finish ≤ time) ∧
        (frame.time < time → time < finish → 0 < f ∧ f < 1)) ∧
    (∀ early late : Int, early ≤ late → ∀ f g : Float32,
      timer.fraction early = .ok f → timer.fraction late = .ok g → f ≤ g) ∧
    ∀ passes results u, t.run passes = .ok (results, u) → (∀ call ∈ passes, call.isPass) →
      (u.entry key).stance = timer := by
  intro timer finish
  have htimer : timer = .startedAt started.transition frame.time := by
    obtain ⟨-, -, hentry⟩ | ⟨hkept, -⟩ := startAnimation_entry h key
    · exact (Store.run_unrecorded hrun hlast).trans (by rw [hentry])
    · exact absurd ⟨hkey, hchange⟩ hkept
  rw [htimer]
  refine ⟨fun time hholds => ?_, fun early late hle f g => ?_, fun passes results u hpasses hpass => ?_⟩
  · exact StanceTimer.fraction_by_clock hchange hholds
  · exact StanceTimer.fraction_mono hchange hle
  · exact (Store.run_passes hpasses hpass).trans htimer

section Example

def crouches : Except Fault (Started Float32) :=
  startAnimation ⟨.server, .enhanced, 1000, 50⟩ .twoStances .fresh (.playing 0 ⟨1⟩) .legs ⟨2⟩

def passing : List (Call Float32) :=
  [.pose ⟨.server, .enhanced, 1050, 50⟩ .twoStances (.initial 0) (.playing 0 ⟨2⟩) ⟨false, none⟩,
    .build ⟨.server, .enhanced, 1050, 50⟩ .twoStances (.initial 1) (.playing 1 ⟨1⟩) false]

theorem fraction_follows_clock_crouching :
    ∃ started outcomes t, crouches = .ok started ∧ started.transition = .standToCrouch ∧
      started.store.run passing = .ok (outcomes, t) ∧
      (∃ f : Float32, (t.entry (.first .server)).stance.fraction 1075 = .ok f ∧ 0 < f ∧ f < 1) ∧
      ∃ f : Float32, (t.entry (.first .server)).stance.fraction 1150 = .ok f ∧ f = 1 := by
  obtain ⟨⟨outcomes, t⟩, hall⟩ : ∃ p, (crouches >>= fun started => started.store.run passing) = .ok p :=
    exists_eq_ok (by rfl)
  obtain ⟨started, h, hrun⟩ := bind_eq_ok.mp hall
  have htransition : crouches.map Started.transition = .ok .standToCrouch := by rfl
  rw [h] at htransition
  have hcrouch : started.transition = .standToCrouch := Except.ok.inj htransition
  have hpass : ∀ call ∈ passing, call.isPass := by
    intro call hcall
    simp only [passing, List.mem_cons, List.not_mem_nil, or_false] at hcall
    rcases hcall with rfl | rfl <;> rfl
  have hchange : started.transition ≠ .none := by
    rw [hcrouch]
    exact nofun
  have hkey : PlayerKey.of (ClientInfo.playing 0 ⟨1⟩ : ClientInfo Float32).clientNum .server = .ok (.first .server) := rfl
  obtain ⟨hclock, -⟩ := fraction_follows_clock h hchange hkey hrun
    fun turn hturn timer hrec => hrec.not_isPass (hpass _ (List.of_mem_zip hturn).1)
  rw [hcrouch] at hclock
  obtain ⟨f, hf, -, -, -, -, hpart⟩ := hclock 1075 (by decide)
  obtain ⟨g, hg, -, -, -, hend, -⟩ := hclock 1150 (by decide)
  exact ⟨started, outcomes, t, h, hcrouch, hrun, ⟨f, hf, hpart (by decide) (by decide)⟩, g, hg, hend.mpr (by decide)⟩

end Example

end PlayerAnimation
