import PlayerAnimation.Proofs.Exact
import PlayerAnimation.Proofs.Target.Enhanced

namespace PlayerAnimation

namespace Angle

theorem raisedCosine_eq (x : ℝ) : raisedCosine x = (1 - Real.cos (x * (2 * Real.pi))) / 2 := by
  rw [raisedCosine, Exact.ofScientific_eq, Exact.one_eq, mul_comm x]
  change _ * (1 - Real.cos (2 * Real.pi * x)) = _
  ring

theorem raisedCosine_mem (x : ℝ) : raisedCosine x ∈ Set.Icc (0 : ℝ) 1 := by
  have hlow := Real.neg_one_le_cos (x * (2 * Real.pi))
  have hhigh := Real.cos_le_one (x * (2 * Real.pi))
  rw [raisedCosine_eq]
  constructor <;> linarith

theorem raisedCosine_eq_zero_iff (x : ℝ) : raisedCosine x = 0 ↔ ∃ n : ℤ, (n : ℝ) = x := by
  have hturn : 2 * Real.pi ≠ 0 := Real.two_pi_pos.ne'
  have hcos : raisedCosine x = 0 ↔ Real.cos (x * (2 * Real.pi)) = 1 := by
    rw [raisedCosine_eq]
    constructor <;> intro h <;> linarith
  rw [hcos, Real.cos_eq_one_iff]
  exact exists_congr fun n => mul_left_inj' hturn

theorem raisedCosine_ne_zero {x : ℝ} (hpos : 0 < x) (hlt : x < 1) : raisedCosine x ≠ 0 := by
  rw [Ne, raisedCosine_eq_zero_iff]
  rintro ⟨n, rfl⟩
  have hlow : 0 < n := by exact_mod_cast hpos
  have hhigh : n < 1 := by exact_mod_cast hlt
  omega

theorem raisedCosine_clamp_eq_zero_iff (x : ℝ) : raisedCosine (Scalar.clamp 0 1 x) = 0 ↔ x ≤ 0 ∨ 1 ≤ x := by
  have hends : raisedCosine (0 : ℝ) = 0 ∧ raisedCosine (1 : ℝ) = 0 :=
    ⟨(raisedCosine_eq_zero_iff 0).mpr ⟨0, Int.cast_zero⟩, (raisedCosine_eq_zero_iff 1).mpr ⟨1, Int.cast_one⟩⟩
  rw [Scalar.clamp]
  split_ifs with hlow hhigh
  · exact iff_of_true hends.1 (.inl hlow.le)
  · exact iff_of_true hends.2 (.inr hhigh.le)
  · constructor
    · intro hzero
      by_contra hinside
      rw [not_or, not_le, not_le] at hinside
      exact raisedCosine_ne_zero hinside.1 hinside.2 hzero
    · rintro (hle | hge)
      · rw [le_antisymm hle (not_lt.mp hlow)]
        exact hends.1
      · rw [le_antisymm (not_lt.mp hhigh) hge]
        exact hends.2

end Angle

namespace Enhanced

open Angle

section Parts

variable {α : Type} [Scalar α]

/-- The part of its full size that the shift of the falling body has, or the bounce of the landed one, by how long
ago it has begun. Both take as long. -/
def surge (since : α) : α := raisedCosine (Scalar.clamp 0 1 (since / (1 - touchdown)))

theorem dropping_eq (progress : α) (p : Controllers α) :
    dropping progress p =
      { p with
        originOffset := (p.originOffset.addX (surge progress * -5)).addZ (surge (progress - touchdown) * 12)
        originAngles := p.originAngles.addX (surge (progress - touchdown) * -10)
        backLow := p.backLow.addX (surge (progress - touchdown) * 10) } := rfl

end Parts

variable {progress : ℝ}

theorem touchdown_eq : (touchdown : ℝ) = 2 / 5 := by
  rw [touchdown, Exact.ofScientific_eq]
  norm_num

theorem surge_eq_zero_iff (since : ℝ) : surge since = 0 ↔ since ≤ 0 ∨ 3 / 5 ≤ since := by
  simp only [surge, touchdown_eq, Exact.zero_eq, Exact.one_eq]
  rw [raisedCosine_clamp_eq_zero_iff, le_div_iff₀ (by norm_num), div_le_iff₀ (by norm_num), zero_mul, one_mul]
  norm_num

theorem falling_eq_zero_iff (hpos : 0 < progress) : surge progress = 0 ↔ 3 / 5 ≤ progress := by
  rw [surge_eq_zero_iff, or_iff_right hpos.not_ge]

theorem bouncing_eq_zero_iff (hlt : progress < 1) : surge (progress - touchdown) = 0 ↔ progress ≤ 2 / 5 := by
  have hends : ¬ 3 / 5 ≤ progress - touchdown := by
    rw [touchdown_eq]
    linarith
  rw [surge_eq_zero_iff, or_iff_left hends, touchdown_eq, sub_nonpos]

end Enhanced

namespace StanceTimer

variable {s : StanceTimer} {time : Int} {progress : ℝ}

theorem change_of_low (h : s.transition = .crouchToProne ∨ s.transition = .proneToCrouch) : s.transition ≠ .none := by
  rcases h with h | h <;> rw [h] <;> exact nofun

def since (s : StanceTimer) (time : Int) : Int := time - (s.finish - s.duration)

theorem progress_since (hchange : s.transition ≠ .none) (hpos : 0 < s.duration)
    (h : s.progress time = .ok progress) : progress = s.since time / s.duration := by
  obtain ⟨-, rfl⟩ := (progress_eq_ok hchange hpos).mp h
  have hduration : (s.duration : ℝ) ≠ 0 := by exact_mod_cast hpos.ne'
  rw [Exact.one_eq, Exact.ofInt_eq, Exact.ofInt_eq, since, eq_div_iff hduration, sub_mul, div_mul_cancel₀ _ hduration]
  push_cast
  ring

theorem shows_iff (hchange : s.transition ≠ .none) (h : s.progress time = .ok progress) :
    ¬ (progress ≤ 0 ∨ 1 ≤ progress) ↔ s.finish - s.duration < time ∧ time < s.finish := by
  by_cases hpos : 0 < s.duration
  · have hduration : (0 : ℝ) < s.duration := by exact_mod_cast hpos
    rw [progress_since hchange hpos h, not_or, not_le, not_le, div_pos_iff_of_pos_right hduration,
      div_lt_one hduration, Int.cast_pos, Int.cast_lt, since]
    omega
  · rw [StanceTimer.progress, if_pos (Or.inr (not_lt.mp hpos))] at h
    obtain rfl := pure_eq_ok.mp h
    rw [Exact.zero_eq]
    refine iff_of_false (not_not.mpr (.inl le_rfl)) ?_
    omega

section Lowers

variable (hlowers : s.lowers time)
include hlowers

theorem lowers.duration_pos : 0 < s.duration := by
  have hbetween := hlowers.2
  omega

variable (h : s.progress time = .ok progress)
include h

theorem lowers.progress_eq : progress = s.since time / s.duration :=
  progress_since (change_of_low hlowers.1) hlowers.duration_pos h

theorem lowers.ge_progress_iff : 3 / 5 ≤ progress ↔ 3 * s.duration ≤ 5 * s.since time := by
  have hduration : (0 : ℝ) < s.duration := by exact_mod_cast hlowers.duration_pos
  rw [hlowers.progress_eq h, div_le_div_iff₀ (by norm_num) hduration, mul_comm _ (5 : ℝ)]
  exact_mod_cast Iff.rfl

theorem lowers.progress_le_iff : progress ≤ 2 / 5 ↔ 5 * s.since time ≤ 2 * s.duration := by
  have hduration : (0 : ℝ) < s.duration := by exact_mod_cast hlowers.duration_pos
  rw [hlowers.progress_eq h, div_le_div_iff₀ hduration (by norm_num), mul_comm _ (5 : ℝ)]
  exact_mod_cast Iff.rfl

end Lowers

end StanceTimer

/-- What a change of stance makes of a pose at a time, unless the pose is left to the played animation. -/
inductive Carried (rests : Bool) (timer : StanceTimer) (time : Int) (p : Controllers ℝ) : Controllers ℝ → Prop
  | same (h : ¬ (rests = false ∧ timer.lowers time)) : Carried rests timer time p p
  | rising (hshows : rests = false ∧ timer.lowers time) (htransition : timer.transition = .proneToCrouch)
      {shift : ℝ} (hmem : shift ∈ Set.Icc (-5 : ℝ) 0) (hne : shift ≠ 0) :
      Carried rests timer time p { p with originOffset := p.originOffset.addX shift }
  | dropping (hshows : rests = false ∧ timer.lowers time) (htransition : timer.transition = .crouchToProne)
      {fallen bounced : ℝ} (hfallen : fallen ∈ Set.Icc (0 : ℝ) 1) (hbounced : bounced ∈ Set.Icc (0 : ℝ) 1)
      (hground : fallen = 0 ↔ 3 * timer.duration ≤ 5 * timer.since time)
      (hair : bounced = 0 ↔ 5 * timer.since time ≤ 2 * timer.duration) :
      Carried rests timer time p
        { p with
          originOffset := (p.originOffset.addX (fallen * -5)).addZ (bounced * 12)
          originAngles := p.originAngles.addX (bounced * -10)
          backLow := p.backLow.addX (bounced * 10) }

theorem Enhanced.inTransition_carried {timer : StanceTimer} {time : Int} {progress : ℝ}
    (h : timer.progress time = .ok progress) (p : Controllers ℝ) :
    Carried false timer time p (inTransition timer.transition progress p) := by
  unfold inTransition
  split
  · next hends =>
      rw [Exact.zero_eq, Exact.one_eq] at hends
      refine .same ?_
      rintro ⟨-, hlow, hbetween⟩
      exact (StanceTimer.shows_iff (StanceTimer.change_of_low hlow) h).mpr hbetween hends
  · next hshows =>
      rw [Exact.zero_eq, Exact.one_eq] at hshows
      have hinside := not_or.mp hshows
      rw [not_le, not_le] at hinside
      have hlowers (hlow : timer.transition = .crouchToProne ∨ timer.transition = .proneToCrouch) :
          timer.lowers time :=
        ⟨hlow, (StanceTimer.shows_iff (StanceTimer.change_of_low hlow) h).mp hshows⟩
      split
      · next hdrops =>
          have hlow := hlowers (.inl hdrops)
          rw [dropping_eq]
          simp only [Exact.ofNat_eq]
          refine .dropping ⟨rfl, hlow⟩ hdrops (Angle.raisedCosine_mem _) (Angle.raisedCosine_mem _) ?_ ?_
          · exact (falling_eq_zero_iff hinside.1).trans (hlow.ge_progress_iff h)
          · exact (bouncing_eq_zero_iff hinside.2).trans (hlow.progress_le_iff h)
      · next hrises =>
          obtain ⟨hlow, hhigh⟩ := Angle.raisedCosine_mem progress
          rw [rising]
          simp only [Exact.ofNat_eq]
          refine .rising ⟨rfl, hlowers (.inr hrises)⟩ hrises ⟨by linarith, by linarith⟩ ?_
          exact mul_ne_zero (Angle.raisedCosine_ne_zero hinside.1 hinside.2) (by norm_num)
      · next hother hother' =>
          refine .same ?_
          rintro ⟨-, hdrops | hrises, -⟩
          · exact hother hdrops
          · exact hother' hrises

namespace Vec3

@[simp] theorem addX_zero (a : Vec3 ℝ) : a.addX 0 = a := Vec3.ext (add_zero a.x) rfl rfl

@[simp] theorem addZ_zero (a : Vec3 ℝ) : a.addZ 0 = a := Vec3.ext rfl rfl (add_zero a.z)

end Vec3

namespace Carried

variable {rests : Bool} {timer : StanceTimer} {time : Int} {p q : Controllers ℝ}
  (h : Carried rests timer time p q)
include h

theorem ne_iff : q ≠ p ↔ rests = false ∧ timer.lowers time := by
  cases h with
  | same hsame => exact iff_of_false (fun hne => hne rfl) hsame
  | rising hshows _ _ hne =>
      refine iff_of_true (fun heq => hne ?_) hshows
      exact left_eq_add.mp (congrArg (fun c => c.originOffset.x) heq).symm
  | dropping hshows _ _ _ hground hair =>
      -- The bounce begins before the fall is over, so one of them always shows.
      refine iff_of_true (fun heq => ?_) hshows
      have hx := left_eq_add.mp (congrArg (fun c => c.originOffset.x) heq).symm
      have hz := left_eq_add.mp (congrArg (fun c => c.originOffset.z) heq).symm
      have hfallen := hground.mp ((mul_eq_zero_iff_right (by norm_num)).mp hx)
      have hbounced := hair.mp ((mul_eq_zero_iff_right (by norm_num)).mp hz)
      have hpos := hshows.2.duration_pos
      omega

theorem of_rising (hrises : timer.transition = .proneToCrouch) :
    ∃ shift ∈ Set.Icc (-5 : ℝ) 0, q = { p with originOffset := p.originOffset.addX shift } := by
  cases h with
  | same => exact ⟨0, by norm_num, by rw [Vec3.addX_zero]⟩
  | rising _ _ hmem => exact ⟨_, hmem, rfl⟩
  | dropping _ hdrops =>
      rw [hrises] at hdrops
      cases hdrops

theorem of_dropping (hdrops : timer.transition = .crouchToProne) :
    ∃ shift ∈ Set.Icc (-5 : ℝ) 0, ∃ lift ∈ Set.Icc (0 : ℝ) 12, ∃ tip ∈ Set.Icc (-10 : ℝ) 0,
      ∃ bow ∈ Set.Icc (0 : ℝ) 10,
        q = { p with
          originOffset := (p.originOffset.addX shift).addZ lift
          originAngles := p.originAngles.addX tip
          backLow := p.backLow.addX bow } ∧
        (3 * timer.duration ≤ 5 * timer.since time → shift = 0) ∧
        (5 * timer.since time ≤ 2 * timer.duration → lift = 0 ∧ tip = 0 ∧ bow = 0) := by
  cases h with
  | same =>
      refine ⟨0, by norm_num, 0, by norm_num, 0, by norm_num, 0, by norm_num, ?_, fun _ => rfl, fun _ => ?_⟩
      · simp only [Vec3.addX_zero, Vec3.addZ_zero]
      · exact ⟨rfl, rfl, rfl⟩
  | rising _ hrises =>
      rw [hdrops] at hrises
      cases hrises
  | dropping _ _ hfallen hbounced hground hair =>
      obtain ⟨hlow, hhigh⟩ := hfallen
      obtain ⟨hlow', hhigh'⟩ := hbounced
      refine ⟨_, ⟨?_, ?_⟩, _, ⟨?_, ?_⟩, _, ⟨?_, ?_⟩, _, ⟨?_, ?_⟩, rfl, fun hover => ?_, fun hearly => ?_⟩
      any_goals linarith
      · rw [hground.mpr hover, zero_mul]
      · rw [hair.mpr hearly, zero_mul, zero_mul, zero_mul]
        exact ⟨rfl, rfl, rfl⟩

end Carried

section Build

theorem Enhanced.inTransition_none {α : Type} [Scalar α] (progress : α) (p : Controllers α) :
    inTransition .none progress p = p := ite_self p

/-- What is recorded about a player, but for a change of stance. -/
def PlayerData.still {α : Type} (d : PlayerData α) : PlayerData α :=
  { d with stance := { d.stance with transition := .none } }

variable {α : Type} [Scalar α]

theorem buildTarget_still {frame : Frame} (host : Host α) (s : Store α) (es : EntityState α) (ci : ClientInfo α)
    (neutral : Bool) (henhanced : frame.compat = .enhanced) (hclient : ci.clientNum < maxClients) :
    let key : PlayerKey := ⟨⟨ci.clientNum, hclient⟩, frame.role⟩
    let timer := (s.entry key).stance
    ∃ bare, buildTarget frame host (s.put key (s.entry key).still) es ci neutral = .ok bare ∧
      (Scalar.holds α (timer.finish - frame.time) →
        ∃ full, buildTarget frame host s es ci neutral = .ok full) ∧
      ∀ full, buildTarget frame host s es ci neutral = .ok full →
        if Target.rests frame.role es neutral then full.target = bare.target
        else ∃ progress, timer.progress frame.time = .ok progress ∧
          full.target = Enhanced.inTransition timer.transition progress bare.target := by
  intro key timer
  cases hrests : Target.rests frame.role es neutral with
  | true =>
      have hrest (t : Store α) : ∃ edits, ∀ ci, buildTarget frame host t es ci neutral = .ok ⟨.zero, t, edits⟩ :=
        buildTarget_resting hrests
      obtain ⟨_, hstill⟩ := hrest (s.put key (s.entry key).still)
      obtain ⟨_, hbuild⟩ := hrest s
      refine ⟨_, hstill ci, fun _ => ⟨_, hbuild ci⟩, fun full h => ?_⟩
      obtain rfl := Except.ok.inj ((hbuild ci).symm.trans h)
      rfl
  | false =>
      have hkey : PlayerKey.of ci.clientNum frame.role = .ok key := dif_pos hclient
      have hbuild : buildTarget frame host s es ci neutral = _ := buildTarget_enhanced henhanced hrests hkey
      have hstill : buildTarget frame host (s.put key (s.entry key).still) es ci neutral = _ :=
        buildTarget_enhanced henhanced hrests hkey
      have hprogress : (s.entry key).still.stance.progress frame.time = .ok (0 : α) := if_pos (.inl rfl)
      rw [Store.entry_put_self, hprogress] at hstill
      refine ⟨_, hstill, fun hholds => ?_, fun full h => ?_⟩
      · obtain ⟨progress, hp⟩ := StanceTimer.progress_exists hholds
        exact ⟨_, hbuild.trans (by rw [hp]; rfl)⟩
      · rw [hbuild] at h
        obtain ⟨progress, hp, rfl⟩ := map_eq_ok.mp h
        refine ⟨progress, hp, ?_⟩
        exact congrArg (Enhanced.inTransition timer.transition progress) (Enhanced.inTransition_none 0 _).symm

end Build

/-- Only a way to or from prone that is under way changes the target, and then only a few components of it: the
model shifts back and, on the way down, bounces off the ground later on. -/
theorem transitions_local (frame : Frame) (host : Host ℝ) (s : Store ℝ) (es : EntityState ℝ) (ci : ClientInfo ℝ)
    (neutral : Bool) (henhanced : frame.compat = .enhanced) (hclient : ci.clientNum < maxClients) :
    let key : PlayerKey := ⟨⟨ci.clientNum, hclient⟩, frame.role⟩
    let timer := (s.entry key).stance
    let since := frame.time - (timer.finish - timer.duration)
    ∃ bare, buildTarget frame host (s.put key (s.entry key).still) es ci neutral = .ok bare ∧
      (Scalar.holds ℝ (timer.finish - frame.time) →
        ∃ full, buildTarget frame host s es ci neutral = .ok full) ∧
      ∀ full, buildTarget frame host s es ci neutral = .ok full →
        (full.target ≠ bare.target ↔ Target.rests frame.role es neutral = false ∧ timer.lowers frame.time) ∧
        (timer.transition = .proneToCrouch → ∃ shift ∈ Set.Icc (-5 : ℝ) 0,
          full.target = { bare.target with originOffset := bare.target.originOffset.addX shift }) ∧
        (timer.transition = .crouchToProne →
          ∃ shift ∈ Set.Icc (-5 : ℝ) 0, ∃ lift ∈ Set.Icc (0 : ℝ) 12, ∃ tip ∈ Set.Icc (-10 : ℝ) 0,
            ∃ bow ∈ Set.Icc (0 : ℝ) 10,
              full.target = { bare.target with
                originOffset := (bare.target.originOffset.addX shift).addZ lift
                originAngles := bare.target.originAngles.addX tip
                backLow := bare.target.backLow.addX bow } ∧
              (3 * timer.duration ≤ 5 * since → shift = 0) ∧
              (5 * since ≤ 2 * timer.duration → lift = 0 ∧ tip = 0 ∧ bow = 0)) := by
  intro key timer since
  obtain ⟨bare, hbare, hexists, hall⟩ := buildTarget_still host s es ci neutral henhanced hclient
  refine ⟨bare, hbare, hexists, fun full hfull => ?_⟩
  have hcarried : Carried (Target.rests frame.role es neutral) timer frame.time bare.target full.target := by
    have htarget := hall full hfull
    split at htarget
    · next hrests =>
        rw [htarget, hrests]
        exact .same fun hshows => Bool.noConfusion hshows.1
    · next hrests =>
        obtain ⟨progress, hp, htarget⟩ := htarget
        rw [htarget, Bool.eq_false_of_not_eq_true hrests]
        exact Enhanced.inTransition_carried hp bare.target
  exact ⟨hcarried.ne_iff, hcarried.of_rising, hcarried.of_dropping⟩

section Example

theorem transitions_local_falling :
    let frame : Frame := ⟨.client, .enhanced, 1150, 50⟩
    let host : Host ℝ := .ofScript #[] .idleProne false
    let key : PlayerKey := .first .client
    let s : Store ℝ := Store.fresh.put key { PlayerData.fresh with stance := ⟨.crouchToProne, 400, 1400⟩ }
    ∃ bare full, buildTarget frame host (s.put key (s.entry key).still) (.initial 0) (.initial 0) true = .ok bare ∧
      buildTarget frame host s (.initial 0) (.initial 0) true = .ok full ∧ full.target ≠ bare.target ∧
      ∃ shift ∈ Set.Icc (-5 : ℝ) 0,
        full.target = { bare.target with originOffset := bare.target.originOffset.addX shift } := by
  intro frame host key s
  have htimer : (s.entry key).stance = ⟨.crouchToProne, 400, 1400⟩ :=
    congrArg PlayerData.stance (Store.entry_put_self _ _ _)
  obtain ⟨bare, hbare, hexists, hall⟩ := transitions_local frame host s (.initial 0) (.initial 0) true rfl (by decide)
  change Scalar.holds ℝ ((s.entry key).stance.finish - frame.time) → _ at hexists
  obtain ⟨full, hfull⟩ := hexists (by rw [htimer, WordClock.holds_iff]; decide)
  obtain ⟨hchanged, -, hdropping⟩ := hall full hfull
  change _ ↔ _ ∧ (s.entry key).stance.lowers frame.time at hchanged
  change (s.entry key).stance.transition = .crouchToProne → _ at hdropping
  obtain ⟨shift, hshift, lift, -, tip, -, bow, -, htarget, -, hair⟩ := hdropping (by rw [htimer])
  change 5 * (frame.time - ((s.entry key).stance.finish - (s.entry key).stance.duration)) ≤
    2 * (s.entry key).stance.duration → _ at hair
  rw [htimer] at hchanged hair
  obtain ⟨rfl, rfl, rfl⟩ := hair (by decide)
  simp only [Vec3.addX_zero, Vec3.addZ_zero] at htarget
  exact ⟨bare, full, hbare, hfull, hchanged.mpr ⟨by decide, .inl rfl, by decide⟩, shift, hshift, htarget⟩

end Example

end PlayerAnimation
