import PlayerAnimation.Proofs.Blend.Duration
import PlayerAnimation.Proofs.Store.Timers

namespace PlayerAnimation

inductive Signal
  | started
  | ended
  | dropped
deriving DecidableEq

def PoseEvent.signal? : PoseEvent → Option Signal
  | movementChanged .. => some .started
  | movementFinished _ => some .ended
  | stanceTransition .. => none

section Late

/-- The single precision arithmetic does not lose the end of a blend: the fraction that is over exceeds
one as soon as a millisecond has passed since. -/
theorem fraction_over_iff {left whole : ℤ} (hwhole : whole ∈ [100, 150, 250, 400]) :
    1 < Single.rounded (1 - Single.share left whole) ↔ left < 0 := by
  have hbounds : ∀ t ∈ [100, 150, 250, 400], (0 : ℤ) < t ∧ t ≤ 2 ^ 31 := by decide
  obtain ⟨hpos, hle⟩ := hbounds whole hwhole
  have hnow : ¬ (1 : Float32) < 1 - Single.ofInt 0 / Single.ofInt whole := by
    have hall : ∀ t ∈ [100, 150, 250, 400], ¬ (1 : Float32) < 1 - Single.ofInt 0 / Single.ofInt t := by decide
    exact hall whole hwhole
  have hlate : (1 : Float32) < 1 - Single.ofInt (-1) / Single.ofInt whole := by
    have hall : ∀ t ∈ [100, 150, 250, 400], (1 : Float32) < 1 - Single.ofInt (-1) / Single.ofInt t := by decide
    exact hall whole hwhole
  rw [Single.one_represents.lt_iff (Single.fraction_represents hpos hle (by decide))] at hnow hlate
  constructor
  · intro hover
    by_contra hnot
    exact hnow (hover.trans_le (Single.rounded_rest_antitone hpos (not_lt.mp hnot)))
  · intro hneg
    exact hlate.trans_le (Single.rounded_rest_antitone hpos (by omega))

variable {d : PlayerData Float32} {time : Int} {progress : Option Float32}

theorem progress_cases (h : Blend.progress? d time = .ok progress) (hd : Timed d) :
    d.movementTime = 0 ∧ progress = none ∨
      0 < d.movementTime ∧ ∃ p q, progress = some p ∧ Single.Represents p q ∧
        (1 < q ↔ d.movementEnd < time) := by
  have hlow := hd.bounds.1
  by_cases hpos : 0 < d.movementTime
  · right
    rw [Blend.progress?, if_pos hpos] at h
    obtain ⟨left, hleft, h⟩ := bind_eq_ok.mp h
    obtain ⟨hholds, rfl⟩ := clock_sub_eq_ok.mp hleft
    rw [WordClock.holds_iff] at hholds
    have habs : |d.movementEnd - time| ≤ 2 ^ 31 := by
      rw [abs_le]
      omega
    have hmem : d.movementTime ∈ [100, 150, 250, 400] := by
      apply (List.mem_cons.mp hd.duration).resolve_left
      omega
    have hrep := Single.fraction_represents hpos (hd.bounds.2.trans (by decide)) habs
    refine ⟨hpos, _, _, (pure_eq_ok.mp h).symm, ?_, (fraction_over_iff hmem).trans sub_neg⟩
    rw [scalar_one]
    exact hrep
  · left
    have hzero : d.movementTime = 0 := by omega
    rw [Blend.progress?, if_neg hpos] at h
    exact ⟨hzero, (pure_eq_ok.mp h).symm⟩

theorem isOver_iff (h : Blend.progress? d time = .ok progress) (hd : Timed d) :
    Blend.isOver progress ↔ d.movementTime = 0 ∨ d.movementEnd < time := by
  obtain ⟨hzero, rfl⟩ | ⟨hpos, p, q, rfl, hp, hq⟩ := progress_cases h hd
  · exact iff_of_true rfl (.inl hzero)
  · have hover : Blend.isOver (some p) ↔ (1 : Float32) < p := by
      rw [Blend.isOver, Option.all_some, scalar_one]
      exact decide_eq_true_iff
    rw [hover, Single.one_represents.lt_iff hp, hq]
    omega

theorem advance_over (h : Blend.progress? d time = .ok progress) (hd : Timed d)
    (hover : d.movementTime = 0 ∨ d.movementEnd < time) (duration : Float32) (target current : Controllers Float32) :
    Blend.advance d progress duration target current = Blend.step duration target current := by
  obtain ⟨-, rfl⟩ | ⟨hpos, p, q, rfl, hp, hq⟩ := progress_cases h hd
  · rfl
  · have hlate : 1 < q := hq.mpr (hover.resolve_left hpos.ne')
    have hpast : ¬ p ≤ 1 := by
      rw [hp.le_iff Single.one_represents]
      exact not_le.mpr hlate
    refine if_neg ?_
    rw [scalar_one, Bool.and_eq_true, decide_eq_true_eq, decide_eq_true_eq]
    exact fun hmid => hpast hmid.2

end Late

/-- What a pass at the given time makes of the blend of a player, and what it notes about it. -/
inductive Blends (time : Int) (d : PlayerData Float32) : PlayerData Float32 → List PoseEvent → Prop
  | same (hm : d.movement = d.movementLast)
      (hon : d.movementRunning → 0 < d.movementTime ∧ time ≤ d.movementEnd) : Blends time d d []
  | ended (hm : d.movement = d.movementLast) (hrunning : d.movementRunning)
      (hover : d.movementTime = 0 ∨ d.movementEnd < time) :
      Blends time d { d with movementRunning := false } [.movementFinished time]
  | started (pose : Controllers Float32) (hm : d.movement ≠ d.movementLast) :
      Blends time d
        { d with
          movementLast := d.movement
          movementEnd := time + d.movementTime
          movementRunning := true
          movementStart := pose }
        [.movementChanged time d.movement d.movementTime]

theorem finish_blends {d : PlayerData Float32} {time : Int} {progress : Option Float32} (hd : Timed d)
    (hm : d.movement = d.movementLast) (h : Blend.progress? d time = .ok progress) :
    Blends time d (Blend.finish d progress time).1 (Blend.finish d progress time).2 := by
  have hover := isOver_iff h hd
  rw [Blend.finish]
  split
  · next hend =>
      rw [Bool.and_eq_true, hover] at hend
      exact .ended hm hend.1 hend.2
  · next hgoes =>
      refine .same hm fun hrunning => ?_
      rw [Bool.and_eq_true, hover] at hgoes
      have hlow := hd.bounds.1
      have hlate : ¬ (d.movementTime = 0 ∨ d.movementEnd < time) := fun hend => hgoes ⟨hrunning, hend⟩
      omega

theorem begin_blends {d begun : PlayerData Float32} {time : Int} {pose : Controllers Float32}
    {events : List PoseEvent} {progress : Option Float32} (hd : Timed d)
    (hbegin : Blend.begin d time pose = .ok (begun, events))
    (hprogress : Blend.progress? begun time = .ok progress) :
    Blends time d (Blend.finish begun progress time).1 (events ++ (Blend.finish begun progress time).2) := by
  by_cases hm : d.movement = d.movementLast
  · rw [Blend.begin, if_pos hm] at hbegin
    obtain ⟨rfl, rfl⟩ := Prod.mk.inj (pure_eq_ok.mp hbegin)
    exact finish_blends hd hm hprogress
  · have hpos := hd.positive hm
    have hlater : ¬ d.movementTime ≤ 0 := by omega
    rw [Blend.begin, if_neg hm, if_neg hlater] at hbegin
    obtain ⟨_, hfinish, hbegin⟩ := bind_eq_ok.mp hbegin
    obtain ⟨-, rfl⟩ := clock_add_eq_ok.mp hfinish
    obtain ⟨rfl, rfl⟩ := Prod.mk.inj (pure_eq_ok.mp hbegin)
    have hbegun := hd.edit (show Edit time d _ from .restart pose hm fun _ => rfl)
    have hgoes : ¬ Blend.isOver progress := by
      rw [isOver_iff hprogress hbegun]
      dsimp only
      omega
    rw [Blend.finish, Bool.eq_false_of_not_eq_true hgoes, Bool.and_false, if_neg Bool.false_ne_true]
    exact .started pose hm

theorem poseController_blends {frame : Frame} {host : Host Float32} {s : Store Float32} {es : EntityState Float32}
    {ci : ClientInfo Float32} {tuning : Tuning Float32} {posed : Posed Float32} {key : PlayerKey}
    (h : poseController frame host s es ci tuning = .ok posed) (henhanced : frame.compat = .enhanced)
    (hkey : PlayerKey.of ci.clientNum frame.role = .ok key) (hs : Timed (s.entry key)) :
    ∃ movement duration, let noted := { s.entry key with movement, movementTime := duration }
      Timed noted ∧ Blends frame.time noted (posed.store.entry key) posed.events ∧
        (noted.movement = noted.movementLast → noted.movementTime = 0 ∨ noted.movementEnd < frame.time →
          posed.client.control = Blend.step (Scalar.ofInt frame.frameTime) posed.target ci.control) := by
  obtain ⟨built, mine, begun, begins, progress, hbuilt, hmine, hbegin, hprogress, hstore, hcontrol, hevents⟩ :=
    poseController_enhanced h henhanced
  obtain rfl := Except.ok.inj (hkey.symm.trans hmine)
  have hnoted : ∃ movement duration,
      built.store.entry key = { s.entry key with movement, movementTime := duration } := by
    obtain hsame | ⟨-, mine, base, hmine, hnote⟩ := buildTarget_store hbuilt
    · exact ⟨_, _, by rw [hsame]⟩
    · obtain rfl := Except.ok.inj (hkey.symm.trans hmine)
      exact ⟨_, _, by rw [hnote, Store.entry_put_self]⟩
  have htimed : Timed (built.store.entry key) :=
    edits_keep (buildTarget_edits hbuilt key) (fun _ _ => Timed.edit) hs
  obtain ⟨movement, duration, hentry⟩ := hnoted
  rw [hentry] at hbegin htimed
  refine ⟨movement, duration, htimed, ?_, fun hm hover => ?_⟩
  · rw [hstore, Store.entry_put_self, hevents]
    exact begin_blends htimed hbegin hprogress
  · obtain rfl := Blend.begin_same hbegin hm
    rw [hcontrol, advance_over hprogress htimed hover]

namespace Blends

variable {d d' : PlayerData Float32} {time : Int} {events : List PoseEvent} (h : Blends time d d' events)
include h

theorem ended_mem (hend : .ended ∈ events.filterMap PoseEvent.signal?) :
    events.filterMap PoseEvent.signal? = [.ended] ∧ d.movementRunning := by
  cases h with
  | same | started => simp [PoseEvent.signal?] at hend
  | ended _ hrunning => exact ⟨rfl, hrunning⟩

theorem changed_mem {t : Int} {movement : ControllerMovement} {duration : Int} :
    .movementChanged t movement duration ∈ events ↔
      d'.movementLast ≠ d.movementLast ∧ t = time ∧ movement = d'.movementLast ∧ duration = d'.movementTime := by
  cases h with
  | same | ended => simp
  | started _ hm => simp [hm]

theorem started_mem (hm : d.movement ≠ d.movementLast) : .started ∈ events.filterMap PoseEvent.signal? := by
  cases h with
  | same hsame | ended hsame => exact absurd hsame hm
  | started => exact List.mem_singleton_self _

theorem running_within (hd : Timed d) (hrunning : d'.movementRunning) : time ≤ d'.movementEnd := by
  cases h with
  | same _ hon => exact (hon hrunning).2
  | ended => cases hrunning
  | started =>
      have hlow := hd.bounds.1
      dsimp only
      omega

end Blends

/-- How the data of a player goes with what has been noted about the blends of the player, and with the
times of the passes that have blended. -/
structure Blending (log : List Signal) (times : List Int) (d : PlayerData Float32) : Prop extends Timed d where
  running : d.movementRunning ↔ log.getLast? = some .started
  past : d.movementRunning = false → d.movementLast = .empty ∨ ∃ t ∈ times, d.movementEnd < t

namespace Blending

variable {log : List Signal} {times : List Int} {d d' : PlayerData Float32}

theorem fresh (h : log.getLast? ≠ some .started) : Blending log times .fresh where
  toTimed := .fresh
  running := iff_of_false Bool.false_ne_true h
  past _ := .inl rfl

variable (h : Blending log times d)
include h

theorem stance (timer : StanceTimer) : Blending log times { d with stance := timer } where
  toTimed := ⟨h.duration, h.idle, h.last, h.lean⟩
  running := h.running
  past := h.past

theorem noted {movement : ControllerMovement} {duration : Int}
    (hd : Timed { d with movement, movementTime := duration }) :
    Blending log times { d with movement, movementTime := duration } where
  toTimed := hd
  running := h.running
  past := h.past

theorem late {time : Int} (hrunning : d.movementRunning = false) (htimes : ∀ t ∈ times, t ≤ time)
    (hm : d.movement = d.movementLast) : d.movementTime = 0 ∨ d.movementEnd < time := by
  obtain hempty | ⟨t, ht, hend⟩ := h.past hrunning
  · exact .inl (h.idle.mpr (hm.trans hempty))
  · exact .inr (hend.trans_le (htimes t ht))

theorem blends {time : Int} {events : List PoseEvent} (hb : Blends time d d' events) :
    Blending (log ++ events.filterMap PoseEvent.signal?) (times ++ [time]) d' := by
  have hover : d.movementRunning = false → d.movementLast = .empty ∨ ∃ t ∈ times ++ [time], d.movementEnd < t := by
    intro hrunning
    obtain hempty | ⟨t, ht, hend⟩ := h.past hrunning
    · exact .inl hempty
    · exact .inr ⟨t, List.mem_append_left _ ht, hend⟩
  cases hb with
  | same =>
      refine ⟨h.toTimed, ?_, hover⟩
      rw [List.filterMap_nil, List.append_nil]
      exact h.running
  | ended hm hrunning hend =>
      refine ⟨h.toTimed.edit (show Edit time d _ from .settle false), ?_, fun _ => ?_⟩
      · simp [PoseEvent.signal?]
      · obtain hzero | hlate := hend
        · exact .inl (hm.symm.trans (h.idle.mp hzero))
        · exact .inr ⟨time, List.mem_append_right _ List.mem_cons_self, hlate⟩
  | started pose hm =>
      refine ⟨h.toTimed.edit (show Edit time d _ from .restart pose hm fun _ => rfl), ?_, fun hoff => ?_⟩
      · simp [PoseEvent.signal?]
      · cases hoff

end Blending

end PlayerAnimation
