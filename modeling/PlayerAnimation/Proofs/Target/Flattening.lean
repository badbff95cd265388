import PlayerAnimation.Proofs.Exact
import PlayerAnimation.Proofs.Target.Enhanced

namespace PlayerAnimation

namespace Enhanced

section Mid

variable {α : Type} [Scalar α]

theorem of_mid (host : Host α) {es : EntityState α} (hprone : es.isProne = true) (ci : ClientInfo α)
    (p : Controllers α) :
    (of host es ci p).pose.backMid = (flatten (locomotion host es ci) (flatness ci.lean) p).backMid := by
  rw [of, ladder_pose, if_pos hprone]
  exact (prone_above p _ _ _ _).2.2

/-- By how much the middle back of a prone player without a lean is flattened: more while crawling straight. -/
def fullFlattening (l : Locomotion) : α := if l.isMoving && !l.isSideways then 40 else 30

def flattening (l : Locomotion) (lean : α) : α := fullFlattening l * flatness lean

end Mid

section Amount

variable (l : Locomotion) (lean : ℝ)

theorem fullFlattening_bounds : 30 ≤ (fullFlattening l : ℝ) ∧ (fullFlattening l : ℝ) ≤ 40 := by
  rw [fullFlattening, Exact.ofNat_eq, Exact.ofNat_eq]
  split <;> norm_num

theorem flatness_eq : flatness lean = 1 - 4 * |lean| := by
  simp only [flatness, Exact.zero_eq, Exact.one_eq, Exact.ofScientific_eq]
  rcases lt_trichotomy lean 0 with h | rfl | h
  · rw [if_pos h, abs_of_neg h]
    ring
  · simp
  · rw [if_neg h.not_gt, if_pos h, abs_of_pos h]
    ring

theorem flattening_eq : flattening l lean = fullFlattening l * (1 - 4 * |lean|) := by
  rw [flattening, flatness_eq]

theorem flatten_mid (p : Controllers ℝ) :
    (flatten l (flatness lean) p).backMid.x = p.backMid.x + flattening l lean := by
  rw [flattening, fullFlattening, flatten]
  simp only [Exact.ofNat_eq, Vec3.addX]
  split
  · ring
  · rfl

theorem flattening_mem_iff : flattening l lean ∈ Set.Icc 0 40 ↔ |lean| ≤ 1 / 4 := by
  obtain ⟨hlow, hhigh⟩ := fullFlattening_bounds l
  have hlean := abs_nonneg lean
  rw [flattening_eq, Set.mem_Icc]
  constructor
  · intro h
    have hfade := nonneg_of_mul_nonneg_right h.1 (by linarith)
    linarith
  · intro h
    constructor
    · exact mul_nonneg (by linarith) (by linarith)
    · calc fullFlattening l * (1 - 4 * |lean|) ≤ fullFlattening l * 1 :=
            mul_le_mul_of_nonneg_left (by linarith) (by linarith)
        _ ≤ 40 := by rwa [mul_one]

theorem flattening_eq_zero_iff : flattening l lean = 0 ↔ |lean| = 1 / 4 := by
  obtain ⟨hlow, -⟩ := fullFlattening_bounds l
  rw [flattening_eq, mul_eq_zero, or_iff_right (by linarith)]
  constructor
  · intro h
    linarith
  · intro h
    rw [h]
    norm_num

theorem flattening_antitone {lean lean' : ℝ} (h : |lean| ≤ |lean'|) : flattening l lean' ≤ flattening l lean := by
  obtain ⟨hlow, -⟩ := fullFlattening_bounds l
  rw [flattening_eq, flattening_eq]
  exact mul_le_mul_of_nonneg_left (by linarith) (by linarith)

end Amount

end Enhanced

/-- Whether the enhanced target of a player has this much more pitch in the middle back than the plain one. -/
def PitchesMid (frame : Frame) (host : Host ℝ) (s : Store ℝ) (es : EntityState ℝ) (ci : ClientInfo ℝ)
    (neutral : Bool) (amount : ℝ) : Prop :=
  ∃ plain full, buildTarget { frame with compat := .legacy } host s es ci neutral = .ok plain ∧
    buildTarget { frame with compat := .enhanced } host s es ci neutral = .ok full ∧
    full.target.backMid.x = plain.target.backMid.x + amount

section Prone

variable (frame : Frame) (host : Host ℝ) (s : Store ℝ) {es : EntityState ℝ} (ci : ClientInfo ℝ) {neutral : Bool}
  (hclient : ci.clientNum < maxClients) (hprone : es.isProne = true)
  (hrests : Target.rests frame.role es neutral = false)
include hclient hprone hrests

theorem pitchesMid_flattening :
    (Scalar.holds ℝ ((s.entry ⟨⟨ci.clientNum, hclient⟩, frame.role⟩).stance.finish - frame.time) →
        ∃ amount, PitchesMid frame host s es ci neutral amount) ∧
      ∀ amount, PitchesMid frame host s es ci neutral amount →
        amount = Enhanced.flattening (Enhanced.locomotion host es ci) ci.lean := by
  obtain ⟨plain, hplain, hexists, htargets⟩ := targets_built frame host s es ci neutral hclient
  constructor
  · intro hholds
    obtain ⟨full, hfull⟩ := hexists hholds
    exact ⟨_, plain, full, hplain, hfull, (add_sub_cancel _ _).symm⟩
  · rintro amount ⟨plain', full, hplain', hfull, hamount⟩
    obtain rfl := Except.ok.inj (hplain.symm.trans hplain')
    have h := htargets full hfull
    generalize plain.target = p, full.target = q at h hamount
    cases h with
    | resting h =>
        rw [hrests] at h
        cases h
    | built _ hp =>
        rw [(Enhanced.inTransition_above _ _ _).2.2, Enhanced.of_mid host hprone, Enhanced.flatten_mid] at hamount
        exact (add_left_cancel hamount).symm

/-- The middle back of a prone player is flattened by up to 40 degrees if the lean is at most a quarter, not at
all exactly at a quarter, and never more with more lean. -/
theorem flattening_fades :
    (Scalar.holds ℝ ((s.entry ⟨⟨ci.clientNum, hclient⟩, frame.role⟩).stance.finish - frame.time) →
        ∃ amount, PitchesMid frame host s es ci neutral amount) ∧
      ∀ amount, PitchesMid frame host s es ci neutral amount →
        amount = Enhanced.fullFlattening (Enhanced.locomotion host es ci) * (1 - 4 * |ci.lean|) ∧
          (amount ∈ Set.Icc 0 40 ↔ |ci.lean| ≤ 1 / 4) ∧ (amount = 0 ↔ |ci.lean| = 1 / 4) ∧
          ∀ lean amount', |ci.lean| ≤ |lean| → host.moveTypes { ci with lean } = host.moveTypes ci →
            PitchesMid frame host s es { ci with lean } neutral amount' → amount' ≤ amount := by
  obtain ⟨hexists, hamount⟩ := pitchesMid_flattening frame host s ci hclient hprone hrests
  refine ⟨hexists, fun amount h => ?_⟩
  obtain rfl := hamount amount h
  refine ⟨Enhanced.flattening_eq _ _, Enhanced.flattening_mem_iff _ _, Enhanced.flattening_eq_zero_iff _ _, ?_⟩
  intro lean amount' hle hmoves h'
  obtain rfl := (pitchesMid_flattening frame host s { ci with lean } hclient hprone hrests).2 amount' h'
  have hsame : Enhanced.locomotion host es { ci with lean } = Enhanced.locomotion host es ci := by
    rw [Enhanced.locomotion, hmoves, Enhanced.locomotion]
  rw [hsame]
  exact Enhanced.flattening_antitone _ hle

end Prone

section Example

noncomputable def crawlHost : Host ℝ := .ofScript #[] .walkProne false

noncomputable def crawlState : EntityState ℝ := { EntityState.initial 0 with flags := .prone }

noncomputable def crawling (lean : ℝ) : ClientInfo ℝ := { ClientInfo.initial 0 with lean }

def Crawls (lean amount : ℝ) : Prop :=
  PitchesMid ⟨.client, .enhanced, 1000, 50⟩ crawlHost .fresh crawlState (crawling lean) true amount

theorem crawlState_prone : crawlState.isProne = true := by
  rw [EntityState.isProne, crawlState]
  decide

theorem crawlState_free : Target.rests .client crawlState true = false := by
  rw [Target.rests, EntityState.onMountedGun, crawlState]
  decide

theorem holds_second : Scalar.holds ℝ (-1000) := by
  rw [WordClock.holds_iff]
  decide

theorem flattening_fades_crawling :
    ∃ amount, Crawls (1 / 8) amount ∧ amount ∈ Set.Icc 0 40 ∧ ∀ amount', Crawls (-1 / 2) amount' → amount' ≤ amount := by
  obtain ⟨hexists, hfades⟩ := flattening_fades ⟨.client, .enhanced, 1000, 50⟩ crawlHost .fresh (crawling (1 / 8))
    (Nat.succ_pos 63) crawlState_prone crawlState_free
  obtain ⟨amount, hamount⟩ := hexists (holds_fresh _ holds_second)
  obtain ⟨-, hmem, -, hless⟩ := hfades amount hamount
  refine ⟨amount, hamount, hmem.mpr ?_, fun amount' h' => hless (-1 / 2) amount' ?_ rfl h'⟩
  · change |(1 / 8 : ℝ)| ≤ 1 / 4
    norm_num
  · change |(1 / 8 : ℝ)| ≤ |-1 / 2|
    norm_num

/-- At half a lean the back is bent the other way. -/
theorem flattening_inverts : Crawls (1 / 2) (-40) := by
  obtain ⟨hexists, hamount⟩ := pitchesMid_flattening ⟨.client, .enhanced, 1000, 50⟩ crawlHost .fresh
    (crawling (1 / 2)) (Nat.succ_pos 63) crawlState_prone crawlState_free
  obtain ⟨amount, h⟩ := hexists (holds_fresh _ holds_second)
  have hlocomotion : Enhanced.locomotion crawlHost crawlState (crawling (1 / 2)) = ⟨true, false, false, false⟩ := by
    rfl
  have hvalue : Enhanced.flattening ⟨true, false, false, false⟩ (1 / 2 : ℝ) = -40 := by
    have hfull : Enhanced.fullFlattening ⟨true, false, false, false⟩ = (40 : ℝ) := Exact.ofNat_eq 40
    rw [Enhanced.flattening_eq, hfull]
    norm_num
  have hlean : (crawling (1 / 2)).lean = 1 / 2 := rfl
  obtain rfl : amount = -40 := by rw [hamount amount h, hlocomotion, hlean, hvalue]
  exact h

end Example

end PlayerAnimation
