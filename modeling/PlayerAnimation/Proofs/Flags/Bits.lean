import Mathlib.Data.BitVec
import PlayerAnimation.Flags.Basic

namespace PlayerAnimation.Flags

variable {spec : FlagSpec}

theorem ext_getLsbD {f g : Flags spec} (h : ∀ i < spec.width, f.bits.getLsbD i = g.bits.getLsbD i) : f = g :=
  congrArg mk (BitVec.eq_of_getLsbD_eq h)

@[simp] theorem getLsbD_empty (i : Nat) : (empty : Flags spec).bits.getLsbD i = false := BitVec.getLsbD_zero

theorem bits_bit (i : Nat) : (bit i : Flags spec).bits = BitVec.twoPow spec.width i := by
  apply BitVec.eq_of_toNat_eq
  rw [BitVec.toNat_twoPow, bit, Nat.one_shiftLeft]
  exact BitVec.toNat_ofNat _ _

theorem getLsbD_bit (i j : Nat) :
    (bit i : Flags spec).bits.getLsbD j = (decide (i < spec.width) && decide (i = j)) := by
  rw [bits_bit, BitVec.getLsbD_twoPow]

theorem contains_bit (f : Flags spec) {i : Nat} (h : i < spec.width) :
    f.contains (.bit i) = f.bits.getLsbD i := by
  have hne : BitVec.twoPow spec.width i ≠ (0 : BitVec spec.width) := fun hz => by
    have := congrArg (fun b => b.getLsbD i) hz
    simp [h] at this
  rw [contains, bits_bit, BitVec.and_twoPow]
  cases f.bits.getLsbD i with
  | true => simp
  | false => simpa using Ne.symm hne

theorem contains_or_bit (f g : Flags spec) {i : Nat} (h : i < spec.width) :
    (f ||| g).contains (.bit i) = (f.contains (.bit i) || g.contains (.bit i)) := by
  rw [contains_bit _ h, contains_bit _ h, contains_bit _ h, bits_or, BitVec.getLsbD_or]

theorem contains_iff (f g : Flags spec) :
    f.contains g ↔ ∀ i, g.bits.getLsbD i → f.bits.getLsbD i := by
  rw [contains, beq_iff_eq]
  constructor
  · intro h i hi
    rw [← h, BitVec.getLsbD_and, Bool.and_eq_true] at hi
    exact hi.1
  · intro h
    apply BitVec.eq_of_getLsbD_eq
    intro i _
    rw [BitVec.getLsbD_and]
    cases hi : g.bits.getLsbD i with
    | true => rw [h i hi, Bool.true_and]
    | false => rw [Bool.and_false]

theorem contains_or {f g h : Flags spec} (hg : f.contains g) (hh : f.contains h) : f.contains (g ||| h) := by
  rw [contains_iff] at hg hh ⊢
  intro i hi
  rw [bits_or, BitVec.getLsbD_or, Bool.or_eq_true] at hi
  obtain hi | hi := hi
  · exact hg i hi
  · exact hh i hi

@[simp] theorem or_empty (f : Flags spec) : f ||| .empty = f := congrArg mk (BitVec.or_zero (x := f.bits))

theorem getLsbD_unions (fs : List (Flags spec)) (i : Nat) :
    (unions fs).bits.getLsbD i ↔ ∃ f ∈ fs, f.bits.getLsbD i := by
  induction fs with
  | nil => simp [unions]
  | cons f fs ih =>
      change (f.bits ||| (unions fs).bits).getLsbD i ↔ _
      rw [BitVec.getLsbD_or, Bool.or_eq_true, ih, List.exists_mem_cons_iff]

theorem getLsbD_unknown (f : Flags spec) {i : Nat} (h : i < spec.width) :
    f.unknown.bits.getLsbD i ↔ f.bits.getLsbD i ∧ ∀ flag ∈ spec.flags, flag.2 ≠ i := by
  have hknown : (known spec).bits.getLsbD i ↔ ∃ flag ∈ spec.flags, flag.2 = i := by
    rw [known, getLsbD_unions]
    constructor
    · rintro ⟨g, hg, hi⟩
      obtain ⟨flag, hflag, rfl⟩ := List.mem_map.mp hg
      rw [getLsbD_bit, Bool.and_eq_true, decide_eq_true_iff, decide_eq_true_iff] at hi
      exact ⟨flag, hflag, hi.2⟩
    · rintro ⟨flag, hflag, rfl⟩
      exact ⟨_, List.mem_map_of_mem hflag, by simp [getLsbD_bit, h]⟩
  rw [unknown, BitVec.getLsbD_and, BitVec.getLsbD_not, decide_eq_true h, Bool.true_and, Bool.and_eq_true,
    Bool.not_eq_true', ← Bool.not_eq_true, hknown]
  simp only [not_exists, not_and, ne_eq]

end PlayerAnimation.Flags
