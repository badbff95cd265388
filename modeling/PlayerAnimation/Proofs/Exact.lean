import Mathlib
import PlayerAnimation.Proofs.Fault

namespace PlayerAnimation

namespace Exact

noncomputable def whole (x : ℝ) : ℤ := if 0 ≤ x then ⌊x⌋ else ⌈x⌉

noncomputable instance instScalar : Scalar ℝ where
  decimal digits places := digits / 10 ^ places
  ofInt n := n
  toInt x := max (-0x80000000) (min 0x7fffffff (whole x))
  remainder x y := x - y * whole (x / y)
  sqrt := Real.sqrt
  sin := Real.sin
  cos := Real.cos
  atan2 y x := Complex.arg ⟨x, y⟩
  turn := 2 * Real.pi
  radiansPerDegree := Real.pi / 180
  degreesPerRadian := 180 / Real.pi
  holds n := -0x80000000 ≤ n && n < 0x80000000
  decLt := inferInstance
  decLe := inferInstance

theorem decimal_zero (n : ℕ) : (Scalar.decimal n 0 : ℝ) = n := by
  change (n : ℝ) / 10 ^ 0 = n
  rw [pow_zero, div_one]

@[simp] theorem zero_eq : @OfNat.ofNat ℝ 0 (Scalar.instOfNat 0) = 0 :=
  (decimal_zero 0).trans Nat.cast_zero

@[simp] theorem one_eq : @OfNat.ofNat ℝ 1 (Scalar.instOfNat 1) = 1 :=
  (decimal_zero 1).trans Nat.cast_one

@[simp] theorem ofNat_eq (n : ℕ) [n.AtLeastTwo] : @OfNat.ofNat ℝ n (Scalar.instOfNat n) = OfNat.ofNat n :=
  decimal_zero n

@[simp] theorem ofScientific_eq (digits places : ℕ) :
    @OfScientific.ofScientific ℝ Scalar.instOfScientific digits true places = digits / 10 ^ places := rfl

@[simp] theorem ofInt_eq (n : ℤ) : (Scalar.ofInt n : ℝ) = n := rfl

theorem whole_bounds (x : ℝ) : |x - whole x| < 1 := by
  rw [whole, abs_lt]
  split_ifs with h
  · have := Int.floor_le x
    have := Int.lt_floor_add_one x
    constructor <;> linarith
  · have := Int.le_ceil x
    have := Int.ceil_lt_add_one x
    constructor <;> linarith

theorem remainder_bounds {y : ℝ} (hy : 0 < y) (x : ℝ) : |Scalar.remainder x y| < y := by
  have h : Scalar.remainder x y = (x / y - whole (x / y)) * y := by
    change x - y * whole (x / y) = (x / y - whole (x / y)) * y
    field_simp
  rw [h, abs_mul, abs_of_pos hy]
  exact mul_lt_of_lt_one_left hy (whole_bounds _)

theorem remainder_modEq (x y : ℝ) : Scalar.remainder x y ≡ x [PMOD y] := by
  rw [AddCommGroup.modEq_iff_zsmul]
  refine ⟨whole (x / y), ?_⟩
  change whole (x / y) • y = x - (x - y * whole (x / y))
  rw [zsmul_eq_mul, sub_sub_cancel, mul_comm]

theorem exists_calls (x : ℝ) : ∃ n : ℕ, n + 1 = max 1 ⌈x⌉₊ ∧ x ≤ n + 1 := by
  obtain ⟨n, hn⟩ : ∃ n, n + 1 = max 1 ⌈x⌉₊ := ⟨max 1 ⌈x⌉₊ - 1, by omega⟩
  refine ⟨n, hn, ?_⟩
  calc x ≤ ⌈x⌉₊ := Nat.le_ceil x
    _ ≤ (max 1 ⌈x⌉₊ : ℕ) := by exact_mod_cast le_max_right _ _
    _ = n + 1 := by rw [← hn, Nat.cast_succ]

instance : WordClock ℝ where
  holds_iff n := by simp [Scalar.holds]

end Exact

end PlayerAnimation
