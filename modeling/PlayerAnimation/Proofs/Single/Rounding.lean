import Mathlib

namespace PlayerAnimation.Single

def nearest (x : ℚ) : ℤ :=
  if Int.fract x < 1 / 2 then ⌊x⌋
  else if 1 / 2 < Int.fract x then ⌊x⌋ + 1
  else ⌊x⌋ + ⌊x⌋ % 2

theorem nearest_intCast (n : ℤ) : nearest n = n := by simp [nearest]

theorem floor_le_nearest (x : ℚ) : ⌊x⌋ ≤ nearest x := by
  rw [nearest]
  split
  · exact le_refl _
  split
  · omega
  · omega

theorem nearest_le_floor_add_one (x : ℚ) : nearest x ≤ ⌊x⌋ + 1 := by
  rw [nearest]
  split
  · omega
  split
  · exact le_refl _
  · omega

theorem nearest_mono {x y : ℚ} (h : x ≤ y) : nearest x ≤ nearest y := by
  rcases (Int.floor_le_floor h).lt_or_eq with hlt | heq
  · calc nearest x ≤ ⌊x⌋ + 1 := nearest_le_floor_add_one x
      _ ≤ ⌊y⌋ := hlt
      _ ≤ nearest y := floor_le_nearest y
  · have hf : Int.fract x ≤ Int.fract y := by
      rw [Int.fract, Int.fract, heq]
      linarith
    rw [nearest, nearest, heq]
    split_ifs <;> first | omega | (exfalso; linarith)

theorem nearest_nonneg {x : ℚ} (h : 0 ≤ x) : 0 ≤ nearest x :=
  (Int.floor_nonneg.mpr h).trans (floor_le_nearest x)

/-- What the last digit of a rounded number counts, as a power of two. -/
def place (x : ℚ) : ℤ := max (Int.log 2 x - 23) (-149)

theorem place_cases (x : ℚ) :
    place x = Int.log 2 x - 23 ∧ -126 ≤ Int.log 2 x ∨ place x = -149 ∧ Int.log 2 x ≤ -126 := by
  rw [place]
  omega

theorem place_mono {x y : ℚ} (hx : 0 < x) (h : x ≤ y) : place x ≤ place y :=
  max_le_max_right _ (sub_le_sub_right (Int.log_mono_right hx h) 23)

theorem log_le_of_le {x : ℚ} {k : ℤ} (hx : 0 < x) (h : x ≤ 2 ^ k) : Int.log 2 x ≤ k := by
  calc Int.log 2 x ≤ Int.log 2 ((2 : ℚ) ^ k) := Int.log_mono_right hx h
    _ = k := Int.log_zpow (R := ℚ) (b := 2) (by decide) k

theorem le_log_of_le {x : ℚ} {k : ℤ} (h : 2 ^ k ≤ x) : k ≤ Int.log 2 x := by
  calc k = Int.log 2 ((2 : ℚ) ^ k) := (Int.log_zpow (R := ℚ) (b := 2) (by decide) k).symm
    _ ≤ Int.log 2 x := Int.log_mono_right (by positivity) h

theorem place_le_of_le {x : ℚ} {k : ℤ} (hx : 0 < x) (hk : -149 ≤ k) (h : x ≤ 2 ^ k) : place x ≤ k := by
  have hlog := log_le_of_le hx h
  have hplace := place_cases x
  omega

def roundAbs (x : ℚ) : ℚ := nearest (x / 2 ^ place x) * 2 ^ place x

theorem roundAbs_zero : roundAbs 0 = 0 := by
  rw [roundAbs, zero_div, ← Int.cast_zero, nearest_intCast, Int.cast_zero, zero_mul]

theorem roundAbs_nonneg {x : ℚ} (h : 0 ≤ x) : 0 ≤ roundAbs x := by
  have : 0 ≤ nearest (x / 2 ^ place x) := nearest_nonneg (by positivity)
  rw [roundAbs]
  positivity

theorem roundAbs_eq_self {x : ℚ} {n : ℤ} (h : x = n * 2 ^ place x) : roundAbs x = x := by
  have hd : x / 2 ^ place x = n := by
    rw [div_eq_iff (by positivity)]
    exact h
  rw [roundAbs, hd, nearest_intCast]
  exact h.symm

theorem zpow_split {k p : ℤ} (h : p ≤ k) : (2 : ℚ) ^ k = ((2 ^ (k - p).toNat : ℤ) : ℚ) * 2 ^ p := by
  rw [Int.cast_pow, Int.cast_ofNat, ← zpow_natCast, ← zpow_add₀ (by norm_num)]
  congr 1
  omega

theorem roundAbs_zpow {k : ℤ} (h : -149 ≤ k) : roundAbs (2 ^ k) = 2 ^ k :=
  roundAbs_eq_self (zpow_split (place_le_of_le (by positivity) h le_rfl))

theorem roundAbs_le_zpow {x : ℚ} {k : ℤ} (hx : 0 < x) (hk : -149 ≤ k) (h : x ≤ 2 ^ k) :
    roundAbs x ≤ 2 ^ k := by
  have hp : place x ≤ k := place_le_of_le hx hk h
  have hd : x / 2 ^ place x ≤ ((2 ^ (k - place x).toNat : ℤ) : ℚ) := by
    rw [div_le_iff₀ (by positivity), ← zpow_split hp]
    exact h
  rw [roundAbs, zpow_split hp]
  gcongr
  rw [← nearest_intCast (2 ^ (k - place x).toNat)]
  exact nearest_mono hd

theorem zpow_le_roundAbs {x : ℚ} {k : ℤ} (hp : place x ≤ k) (h : 2 ^ k ≤ x) : 2 ^ k ≤ roundAbs x := by
  have hd : ((2 ^ (k - place x).toNat : ℤ) : ℚ) ≤ x / 2 ^ place x := by
    rw [le_div_iff₀ (by positivity), ← zpow_split hp]
    exact h
  rw [roundAbs, zpow_split hp]
  gcongr
  rw [← nearest_intCast (2 ^ (k - place x).toNat)]
  exact nearest_mono hd

theorem roundAbs_mono {x y : ℚ} (hx : 0 ≤ x) (h : x ≤ y) : roundAbs x ≤ roundAbs y := by
  rcases hx.eq_or_lt with rfl | hx
  · rw [roundAbs_zero]
    exact roundAbs_nonneg h
  rcases (place_mono hx h).eq_or_lt with hp | hp
  · rw [roundAbs, roundAbs, hp]
    gcongr
    exact nearest_mono (by gcongr)
  · -- a power of two lies between the two numbers
    have hx' := place_cases x
    have hy' := place_cases y
    have hxy : Int.log 2 x + 1 ≤ Int.log 2 y := by omega
    have hle : x ≤ 2 ^ Int.log 2 y :=
      calc x ≤ ((2 : ℕ) : ℚ) ^ (Int.log 2 x + 1) := (Int.lt_zpow_succ_log_self (by decide) x).le
        _ ≤ 2 ^ Int.log 2 y := zpow_le_zpow_right₀ (by norm_num) hxy
    calc roundAbs x ≤ 2 ^ Int.log 2 y := roundAbs_le_zpow hx (by omega) hle
      _ ≤ roundAbs y :=
          zpow_le_roundAbs (by omega) (Int.zpow_log_le_self (by decide) (hx.trans_le h))

/-- The number of 24 binary digits that a number is rounded to. -/
def rounded (x : ℚ) : ℚ := if 0 ≤ x then roundAbs x else -roundAbs (-x)

theorem rounded_of_nonneg {x : ℚ} (h : 0 ≤ x) : rounded x = roundAbs x := if_pos h

theorem rounded_neg (x : ℚ) : rounded (-x) = -rounded x := by
  rw [rounded, rounded]
  rcases lt_trichotomy x 0 with h | rfl | h
  · rw [if_pos (by linarith), if_neg (by linarith), neg_neg]
  · simp [roundAbs_zero]
  · rw [if_neg (by linarith), if_pos h.le, neg_neg]

theorem rounded_mono : Monotone rounded := by
  apply monotone_of_odd_of_monotoneOn_nonneg rounded_neg
  intro x hx y hy h
  rw [rounded_of_nonneg hx, rounded_of_nonneg hy]
  exact roundAbs_mono hx h

theorem rounded_zpow {k : ℤ} (h : -149 ≤ k) : rounded (2 ^ k) = 2 ^ k := by
  rw [rounded_of_nonneg (by positivity), roundAbs_zpow h]

theorem rounded_zero : rounded 0 = 0 := by rw [rounded_of_nonneg le_rfl, roundAbs_zero]

theorem rounded_one : rounded 1 = 1 := rounded_zpow (k := 0) (by decide)

theorem rounded_intCast {n : ℤ} (h : |n| < 2 ^ 24) : rounded n = n := by
  have hpos {m : ℤ} (hm : 0 < m) (hlt : m < 2 ^ 24) : rounded m = m := by
    have hcast : (0 : ℚ) < m := by exact_mod_cast hm
    have hlog : Int.log 2 (m : ℚ) < 24 :=
      (Int.lt_zpow_iff_log_lt (by decide) hcast).mp (by exact_mod_cast hlt)
    have hplace := place_cases (m : ℚ)
    have hunit := zpow_split (k := 0) (p := place m) (by omega)
    rw [zpow_zero] at hunit
    rw [rounded_of_nonneg hcast.le]
    apply roundAbs_eq_self (n := m * 2 ^ (0 - place m).toNat)
    calc (m : ℚ) = m * (((2 ^ (0 - place m).toNat : ℤ) : ℚ) * 2 ^ place m) := by rw [← hunit, mul_one]
      _ = ((m * 2 ^ (0 - place m).toNat : ℤ) : ℚ) * 2 ^ place m := by
          push_cast
          ring
  rw [abs_lt] at h
  rcases lt_trichotomy n 0 with hneg | rfl | hn
  · have hflip := hpos (Int.neg_pos_of_neg hneg) (by omega)
    rw [Int.cast_neg, rounded_neg] at hflip
    exact neg_inj.mp hflip
  · rw [Int.cast_zero, rounded_zero]
  · exact hpos hn h.2

theorem abs_rounded_le {x : ℚ} {k : ℤ} (hk : -149 ≤ k) (h : |x| ≤ 2 ^ k) : |rounded x| ≤ 2 ^ k := by
  rw [abs_le] at h ⊢
  constructor
  · rw [← rounded_zpow hk, ← rounded_neg]
    exact rounded_mono h.1
  · rw [← rounded_zpow hk]
    exact rounded_mono h.2

end PlayerAnimation.Single
