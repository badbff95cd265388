import Mathlib
import PlayerAnimation.Number.Shortest
import PlayerAnimation.Proofs.Number.Double

namespace PlayerAnimation.Shortest

open Float.Model Float.Model.UnpackedFloat

theorem findSome?_range {α : Type} {f : ℕ → Option α} {size : ℕ} (hsome : ∃ n < size, f n ≠ none) :
    ∃ n a, f n = some a ∧ (List.range size).findSome? f = some a ∧ ∀ m < n, f m = none := by
  obtain ⟨n, hn, hne⟩ := hsome
  obtain ⟨a, ha⟩ := Option.isSome_iff_exists.mp
    (List.findSome?_isSome_iff.mpr ⟨n, List.mem_range.mpr hn, Option.isSome_iff_ne_none.mpr hne⟩)
  obtain ⟨before, first, after, hrange, hfirst, hbefore⟩ := List.findSome?_eq_some_iff.mp ha
  refine ⟨first, a, hfirst, ha, fun m hm => hbefore m ?_⟩
  have hsorted := List.pairwise_lt_range (n := size)
  rw [hrange, List.pairwise_append, List.pairwise_cons] at hsorted
  have hmem : m ∈ List.range size := by
    have hlast : first < size := List.mem_range.mp (by rw [hrange]; simp)
    exact List.mem_range.mpr (hm.trans hlast)
  rw [hrange, List.mem_append, List.mem_cons] at hmem
  obtain hmem | rfl | hmem := hmem
  · exact hmem
  · exact absurd hm (lt_irrefl _)
  · exact absurd (hsorted.2.1.1 m hmem) (lt_asymm hm)

/-- Whether a number lies between the midpoints to the two neighbours of `m * 2 ^ e`; the lower one is nearer
below a power of two, and the midpoints belong to an even last digit. -/
def RoundsTo (m : ℕ) (e : ℤ) (q : ℚ) : Prop :=
  let below : ℚ := if m = 2 ^ 52 ∧ -1074 < e then 1 / 4 else 1 / 2
  if m % 2 = 0 then (m - below) * 2 ^ e ≤ q ∧ q ≤ (m + 1 / 2) * 2 ^ e
  else (m - below) * 2 ^ e < q ∧ q < (m + 1 / 2) * 2 ^ e

namespace Interval

def Contains (i : Interval) (q : ℚ) : Prop :=
  if i.closed then i.low ≤ q * i.den ∧ q * i.den ≤ i.high else i.low < q * i.den ∧ q * i.den < i.high

section Grid

variable {i : Interval} {n k : ℕ}

theorem holds_iff : i.holds n = true ↔ if i.closed then i.low ≤ n ∧ n ≤ i.high else i.low < n ∧ n < i.high := by
  rw [holds]
  split
  · rw [Bool.and_eq_true, decide_eq_true_iff, decide_eq_true_iff]
  · rw [Bool.and_eq_true, decide_eq_true_iff, decide_eq_true_iff]

theorem holds_toward (h : i.holds n = true) (hlow : n ≤ k ∨ i.low < k) (hhigh : k ≤ n ∨ k < i.high) :
    i.holds k = true := by
  rw [holds_iff] at h ⊢
  split at h
  · next hclosed =>
      rw [if_pos hclosed]
      omega
  · next hclosed =>
      rw [if_neg hclosed]
      omega

theorem holds_of_whole? (h : i.whole? = some n) : i.holds (n * i.den) = true := by
  rw [whole?] at h
  split at h
  · next hdown =>
      cases h
      exact (Bool.and_eq_true_iff.mp hdown).1
  · split at h
    · next hup =>
        cases h
        exact hup
    · cases h

theorem whole?_eq_none_iff (hlow : i.low < i.value) (hhigh : i.value < i.high) (hden : 0 < i.den) :
    i.whole? = none ↔ ∀ n, i.holds (n * i.den) = false := by
  have hfloor := Nat.div_mul_le_self i.value i.den
  have hceil : i.value < (i.value / i.den + 1) * i.den := by
    rw [Nat.succ_mul]
    exact Nat.lt_div_mul_add hden
  rw [whole?]
  constructor
  · intro h n
    split at h
    · cases h
    split at h
    · cases h
    next hdown hup =>
      rw [Bool.not_eq_true] at hup
      rw [hup, Bool.not_false, Bool.true_or, Bool.and_true, Bool.not_eq_true] at hdown
      by_contra hn
      rw [Bool.not_eq_false] at hn
      obtain hlt | hle := Nat.lt_or_ge (i.value / i.den) n
      · have hbound := Nat.mul_le_mul_right i.den (Nat.succ_le_of_lt hlt)
        rw [holds_toward hn (.inr (hlow.trans hceil)) (.inl hbound)] at hup
        cases hup
      · have hbound := Nat.mul_le_mul_right i.den hle
        rw [holds_toward hn (.inl hbound) (.inr (hfloor.trans_lt hhigh))] at hdown
        cases hdown
  · intro h
    rw [h, h]
    rfl

theorem holds_scaled_iff (d : ℕ) (k : ℤ) :
    (i.scaled (-k)).holds (d * (i.scaled (-k)).den) = true ↔ i.Contains (d * 10 ^ k) := by
  have hpoint : ((d * (i.den * 10 ^ (- -k).toNat) : ℕ) : ℚ) = d * 10 ^ k * i.den * ((10 ^ (-k).toNat : ℕ) : ℚ) := by
    have hpower : (10 : ℚ) ^ k * 10 ^ (-k).toNat = 10 ^ (- -k).toNat := by
      rw [← zpow_natCast, ← zpow_natCast, ← zpow_add₀ (by norm_num)]
      congr 1
      omega
    push_cast
    rw [← hpower]
    ring
  have hunit : 0 < ((10 ^ (-k).toNat : ℕ) : ℚ) := by positivity
  have hlow (a : ℕ) : a * 10 ^ (-k).toNat ≤ d * (i.den * 10 ^ (- -k).toNat) ↔ (a : ℚ) ≤ d * 10 ^ k * i.den := by
    rw [← Nat.cast_le (α := ℚ), hpoint, Nat.cast_mul, mul_le_mul_iff_left₀ hunit]
  have hhigh (a : ℕ) : d * (i.den * 10 ^ (- -k).toNat) ≤ a * 10 ^ (-k).toNat ↔ d * 10 ^ k * i.den ≤ (a : ℚ) := by
    rw [← Nat.cast_le (α := ℚ), hpoint, Nat.cast_mul, mul_le_mul_iff_left₀ hunit]
  rw [holds_iff, Contains, ← hlow, ← hhigh, ← not_le, ← not_le, ← not_le, ← not_le, ← hlow, ← hhigh]
  rfl

theorem contains_of_fine (hden : 0 < i.den) (hhigh : i.value < i.high)
    (hlow : i.low * 10 ^ k + i.den ≤ i.value * 10 ^ k) : ∃ d : ℕ, i.Contains (d * 10 ^ (-k : ℤ)) := by
  have hfloor := Nat.div_mul_le_self (i.value * 10 ^ k) i.den
  have hceil := Nat.lt_div_mul_add (a := i.value * 10 ^ k) hden
  have hbelow := Nat.mul_lt_mul_of_pos_right hhigh (show 0 < 10 ^ k by positivity)
  have hscaled : i.scaled (- -k) = ⟨i.low * 10 ^ k, i.value * 10 ^ k, i.high * 10 ^ k, i.den, i.closed⟩ := by
    rw [scaled, neg_neg, Int.toNat_natCast, Int.toNat_neg_natCast, show Nat.pow 10 0 = 1 from rfl, Nat.mul_one]
    rfl
  refine ⟨i.value * 10 ^ k / i.den, ?_⟩
  rw [← holds_scaled_iff, hscaled, holds_iff]
  dsimp only
  split
  · omega
  · omega

end Grid

/-- The value lies within the interval, and far enough from its lower end for the finest grid. -/
structure Wide (i : Interval) : Prop where
  den : 0 < i.den
  high : i.value < i.high
  low : i.low * 10 ^ 330 + i.den ≤ i.value * 10 ^ 330

section Search

variable {i : Interval} (h : i.Wide)
include h

theorem Wide.whole?_scaled_eq_none_iff (k : ℤ) :
    (i.scaled (-k)).whole? = none ↔ ∀ d : ℕ, ¬ i.Contains (d * 10 ^ k) := by
  have hpower (n : ℕ) : 0 < Nat.pow 10 n := Nat.pow_pos (by decide)
  have hlow : i.low < i.value := by
    have hden := h.den
    have hlow := h.low
    omega
  rw [whole?_eq_none_iff (Nat.mul_lt_mul_of_pos_right hlow (hpower _))
    (Nat.mul_lt_mul_of_pos_right h.high (hpower _)) (Nat.mul_pos h.den (hpower _))]
  exact forall_congr' fun d => by rw [← holds_scaled_iff, Bool.not_eq_true]

theorem Wide.shortest_spec :
    i.Contains (i.shortest.1 * 10 ^ i.shortest.2) ∧
      ∀ (d : ℕ) (k : ℤ), i.shortest.2 < k → k ≤ 309 → ¬ i.Contains (d * 10 ^ k) := by
  have hgrid (n : ℕ) : ((i.scaled (-(309 - n : ℤ))).whole?.map (·, (309 - n : ℤ))) = none ↔
      ∀ d : ℕ, ¬ i.Contains (d * 10 ^ (309 - n : ℤ)) := by
    rw [Option.map_eq_none_iff, h.whole?_scaled_eq_none_iff]
  have hfinest : ∃ n : ℕ, n < 640 ∧ ((i.scaled (-(309 - n : ℤ))).whole?.map (·, (309 - n : ℤ))) ≠ none := by
    refine ⟨639, by decide, ?_⟩
    have hpower : (309 : ℤ) - (639 : ℕ) = -(330 : ℕ) := by decide
    rw [Ne, hgrid, not_forall_not, hpower]
    exact contains_of_fine h.den h.high h.low
  obtain ⟨n, decimal, hn, hfound, hbefore⟩ := findSome?_range hfinest
  have hshortest : i.shortest = decimal := by
    rw [shortest, hfound]
    rfl
  obtain ⟨d, hd, rfl⟩ := Option.map_eq_some_iff.mp hn
  rw [hshortest]
  dsimp only
  constructor
  · rw [← holds_scaled_iff]
    exact holds_of_whole? hd
  · intro d' k hk hk'
    have hindex : (309 - k).toNat < n := by omega
    have hnone := (hgrid _).mp (hbefore _ hindex) d'
    rw [Int.toNat_of_nonneg (by omega), sub_sub_cancel] at hnone
    exact hnone

end Search

section Binary

theorem ofBinary_eq (m : ℕ) (e : ℤ) :
    ofBinary m e =
      { low := (4 * m - if m = 2 ^ 52 ∧ -1074 < e then 1 else 2) * 2 ^ (e - 2).toNat
        value := 4 * m * 2 ^ (e - 2).toNat
        high := (4 * m + 2) * 2 ^ (e - 2).toNat
        den := 2 ^ (2 - e).toNat
        closed := m % 2 = 0 } := by
  rw [ofBinary, Nat.one_shiftLeft, Nat.one_shiftLeft, Nat.one_shiftLeft]

variable {m : ℕ} {e : ℤ} (hm : 0 < m)
include hm

theorem wide_ofBinary (he : -1074 ≤ e) : (ofBinary m e).Wide := by
  have hunit : 0 < 2 ^ (e - 2).toNat := by positivity
  have hden : 2 ^ (2 - e).toNat ≤ 10 ^ 330 := by
    have hmost : 2 ^ 1076 ≤ 10 ^ 330 := by decide +kernel
    exact (Nat.pow_le_pow_right (by decide) (by omega)).trans hmost
  rw [ofBinary_eq]
  generalize hbelow : (if m = 2 ^ 52 ∧ -1074 < e then 1 else 2) = below
  have hlow : (4 * m - below) * 2 ^ (e - 2).toNat + 1 ≤ 4 * m * 2 ^ (e - 2).toNat := by
    refine Nat.mul_lt_mul_of_pos_right ?_ hunit
    split at hbelow <;> omega
  refine ⟨by positivity, Nat.mul_lt_mul_of_pos_right (by omega) hunit, ?_⟩
  dsimp only
  generalize (4 * m - below) * 2 ^ (e - 2).toNat = low at hlow ⊢
  generalize 4 * m * 2 ^ (e - 2).toNat = value at hlow ⊢
  generalize 10 ^ 330 = fine at hden ⊢
  calc low * fine + 2 ^ (2 - e).toNat ≤ (low + 1) * fine := by
        rw [Nat.add_one_mul]
        exact Nat.add_le_add_left hden _
    _ ≤ value * fine := Nat.mul_le_mul_right _ hlow

theorem contains_ofBinary_iff (q : ℚ) : (ofBinary m e).Contains q ↔ RoundsTo m e q := by
  have hden : (0 : ℚ) < 2 ^ (2 - e).toNat := by positivity
  have hunit : (2 : ℚ) ^ e * 2 ^ (2 - e).toNat = 4 * 2 ^ (e - 2).toNat := by
    rw [show (4 : ℚ) = 2 ^ (2 : ℤ) by norm_num, ← zpow_natCast, ← zpow_natCast, ← zpow_add₀ (by norm_num),
      ← zpow_add₀ (by norm_num)]
    congr 1
    omega
  have hlow : (((4 * m - if m = 2 ^ 52 ∧ -1074 < e then 1 else 2) * 2 ^ (e - 2).toNat : ℕ) : ℚ) =
      (m - if m = 2 ^ 52 ∧ -1074 < e then 1 / 4 else 1 / 2) * 2 ^ e * 2 ^ (2 - e).toNat := by
    rw [mul_assoc, hunit, Nat.cast_mul]
    split
    · rw [Nat.cast_sub (by omega)]
      push_cast
      ring
    · rw [Nat.cast_sub (by omega)]
      push_cast
      ring
  have hhigh : (((4 * m + 2) * 2 ^ (e - 2).toNat : ℕ) : ℚ) = (m + 1 / 2) * 2 ^ e * 2 ^ (2 - e).toNat := by
    rw [mul_assoc, hunit]
    push_cast
    ring
  rw [ofBinary_eq, Contains, RoundsTo]
  dsimp only
  rw [hlow, hhigh, Nat.cast_pow, Nat.cast_ofNat, mul_le_mul_iff_left₀ hden, mul_le_mul_iff_left₀ hden,
    mul_lt_mul_iff_left₀ hden, mul_lt_mul_iff_left₀ hden]
  simp only [decide_eq_true_eq]

end Binary

end Interval

theorem RoundsTo.bounds {m : ℕ} {e : ℤ} {q : ℚ} (h : RoundsTo m e q) :
    (m - 1 / 2) * 2 ^ e ≤ q ∧ q ≤ (m + 1 / 2) * 2 ^ e := by
  have hunit : (0 : ℚ) < 2 ^ e := by positivity
  rw [RoundsTo] at h
  have hbelow : (m - 1 / 2 : ℚ) * 2 ^ e ≤ (m - if m = 2 ^ 52 ∧ -1074 < e then 1 / 4 else 1 / 2) * 2 ^ e := by
    refine mul_le_mul_of_nonneg_right (sub_le_sub_left ?_ _) hunit.le
    split
    · norm_num
    · exact le_rfl
  split at h
  · exact ⟨hbelow.trans h.1, h.2⟩
  · exact ⟨hbelow.trans h.1.le, h.2.le⟩

theorem not_roundsTo_of_large {m : ℕ} {e : ℤ} (hm : 0 < m) (hm' : m < 2 ^ 53) (he : e ≤ 971) (d : ℕ) {k : ℤ}
    (hk : 310 ≤ k) : ¬ RoundsTo m e (d * 10 ^ k) := by
  intro h
  have hunit : (0 : ℚ) < 2 ^ e := by positivity
  obtain ⟨hlow, hhigh⟩ := h.bounds
  have hone : (1 : ℚ) ≤ m := by exact_mod_cast hm
  have hlow : 0 < (d : ℚ) * 10 ^ k := (mul_pos (by linarith) hunit).trans_le hlow
  have hhigh : (d : ℚ) * 10 ^ k < 10 ^ (310 : ℤ) := by
    have hdigits : (m : ℚ) + 1 / 2 ≤ 2 ^ (53 : ℤ) := by
      have hm' : (m : ℚ) + 1 ≤ (2 ^ 53 : ℕ) := by exact_mod_cast hm'
      rw [Nat.cast_pow, Nat.cast_ofNat] at hm'
      rw [show (53 : ℤ) = (53 : ℕ) from rfl, zpow_natCast]
      linarith
    calc (d : ℚ) * 10 ^ k ≤ (m + 1 / 2) * 2 ^ e := hhigh
      _ ≤ 2 ^ (53 : ℤ) * 2 ^ (971 : ℤ) :=
          mul_le_mul hdigits (zpow_le_zpow_right₀ (by norm_num) he) hunit.le (by positivity)
      _ = ((2 ^ 1024 : ℕ) : ℚ) := by
          rw [← zpow_add₀ (by norm_num), Nat.cast_pow, ← zpow_natCast]
          rfl
      _ < ((10 ^ 310 : ℕ) : ℚ) := Nat.cast_lt.mpr (by decide +kernel)
      _ = 10 ^ (310 : ℤ) := by
          rw [Nat.cast_pow, ← zpow_natCast]
          rfl
  obtain rfl | hd := d.eq_zero_or_pos
  · rw [Nat.cast_zero, zero_mul] at hlow
    exact lt_irrefl _ hlow
  · have hd' : (1 : ℚ) ≤ d := by exact_mod_cast hd
    have hpower : (10 : ℚ) ^ (310 : ℤ) ≤ 10 ^ k := zpow_le_zpow_right₀ (by norm_num) hk
    exact absurd hhigh (not_lt.mpr (hpower.trans (le_mul_of_one_le_left (by positivity) hd')))

theorem shortest_ofBinary {m : ℕ} {e : ℤ} (hm : 0 < m) (hm' : m < 2 ^ 53) (he : -1074 ≤ e) (he' : e ≤ 971) :
    RoundsTo m e ((Interval.ofBinary m e).shortest.1 * 10 ^ (Interval.ofBinary m e).shortest.2) ∧
      ∀ (d : ℕ) (k : ℤ), (Interval.ofBinary m e).shortest.2 < k → ¬ RoundsTo m e (d * 10 ^ k) := by
  obtain ⟨hin, hout⟩ := (Interval.wide_ofBinary hm he).shortest_spec
  refine ⟨(Interval.contains_ofBinary_iff hm _).mp hin, fun d k hk => ?_⟩
  obtain hle | hlarge := le_or_gt k 309
  · rw [← Interval.contains_ofBinary_iff hm]
    exact hout d k hk hle
  · exact not_roundsTo_of_large hm hm' he' d (by omega)

/-- A decimal, with a sign, as short as it can be for a number. -/
inductive Writes (x : Float) : Bool → ℕ → ℤ → Prop
  | zero {s : Sign} (h : x.toModel.unpack = .zero s) : Writes x (s == .negative) 0 0
  | finite {s : Sign} {m : ℕ} {e : ℤ} {hm : 0 < m} {digits : ℕ} {power : ℤ} (h : x.toModel.unpack = .finite s m e hm)
      (hrounds : RoundsTo m e (digits * 10 ^ power))
      (hshortest : ∀ (d : ℕ) (k : ℤ), power < k → ¬ RoundsTo m e (d * 10 ^ k)) :
      Writes x (s == .negative) digits power

theorem text_eq {x : Float} (h : x.isFinite = true) :
    ∃ negative digits power, Writes x negative digits power ∧ text x = signed negative (positional digits power) := by
  obtain ⟨s, hx⟩ | ⟨s, m, e, hm, hx, hdigits, hlow, hhigh⟩ := Double.unpack_cases h
  · refine ⟨_, 0, 0, .zero hx, ?_⟩
    rw [text, hx]
    cases s <;> rfl
  · obtain hwrites := shortest_ofBinary hm hdigits hlow hhigh
    rw [text, hx]
    dsimp only
    generalize (Interval.ofBinary m e).shortest = decimal at hwrites ⊢
    refine ⟨_, decimal.1, decimal.2, .finite hx hwrites.1 hwrites.2, ?_⟩
    cases s <;> rfl

end PlayerAnimation.Shortest
