import PlayerAnimation.Proofs.Config
import PlayerAnimation.Proofs.Number.Double

namespace PlayerAnimation

def ConfigValue.IsFinite : ConfigValue → Prop
  | .number x => x.isFinite = true
  | .text _ => True

namespace Config

open Double

namespace NumberText

theorem isFinite_power {k : ℕ} (hk : k < 309) : (Float.ofScientific 1 false k).isFinite = true := by
  obtain rfl | hpos := k.eq_zero_or_pos
  · decide +kernel
  · exact (large_power hpos hk).isFinite

theorem isFinite_scale {x y : Float} {power : ℤ} (hx : x.isFinite = true) (h : scale x power = some y) :
    y.isFinite = true := by
  induction x, power using scale.induct with
  | case1 x power hpower hsign product hinf =>
      rw [scale, if_pos hpower, if_pos hsign, if_pos hinf] at h
      cases h
  | case2 x power hpower hsign product hinf =>
      rw [scale, if_pos hpower, if_pos hsign, if_neg hinf] at h
      cases h
      exact isFinite_mul hx (isFinite_power (Nat.lt_succ_of_le hpower)) (Bool.eq_false_iff.mpr hinf)
  | case3 x power hpower hsign =>
      rw [scale, if_pos hpower, if_neg hsign] at h
      cases h
      exact isFinite_div hx (large_power (by omega) (Nat.lt_succ_of_le hpower))
  | case4 x power hpower hzero =>
      rw [scale, if_neg hpower, if_pos hzero] at h
      cases h
      exact hx
  | case5 x power hpower hzero hsign =>
      rw [scale, if_neg hpower, if_neg hzero, if_pos hsign] at h
      cases h
  | case6 x power hpower hzero hsign ih =>
      rw [scale, if_neg hpower, if_neg hzero, if_neg hsign] at h
      exact ih (isFinite_div hx (large_power (by decide) (by decide))) h

theorem isFinite_value {n : NumberText} {x : Float} (h : n.value = some x) : x.isFinite = true := by
  rw [value] at h
  obtain ⟨y, hy, hx⟩ := Option.bind_eq_some_iff.mp h
  have hfinite := isFinite_scale (isFinite_toFloat _) hy
  cases hx
  split
  · exact isFinite_neg hfinite
  · exact hfinite

end NumberText

namespace Reader

variable {cs rest : List Char}

theorem isFinite_number {x : Float} (h : number? cs = some (x, rest)) : x.isFinite = true := by
  rw [number?] at h
  obtain ⟨-, h⟩ := Option.ite_none_left_eq_some.mp h
  obtain ⟨-, h⟩ := Option.ite_none_left_eq_some.mp h
  obtain ⟨⟨exponent, after⟩, -, h⟩ := Option.bind_eq_some_iff.mp h
  obtain ⟨y, hvalue, h⟩ := Option.bind_eq_some_iff.mp h
  cases h
  exact NumberText.isFinite_value hvalue

theorem finite_value {value : ConfigValue} (h : value? cs = some (value, rest)) : value.IsFinite := by
  rw [value?] at h
  split at h
  · obtain ⟨_, -, h⟩ := Option.map_eq_some_iff.mp h
    cases h
    trivial
  · obtain ⟨_, hnumber, h⟩ := Option.map_eq_some_iff.mp h
    cases h
    exact isFinite_number hnumber

theorem finite_entry {entry : String × ConfigValue} (h : entry? cs = some (entry, rest)) : entry.2.IsFinite := by
  obtain ⟨_, -, h⟩ := Option.bind_eq_some_iff.mp h
  obtain ⟨_, -, h⟩ := Option.bind_eq_some_iff.mp h
  obtain ⟨_, hvalue, h⟩ := Option.bind_eq_some_iff.mp h
  cases h
  exact finite_value hvalue

variable {entries : List (String × ConfigValue)}

theorem finite_more {fuel : ℕ} {read : List (String × ConfigValue)} (hread : ∀ entry ∈ read, entry.2.IsFinite)
    (h : more? fuel read cs = some (entries, rest)) : ∀ entry ∈ entries, entry.2.IsFinite := by
  induction fuel generalizing read cs with
  | zero => cases h
  | succ fuel ih =>
      obtain ⟨⟨entry, after⟩, hentry, h⟩ := Option.bind_eq_some_iff.mp h
      have hall : ∀ other ∈ entry :: read, other.2.IsFinite := List.forall_mem_cons.mpr ⟨finite_entry hentry, hread⟩
      dsimp only at h
      split at h
      · exact ih hall h
      · cases h
        exact fun other hother => hall other (List.mem_reverse.mp hother)
      · cases h

theorem finite_entries (h : entries? cs = some (entries, rest)) : ∀ entry ∈ entries, entry.2.IsFinite := by
  obtain ⟨_, -, h⟩ := Option.bind_eq_some_iff.mp h
  split at h
  · cases h
    exact List.forall_mem_nil _
  · exact finite_more (List.forall_mem_nil _) h

theorem finite_file (h : file? cs = some (entries, rest)) : ∀ entry ∈ entries, entry.2.IsFinite := by
  rw [file?] at h
  split at h
  · split at h
    · cases h
      exact List.forall_mem_nil _
    · obtain ⟨_, -, h⟩ := Option.bind_eq_some_iff.mp h
      dsimp only at h
      split at h
      · obtain ⟨_, -, h⟩ := Option.bind_eq_some_iff.mp h
        obtain ⟨_, hentries, h⟩ := Option.bind_eq_some_iff.mp h
        obtain ⟨_, -, h⟩ := Option.bind_eq_some_iff.mp h
        cases h
        exact finite_entries hentries
      · cases h
  · split at h
    · cases h
      exact List.forall_mem_nil _
    · obtain ⟨_, hentries, h⟩ := Option.bind_eq_some_iff.mp h
      obtain ⟨_, -, h⟩ := Option.bind_eq_some_iff.mp h
      cases h
      exact finite_entries hentries
  · cases h

end Reader

theorem finite_of_parse? {text : String} {config : Config} (h : parse? text = some config) :
    ∀ entry ∈ config.entries, entry.2.IsFinite := by
  obtain ⟨entries, _, hfile, rfl⟩ := parse?_eq_some h
  exact fun entry hentry => Reader.finite_file hfile entry (ofEntries_subset entries hentry)

end Config

end PlayerAnimation
