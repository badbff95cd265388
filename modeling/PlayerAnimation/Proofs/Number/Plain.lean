import Mathlib
import PlayerAnimation.Number.Numeral
import PlayerAnimation.Number.Shortest
import PlayerAnimation.Proofs.Text.Words

namespace PlayerAnimation

namespace Numeral

theorem digitsValue_eq (acc : ℕ) (cs : List Char) : digitsValue acc cs = Nat.ofDigitChars 10 cs acc :=
  Nat.ofDigitChars_eq_foldl.symm

/-- Decimal digits, with a point and more digits behind them or without. -/
inductive Plain : List Char → Prop
  | whole {ds : List Char} (hds : ∀ c ∈ ds, c.isDigit = true) (hne : ds ≠ []) : Plain ds
  | pointed {ds fs : List Char} (hds : ∀ c ∈ ds, c.isDigit = true) (hne : ds ≠ [])
      (hfs : ∀ c ∈ fs, c.isDigit = true) (hne' : fs ≠ []) : Plain (ds ++ '.' :: fs)

section Digit

variable {c : Char} (hc : c.isDigit = true)
include hc

theorem takeSign_digit (cs : List Char) : takeSign (c :: cs) = (false, c :: cs) := by
  rw [takeSign]
  · intro rest h
    obtain rfl := (List.cons.inj h).1
    cases hc
  · intro rest h
    obtain rfl := (List.cons.inj h).1
    cases hc

theorem toLower_digit : c.toLower = c := by
  rw [Char.isDigit, Bool.and_eq_true, decide_eq_true_iff, decide_eq_true_iff] at hc
  rw [Char.toLower, dif_neg]
  exact fun hupper => absurd (UInt32.le_trans hupper.1 hc.2) (by decide)

end Digit

section Read

variable {ds fs : List Char} (hds : ∀ c ∈ ds, c.isDigit = true) (hne : ds ≠ []) (negative : Bool)
include hds hne

theorem ofText?_signed (rest : List Char) :
    ofText? (Shortest.signed negative (ds ++ rest)) = unsigned? negative (ds ++ rest) := by
  obtain ⟨c, cs, rfl⟩ := List.exists_cons_of_ne_nil hne
  have hc := hds c List.mem_cons_self
  have hsign : takeSign (Shortest.signed negative (c :: cs ++ rest)) = (negative, c :: cs ++ rest) := by
    cases negative with
    | true => rfl
    | false => exact takeSign_digit hc _
  have hword {d : Char} {word : List Char} (hd : d.isDigit = false) :
      String.ofList ((c :: cs ++ rest).map Char.toLower) ≠ String.ofList (d :: word) := by
    intro h
    have hfirst := (List.cons.inj (String.ofList_injective h)).1
    rw [toLower_digit hc] at hfirst
    rw [← hfirst, hc] at hd
    cases hd
  rw [ofText?, hsign]
  dsimp only
  rw [if_neg (not_or.mpr ⟨hword (by decide), hword (by decide)⟩), if_neg (hword (by decide))]

theorem ofText?_whole :
    ofText? (Shortest.signed negative ds) = some (.decimal negative (digitsValue 0 ds) 0) := by
  have hwhole : ds.takeWhile Char.isDigit = ds := List.takeWhile_eq_self_iff.mpr hds
  have hrest : ds.dropWhile Char.isDigit = [] := List.dropWhile_eq_nil_iff.mpr hds
  have hread := ofText?_signed hds hne negative []
  rw [List.append_nil] at hread
  rw [hread]
  simp [unsigned?, hwhole, hrest, hne, digitsValue]

theorem ofText?_pointed (hfs : ∀ c ∈ fs, c.isDigit = true) :
    ofText? (Shortest.signed negative (ds ++ '.' :: fs)) =
      some (.decimal negative (digitsValue (digitsValue 0 ds) fs) (-fs.length)) := by
  have hwhole : (ds ++ '.' :: fs).takeWhile Char.isDigit = ds := by
    rw [List.takeWhile_append_of_pos hds, List.takeWhile_cons_of_neg (by decide), List.append_nil]
  have hrest : (ds ++ '.' :: fs).dropWhile Char.isDigit = '.' :: fs := by
    rw [List.dropWhile_append_of_pos hds, List.dropWhile_cons_of_neg (by decide)]
  have hfraction : fs.takeWhile Char.isDigit = fs := List.takeWhile_eq_self_iff.mpr hfs
  have hend : fs.dropWhile Char.isDigit = [] := List.dropWhile_eq_nil_iff.mpr hfs
  rw [ofText?_signed hds hne]
  simp [unsigned?, hwhole, hrest, hfraction, hend, hne]

end Read

theorem Plain.clear_signed {cs : List Char} (h : Plain cs) (negative : Bool) :
    ∀ c ∈ Shortest.signed negative cs, Text.isBlank c = false := by
  have hdigit (c : Char) (hc : c.isDigit = true) : Text.isBlank c = false := by
    obtain ⟨hlow, hhigh⟩ := Char.isDigit_iff_toNat.mp hc
    change 48 ≤ c.toNat at hlow
    change c.toNat ≤ 57 at hhigh
    simp only [Text.isBlank, Bool.or_eq_false_iff, Bool.and_eq_false_iff, decide_eq_false_iff_not, beq_eq_false_iff_ne]
    omega
  have hclear : ∀ c ∈ cs, Text.isBlank c = false := by
    cases h with
    | whole hds => exact fun c hc => hdigit c (hds c hc)
    | pointed hds _ hfs =>
        intro c hc
        obtain hc | hc := List.mem_append.mp hc
        · exact hdigit c (hds c hc)
        obtain rfl | hc := List.mem_cons.mp hc
        · rfl
        · exact hdigit c (hfs c hc)
  cases negative with
  | false => exact hclear
  | true => exact List.forall_mem_cons.mpr ⟨rfl, hclear⟩

theorem Plain.signed_ne_nil {cs : List Char} (h : Plain cs) (negative : Bool) : Shortest.signed negative cs ≠ [] := by
  cases negative with
  | false =>
      cases h with
      | whole _ hne => exact hne
      | pointed _ hne => exact List.append_ne_nil_of_left_ne_nil hne _
  | true => exact List.cons_ne_nil _ _

theorem Plain.words_signed {cs : List Char} (h : Plain cs) (negative : Bool) :
    Text.words (Shortest.signed negative cs) = [Shortest.signed negative cs] :=
  Text.words_of_clear (h.clear_signed negative) (h.signed_ne_nil negative)

end Numeral

namespace Shortest

open Numeral

theorem isDigit_toDigits (n : ℕ) : ∀ c ∈ Nat.toDigits 10 n, c.isDigit = true :=
  fun _ => Nat.isDigit_of_mem_toDigits (by decide) (by decide)

theorem isDigit_fraction (digits places : ℕ) :
    ∀ c ∈ List.replicate (places - (Nat.toDigits 10 (digits % 10 ^ places)).length) '0' ++
      Nat.toDigits 10 (digits % 10 ^ places), c.isDigit = true := by
  intro c hc
  obtain hc | hc := List.mem_append.mp hc
  · rw [List.eq_of_mem_replicate hc]
    rfl
  · exact isDigit_toDigits _ c hc

theorem fraction_length {digits places : ℕ} (hplaces : 0 < places) :
    (places - (Nat.toDigits 10 (digits % 10 ^ places)).length) + (Nat.toDigits 10 (digits % 10 ^ places)).length =
      places := by
  have hlength : (Nat.toDigits 10 (digits % 10 ^ places)).length ≤ places :=
    (Nat.length_toDigits_le_iff (by decide) hplaces).mpr (Nat.mod_lt _ (by positivity))
  omega

theorem positional_plain (digits : ℕ) (power : ℤ) : Plain (positional digits power) := by
  rw [positional]
  split
  · exact .whole (isDigit_toDigits _) Nat.toDigits_ne_nil
  · exact .pointed (isDigit_toDigits _) Nat.toDigits_ne_nil (isDigit_fraction _ _)
      (List.append_ne_nil_of_right_ne_nil _ Nat.toDigits_ne_nil)

theorem ofText?_positional (negative : Bool) (digits : ℕ) (power : ℤ) :
    ofText? (signed negative (positional digits power)) =
      some (.decimal negative (digits * 10 ^ power.toNat) (min power 0)) := by
  rw [positional]
  split
  · next hpower =>
      rw [ofText?_whole (isDigit_toDigits _) Nat.toDigits_ne_nil, digitsValue_eq, Nat.ofDigitChars_ten_toDigits,
        min_eq_right hpower]
      rfl
  · next hpower =>
      set places := (-power).toNat with hplaces
      have hpos : 0 < places := by omega
      have hlast : power.toNat = 0 := Int.toNat_eq_zero.mpr (by omega)
      have hcount : -(places : ℤ) = power := by omega
      set fraction := Nat.toDigits 10 (digits % 10 ^ places) with hfraction
      have hlength : (List.replicate (places - fraction.length) '0' ++ fraction).length = places := by
        rw [List.length_append, List.length_replicate, fraction_length hpos]
      have hvalue : digitsValue (digitsValue 0 (Nat.toDigits 10 (digits / 10 ^ places)))
          (List.replicate (places - fraction.length) '0' ++ fraction) = digits := by
        rw [digitsValue_eq, digitsValue_eq, Nat.ofDigitChars_ten_toDigits, Nat.ofDigitChars_append,
          Nat.ofDigitChars_replicate_zero, Nat.ofDigitChars_eq_ofDigitChars_zero, hfraction,
          Nat.ofDigitChars_ten_toDigits, ← Nat.mul_assoc, ← Nat.pow_add, Nat.add_comm _ (places - _),
          fraction_length hpos, Nat.div_add_mod]
      have hread := ofText?_pointed (isDigit_toDigits (digits / 10 ^ places)) Nat.toDigits_ne_nil negative
        (isDigit_fraction digits places)
      rw [hvalue, hlength] at hread
      change ofText? (signed negative (Nat.toDigits 10 (digits / 10 ^ places) ++ '.' ::
        (List.replicate (places - fraction.length) '0' ++ fraction))) = _
      rw [hread, hlast, pow_zero, mul_one, hcount, min_eq_left (by omega)]

section Written

variable {text : String} {negative : Bool} {digits : ℕ} {power : ℤ}
  (h : text.toList = signed negative (positional digits power))
include h

theorem parseNumbers_signed :
    parseNumbers text = some [toSingle (.decimal negative (digits * 10 ^ power.toNat) (min power 0))] := by
  rw [parseNumbers, h, (positional_plain digits power).words_signed, List.mapM_cons, List.mapM_nil,
    ofText?_positional]
  rfl

theorem trimmed_signed : Text.trimmed text = text := by
  rw [Text.trimmed, h, Text.trim_of_clear ((positional_plain digits power).clear_signed negative), ← h,
    String.ofList_toList]

end Written

end Shortest

end PlayerAnimation
