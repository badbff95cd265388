import PlayerAnimation.Flags.Text
import PlayerAnimation.Movement
import PlayerAnimation.Proofs.Flags.Bits
import PlayerAnimation.Proofs.Text

namespace PlayerAnimation

structure Text.IsToken (cs : List Char) : Prop where
  ne_nil : cs ≠ []
  clear : ∀ c ∈ cs, isBlank c = false
  noBar : '|' ∉ cs

structure FlagSpec.Readable (spec : FlagSpec) : Prop where
  fits : ∀ flag ∈ spec.flags, flag.2 < spec.width
  distinct : (spec.flags.map Prod.fst).Nodup
  token : ∀ flag ∈ spec.flags, Text.IsToken flag.1.toList
  noDigit : ∀ flag ∈ spec.flags, flag.1.toList.head? ≠ some '0'

namespace Flags

open Text

section Hexadecimal

theorem hexValue?_concat (acc : Nat) (cs : List Char) (c : Char) :
    hexValue? acc (cs ++ [c]) = (hexValue? acc cs).bind fun n => (hexDigit? c).map (16 * n + ·) := by
  induction cs generalizing acc with
  | nil => cases h : hexDigit? c <;> simp [hexValue?, h]
  | cons d cs ih => cases h : hexDigit? d <;> simp [hexValue?, h, ih]

theorem hexDigit?_digitChar {d : Nat} (h : d < 16) : hexDigit? d.digitChar = some d := by
  have hall : ∀ d < 16, hexDigit? (Nat.digitChar d) = some d := by decide
  exact hall d h

theorem hexValue?_toDigits (n : Nat) : hexValue? 0 (Nat.toDigits 16 n) = some n := by
  induction n using Nat.strongRecOn with
  | ind n ih =>
      by_cases h : n < 16
      · rw [Nat.toDigits_of_lt_base h]
        simp [hexValue?, hexDigit?_digitChar h]
      · rw [Nat.toDigits_of_base_le (by decide) (Nat.not_lt.mp h), hexValue?_concat, ih _ (by omega),
          Option.bind_some, hexDigit?_digitChar (Nat.mod_lt _ (by decide)), Option.map_some,
          Nat.div_add_mod]

theorem mem_toDigits {n : Nat} {c : Char} (h : c ∈ Nat.toDigits 16 n) : ∃ d < 16, c = Nat.digitChar d := by
  induction n using Nat.strongRecOn with
  | ind n ih =>
      by_cases hn : n < 16
      · rw [Nat.toDigits_of_lt_base hn, List.mem_singleton] at h
        exact ⟨n, hn, h⟩
      · rw [Nat.toDigits_of_base_le (by decide) (Nat.not_lt.mp hn), List.mem_append, List.mem_singleton] at h
        obtain h | h := h
        · exact ih _ (by omega) h
        · exact ⟨n % 16, Nat.mod_lt _ (by decide), h⟩

theorem digit_clear {n : Nat} {c : Char} (h : c ∈ Nat.toDigits 16 n) :
    isBlank c = false ∧ c ≠ '|' ∧ c ≠ '+' := by
  have hall : ∀ d < 16, isBlank (Nat.digitChar d) = false ∧ Nat.digitChar d ≠ '|' ∧ Nat.digitChar d ≠ '+' := by
    decide
  obtain ⟨d, hd, rfl⟩ := mem_toDigits h
  exact hall d hd

theorem hexText_toList (n : Nat) : (hexText n).toList = '0' :: 'x' :: Nat.toDigits 16 n := by
  rw [hexText, String.toList_append, String.toList_ofList]
  simp

theorem hexText_isToken (n : Nat) : IsToken (hexText n).toList := by
  rw [hexText_toList]
  refine ⟨List.cons_ne_nil _ _, ?_, ?_⟩
  · intro c hc
    simp only [List.mem_cons] at hc
    obtain rfl | rfl | hc := hc
    · decide
    · decide
    · exact (digit_clear hc).1
  · intro hc
    simp only [List.mem_cons, Char.reduceEq, false_or] at hc
    exact (digit_clear hc).2.1 rfl

end Hexadecimal

variable {spec : FlagSpec}

theorem ofHex?_toDigits (f : Flags spec) : ofHex? (Nat.toDigits 16 f.bits.toNat) = some f := by
  have hplus : (Nat.toDigits 16 f.bits.toNat).head? ≠ some '+' := by
    intro h
    exact (digit_clear (List.mem_of_head? h)).2.2 rfl
  have hne : Nat.toDigits 16 f.bits.toNat ≠ [] := Nat.toDigits_ne_nil
  simp [ofHex?, hplus, hne, hexValue?_toDigits]

theorem ofPart?_hexText (f : Flags spec) : ofPart? (hexText f.bits.toNat).toList = some f := by
  rw [hexText_toList]
  exact ofHex?_toDigits f

theorem ofPart?_of_noDigit {cs : List Char} (h : cs.head? ≠ some '0') :
    (ofPart? cs : Option (Flags spec)) = ofName? (.ofList cs) := by
  rw [ofPart?]
  intro digits hcs
  rw [hcs] at h
  exact h rfl

/-- The parts of a text between bars, without the white space around them. -/
def partsOf (text : String) : List (List Char) := (pieces (· == '|') text.toList).map trim

theorem isBlank_bar : isBlank '|' = false := by decide

theorem blank_iff (text : String) : trim text.toList = [] ↔ partsOf text = [[]] := by
  rw [partsOf]
  constructor
  · intro h
    have hbar : '|' ∉ text.toList := by
      intro hmem
      have hblank := trim_eq_nil_iff.mp h _ hmem
      rw [isBlank_bar] at hblank
      cases hblank
    rw [pieces_of_not_mem hbar, List.map_singleton, h]
  · intro h
    obtain ⟨w, hw, htrim⟩ := List.map_eq_singleton_iff.mp h
    have hsplit : ['|'].intercalate (text.toList.splitOn '|') = text.toList := List.intercalate_splitOn '|'
    rw [← pieces_eq_splitOn, hw, List.intercalate_singleton] at hsplit
    rwa [← hsplit]

theorem ofText?_eq (text : String) : (ofText? text : Option (Flags spec)) =
    if partsOf text = [[]] then some empty else ((partsOf text).mapM ofPart?).map unions := by
  rw [ofText?, partsOf, List.mapM_map]
  exact if_congr (blank_iff text) rfl rfl

theorem mapM_eq_filterMap {β γ : Type} {g : β → Option γ} {l : List β} (h : ∀ b ∈ l, (g b).isSome) :
    l.mapM g = some (l.filterMap g) := by
  induction l with
  | nil => rfl
  | cons b l ih =>
      obtain ⟨hb, hl⟩ := List.forall_mem_cons.mp h
      obtain ⟨c, hc⟩ := Option.isSome_iff_exists.mp hb
      rw [List.mapM_cons, hc, ih hl, List.filterMap_cons_some hc]
      rfl

section Read

variable (hspec : spec.Readable)
include hspec

theorem ofPart?_nil : (ofPart? [] : Option (Flags spec)) = none := by
  have hname : ∀ flag ∈ spec.flags, flag.1 ≠ "" := by
    intro flag hflag h
    exact (hspec.token flag hflag).ne_nil (by rw [h]; rfl)
  have hlookup : spec.flags.lookup "" = none := by
    rw [List.lookup_eq_none_iff]
    intro flag hflag
    simpa using (hname flag hflag).symm
  change (spec.flags.lookup "").map bit = none
  rw [hlookup]
  rfl

theorem ofPart?_name {flag : String × Nat} (h : flag ∈ spec.flags) :
    (ofPart? flag.1.toList : Option (Flags spec)) = some (bit flag.2) := by
  have hlookup : spec.flags.lookup flag.1 = some flag.2 := by
    obtain ⟨before, after, hflags⟩ := List.append_of_mem h
    have hdistinct := hspec.distinct
    rw [hflags, List.map_append, List.map_cons, List.nodup_append] at hdistinct
    refine List.lookup_eq_some_iff.mpr ⟨before, after, hflags, ?_⟩
    intro other hother
    have hne := hdistinct.2.2 _ (List.mem_map_of_mem hother) _ List.mem_cons_self
    simpa using hne.symm
  rw [ofPart?_of_noDigit (hspec.noDigit flag h), String.ofList_toList, ofName?, hlookup, Option.map_some]

theorem ofText?_union {text : String} (h : ∀ part ∈ partsOf text, (ofPart? part : Option (Flags spec)).isSome) :
    ∃ f : Flags spec, ofText? text = some f ∧
      ∀ i, f.bits.getLsbD i ↔ ∃ part ∈ partsOf text, ∃ g : Flags spec, ofPart? part = some g ∧ g.bits.getLsbD i := by
  have hblank : partsOf text ≠ [[]] := by
    intro hb
    have hnil := h [] (by rw [hb]; exact List.mem_singleton_self _)
    rw [ofPart?_nil hspec] at hnil
    cases hnil
  refine ⟨unions ((partsOf text).filterMap ofPart?), ?_, ?_⟩
  · rw [ofText?_eq, if_neg hblank, mapM_eq_filterMap h, Option.map_some]
  · intro i
    rw [getLsbD_unions]
    constructor
    · rintro ⟨g, hg, hi⟩
      obtain ⟨part, hpart, hread⟩ := List.mem_filterMap.mp hg
      exact ⟨part, hpart, g, hread, hi⟩
    · rintro ⟨part, hpart, g, hread, hi⟩
      exact ⟨g, List.mem_filterMap.mpr ⟨part, hpart, hread⟩, hi⟩

end Read

section Write

theorem partsOf_padded {ps qs : List (List Char)} (h : List.Forall₂ Padded ps qs) (hbar : ∀ p ∈ ps, '|' ∉ p)
    (hne : ps ≠ []) : partsOf (.ofList (['|'].intercalate qs)) = ps.map trim := by
  rw [partsOf, String.toList_ofList, map_trim_pieces isBlank_bar h hbar hne]

variable (hspec : spec.Readable)
include hspec

theorem toText_empty : (empty : Flags spec).toText = "" := by
  have hnamed : ∀ flag ∈ spec.flags, ¬ (empty : Flags spec).contains (bit flag.2) := by
    intro flag hflag
    rw [contains_bit _ (hspec.fits flag hflag), getLsbD_empty]
    exact Bool.false_ne_true
  have hunknown : (empty : Flags spec).unknown = empty := by
    apply ext_getLsbD
    intro i hi
    rw [getLsbD_empty, ← Bool.not_eq_true, getLsbD_unknown _ hi, getLsbD_empty]
    exact fun h => Bool.false_ne_true h.1
  rw [toText, parts, List.filter_eq_nil_iff.mpr hnamed, if_pos hunknown]
  rfl

variable (f : Flags spec)

theorem parts_read {part : String} (h : part ∈ f.parts) :
    IsToken part.toList ∧ ∃ g : Flags spec, ofPart? part.toList = some g ∧ ∀ i, g.bits.getLsbD i → f.bits.getLsbD i := by
  rw [parts, List.mem_append] at h
  obtain h | h := h
  · obtain ⟨flag, hmem, rfl⟩ := List.mem_map.mp h
    obtain ⟨hflag, hf⟩ := List.mem_filter.mp hmem
    exact ⟨hspec.token flag hflag, _, ofPart?_name hspec hflag, (contains_iff f _).mp hf⟩
  · split at h
    · cases h
    · rw [List.mem_singleton.mp h]
      refine ⟨hexText_isToken _, _, ofPart?_hexText f.unknown, ?_⟩
      intro i hi
      exact ((getLsbD_unknown f (BitVec.lt_of_getLsbD hi)).mp hi).1

theorem exists_part {i : Nat} (h : f.bits.getLsbD i) :
    ∃ part ∈ f.parts, ∃ g : Flags spec, ofPart? part.toList = some g ∧ g.bits.getLsbD i := by
  have hi : i < spec.width := BitVec.lt_of_getLsbD h
  by_cases hnamed : ∃ flag ∈ spec.flags, flag.2 = i
  · obtain ⟨flag, hflag, rfl⟩ := hnamed
    have hmem : flag.1 ∈ f.parts := by
      apply List.mem_append_left
      exact List.mem_map_of_mem (List.mem_filter.mpr ⟨hflag, by rw [contains_bit _ hi, h]⟩)
    exact ⟨_, hmem, _, ofPart?_name hspec hflag, by simp [getLsbD_bit, hi]⟩
  · have hunknown : f.unknown.bits.getLsbD i :=
      (getLsbD_unknown f hi).mpr ⟨h, fun flag hflag hbit => hnamed ⟨flag, hflag, hbit⟩⟩
    have hne : f.unknown ≠ empty := by
      intro he
      rw [he, getLsbD_empty] at hunknown
      cases hunknown
    have hmem : hexText f.unknown.bits.toNat ∈ f.parts := by
      apply List.mem_append_right
      rw [if_neg hne]
      exact List.mem_singleton_self _
    exact ⟨_, hmem, _, ofPart?_hexText f.unknown, hunknown⟩

theorem partsOf_toText (hf : f ≠ empty) : partsOf f.toText = f.parts.map String.toList := by
  have hne : f.parts.map String.toList ≠ [] := by
    rw [Ne, List.map_eq_nil_iff]
    intro hnil
    apply hf
    apply ext_getLsbD
    intro i hi
    rw [getLsbD_empty]
    by_contra h
    obtain ⟨part, hpart, -⟩ := exists_part hspec f (Bool.not_eq_false _ ▸ h)
    rw [hnil] at hpart
    cases hpart
  have htoken : ∀ w ∈ f.parts.map String.toList, IsToken w := by
    intro w hw
    obtain ⟨part, hpart, rfl⟩ := List.mem_map.mp hw
    exact (parts_read hspec f hpart).1
  obtain ⟨qs, hqs, heq⟩ := exists_padded '|' hne
  have htext : f.toText = .ofList (['|'].intercalate qs) := by
    apply String.toList_inj.mp
    rw [toText, String.toList_intercalate, String.toList_ofList, String.toList_ofList, ← heq]
  rw [htext, partsOf_padded hqs (fun w hw => (htoken w hw).noBar) hne]
  exact (List.map_congr_left fun w hw => trim_of_clear (htoken w hw).clear).trans (List.map_id _)

theorem ofText?_toText : ofText? f.toText = some f := by
  by_cases hf : f = empty
  · rw [hf, toText_empty hspec]
    rfl
  · have hparts := partsOf_toText hspec f hf
    have hread : ∀ part ∈ partsOf f.toText, (ofPart? part : Option (Flags spec)).isSome := by
      rw [hparts]
      intro part hpart
      obtain ⟨name, hname, rfl⟩ := List.mem_map.mp hpart
      obtain ⟨-, g, hg, -⟩ := parts_read hspec f hname
      rw [hg]
      rfl
    obtain ⟨g, hg, hbits⟩ := ofText?_union hspec hread
    have hsame : g = f := by
      apply ext_getLsbD
      intro i _
      rw [Bool.eq_iff_iff, hbits, hparts]
      constructor
      · rintro ⟨part, hpart, h, hh, hi⟩
        obtain ⟨name, hname, rfl⟩ := List.mem_map.mp hpart
        obtain ⟨-, h', hh', hsub⟩ := parts_read hspec f hname
        obtain rfl := Option.some.inj (hh.symm.trans hh')
        exact hsub i hi
      · intro hi
        obtain ⟨name, hname, h, hh, hi⟩ := exists_part hspec f hi
        exact ⟨_, List.mem_map_of_mem hname, h, hh, hi⟩
    rw [hg, hsame]

end Write

def declared : List FlagSpec := [MoveTypes.spec, AnimFlags.spec, EntityFlags.spec, ControllerMovement.spec]

theorem readable (h : spec ∈ declared) : spec.Readable := by
  have hfits : ∀ spec ∈ declared, ∀ flag ∈ spec.flags, flag.2 < spec.width := by decide
  have hdistinct : ∀ spec ∈ declared, (spec.flags.map Prod.fst).Nodup := by decide
  have htoken : ∀ spec ∈ declared, ∀ flag ∈ spec.flags,
      flag.1.toList ≠ [] ∧ '|' ∉ flag.1.toList ∧ flag.1.toList.head? ≠ some '0' := by
    decide
  have hclear : declared.all fun spec => spec.flags.all fun flag => flag.1.toList.all fun c => !isBlank c := by
    decide
  simp only [List.all_eq_true, Bool.not_eq_true'] at hclear
  refine ⟨hfits spec h, hdistinct spec h, ?_, ?_⟩
  · intro flag hflag
    obtain ⟨hne, hbar, -⟩ := htoken spec h flag hflag
    exact ⟨hne, hclear spec h flag hflag, hbar⟩
  · intro flag hflag
    exact (htoken spec h flag hflag).2.2

/-- A written word is read as the same bits. A text whose parts can all be read is read as their union, whatever
white space is around the parts. -/
theorem flags_read_back (h : spec ∈ declared) :
    (∀ f : Flags spec, ofText? f.toText = some f ∧ (f.toText = "" ↔ f = empty) ∧
      (f ≠ empty → partsOf f.toText = f.parts.map String.toList)) ∧
    (∀ text, (∀ part ∈ partsOf text, (ofPart? part : Option (Flags spec)).isSome) →
      ∃ f : Flags spec, ofText? text = some f ∧ ofText? f.toText = some f ∧
        (∀ i, f.bits.getLsbD i ↔
          ∃ part ∈ partsOf text, ∃ g : Flags spec, ofPart? part = some g ∧ g.bits.getLsbD i) ∧
        ∀ text', (∀ part, part ∈ partsOf text' ↔ part ∈ partsOf text) → ofText? text' = some f) ∧
    ∀ ps qs, List.Forall₂ Padded ps qs → (∀ p ∈ ps, '|' ∉ p) →
      (ofText? (.ofList (['|'].intercalate qs)) : Option (Flags spec)) =
        ofText? (.ofList (['|'].intercalate ps)) := by
  have hspec := readable h
  refine ⟨?_, ?_, ?_⟩
  · intro f
    refine ⟨ofText?_toText hspec f, ?_, partsOf_toText hspec f⟩
    constructor
    · intro hempty
      have hread := ofText?_toText hspec f
      rw [hempty] at hread
      exact (Option.some.inj hread).symm
    · rintro rfl
      exact toText_empty hspec
  · intro text hparts
    obtain ⟨f, hf, hbits⟩ := ofText?_union hspec hparts
    refine ⟨f, hf, ofText?_toText hspec f, hbits, ?_⟩
    intro text' hsame
    obtain ⟨g, hg, hbits'⟩ := ofText?_union hspec fun part hpart => hparts part ((hsame part).mp hpart)
    have heq : g = f := by
      apply ext_getLsbD
      intro i _
      rw [Bool.eq_iff_iff, hbits, hbits']
      simp only [hsame]
    rw [hg, heq]
  · intro ps qs hpadded hbar
    cases hpadded with
    | nil => rfl
    | @cons p q ps qs hp hps =>
        have hne : p :: ps ≠ [] := List.cons_ne_nil p ps
        have hplain := partsOf_padded (List.forall₂_same.mpr fun w _ => Padded.refl w) hbar hne
        rw [ofText?_eq, ofText?_eq, partsOf_padded (.cons hp hps) hbar hne, hplain]

section Example

def crouchedGunner : EntityFlags := EntityFlags.firing ||| EntityFlags.crouch ||| .bit 31

theorem flags_read_back_crouchedGunner :
    EntityFlags.spec ∈ declared ∧
    crouchedGunner.toText = "CROUCH | FIRING | 0x80000000" ∧ ofText? crouchedGunner.toText = some crouchedGunner ∧
    (∀ part ∈ partsOf " FIRING|0x80000004 | FIRING", (ofPart? part : Option EntityFlags).isSome) ∧
    (ofText? " FIRING|0x80000004 | FIRING" : Option EntityFlags) = some crouchedGunner ∧
    (ofText? "0x80000004|FIRING" : Option EntityFlags) = some crouchedGunner := by
  have hdeclared : EntityFlags.spec ∈ declared := by simp [declared]
  have hparts : ∀ part ∈ partsOf " FIRING|0x80000004 | FIRING", (ofPart? part : Option EntityFlags).isSome := by
    decide
  have hsame : ∀ part, part ∈ partsOf "0x80000004|FIRING" ↔ part ∈ partsOf " FIRING|0x80000004 | FIRING" := by
    have hfew : partsOf "0x80000004|FIRING" = ["0x80000004".toList, "FIRING".toList] := by decide
    have hmany : partsOf " FIRING|0x80000004 | FIRING" =
        ["FIRING".toList, "0x80000004".toList, "FIRING".toList] := by
      decide
    intro part
    rw [hfew, hmany]
    simp only [List.mem_cons, List.not_mem_nil]
    tauto
  obtain ⟨hwrite, hread, -⟩ := flags_read_back hdeclared
  obtain ⟨f, hf, -, -, hany⟩ := hread _ hparts
  have hgunner : (ofText? " FIRING|0x80000004 | FIRING" : Option EntityFlags) = some crouchedGunner := by decide
  obtain rfl := Option.some.inj (hf.symm.trans hgunner)
  exact ⟨hdeclared, by decide, (hwrite _).1, hparts, hf, hany _ hsame⟩

end Example

end Flags

end PlayerAnimation
