import PlayerAnimation.Number.Numeral
import PlayerAnimation.Proofs.Text.Words

namespace PlayerAnimation

/-- White space that keeps two texts apart. -/
structure Text.Gap (gap : String) : Prop where
  ne_empty : gap ≠ ""
  blank : ∀ c ∈ gap.toList, isBlank c

theorem Text.Gap.toList_ne_nil {gap : String} (h : Gap gap) : gap.toList ≠ [] :=
  fun hnil => h.ne_empty (String.toList_eq_nil_iff.mp hnil)

def ReadsAs (word : List Char) (x : Float32) : Prop := (Numeral.ofText? word).map Numeral.toSingle = some x

theorem mapM_eq_some_iff {β γ : Type} {f : β → Option γ} {bs : List β} {cs : List γ} :
    bs.mapM f = some cs ↔ List.Forall₂ (fun b c => f b = some c) bs cs := by
  induction bs generalizing cs with
  | nil =>
      rw [List.mapM_nil, List.forall₂_nil_left_iff]
      exact Option.some_inj.trans eq_comm
  | cons b bs ih =>
      rw [List.mapM_cons, List.forall₂_cons_left_iff]
      simp only [Option.bind_eq_bind, Option.bind_eq_some_iff, Option.pure_def, Option.some_inj, ih]
      constructor
      · rintro ⟨c, hc, cs, hcs, rfl⟩
        exact ⟨c, cs, hc, hcs, rfl⟩
      · rintro ⟨c, cs, hc, hcs, rfl⟩
        exact ⟨c, hc, cs, hcs, rfl⟩

theorem parseNumbers_eq_some_iff {text : String} {xs : List Float32} :
    parseNumbers text = some xs ↔ List.Forall₂ ReadsAs (Text.words text.toList) xs := mapM_eq_some_iff

theorem parseNumbers_congr {text other : String} (h : Text.words text.toList = Text.words other.toList) :
    parseNumbers text = parseNumbers other := by
  rw [parseNumbers, parseNumbers, h]

theorem parseNumbers_trimmed (text : String) : parseNumbers (Text.trimmed text) = parseNumbers text :=
  parseNumbers_congr (by rw [Text.trimmed, String.toList_ofList, Text.words_trim])

section Gap

variable {gap : String} (h : Text.Gap gap)
include h

theorem parseNumbers_gap_append (text : String) : parseNumbers (gap ++ text) = parseNumbers text :=
  parseNumbers_congr (by rw [String.toList_append, Text.words_blank_append h.blank])

theorem parseNumbers_append_gap (text : String) : parseNumbers (text ++ gap) = parseNumbers text :=
  parseNumbers_congr (by rw [String.toList_append, Text.words_append_blank h.blank])

theorem parseNumbers_gap (a b : String) :
    parseNumbers (a ++ gap ++ b) = (parseNumbers a).bind fun xs => (parseNumbers b).map fun ys => xs ++ ys := by
  rw [parseNumbers, String.toList_append, String.toList_append, Text.words_gap h.toList_ne_nil h.blank,
    List.mapM_append]
  exact Option.bind_congr fun xs _ => Option.map_eq_bind.symm

/-- Two texts with white space between them are read as one list after the other, whichever white space it is.
The numbers of a text are its words, one for each. -/
theorem parseNumbers_itemwise (a b : String) :
    (parseNumbers (a ++ gap ++ b) = none ↔ parseNumbers a = none ∨ parseNumbers b = none) ∧
      (∀ xs ys, parseNumbers a = some xs → parseNumbers b = some ys →
        parseNumbers (a ++ gap ++ b) = some (xs ++ ys)) ∧
      parseNumbers (gap ++ a) = parseNumbers a ∧ parseNumbers (a ++ gap) = parseNumbers a ∧
      (∀ other, Text.Gap other → parseNumbers (a ++ other ++ b) = parseNumbers (a ++ gap ++ b)) ∧
      parseNumbers (Text.trimmed a) = parseNumbers a ∧
      ∃ items, (∀ ws, Text.Spaced ws a.toList ↔ ws = items) ∧
        ∀ xs, (parseNumbers a = some xs ↔ List.Forall₂ ReadsAs items xs) ∧
          (parseNumbers a = some xs → xs.length = items.length) := by
  refine ⟨?_, fun xs ys ha hb => ?_, parseNumbers_gap_append h a, parseNumbers_append_gap h a, fun other hother => ?_,
    parseNumbers_trimmed a, Text.words a.toList, fun ws => ?_, fun xs => ⟨parseNumbers_eq_some_iff, fun hxs => ?_⟩⟩
  · rw [parseNumbers_gap h]
    cases parseNumbers a with
    | none => simp
    | some xs => cases parseNumbers b with
      | none => simp
      | some ys => simp
  · rw [parseNumbers_gap h, ha, hb]
    rfl
  · rw [parseNumbers_gap h, parseNumbers_gap hother]
  · rw [← Text.words_eq_iff, eq_comm]
  · exact (parseNumbers_eq_some_iff.mp hxs).length_eq.symm

end Gap

theorem parseNumbers_itemwise_noBreak : Text.Gap "\u00a0\n" ∧
    parseNumbers (" 1  2.5" ++ "\u00a0\n" ++ "-3\t") = some ([1, 2.5] ++ [-3]) ∧
    parseNumbers (" 1  2.5" ++ "\u00a0\n" ++ "x 3") = none := by
  have hgap : Text.Gap "\u00a0\n" := ⟨by decide, by simp [Text.isBlank]⟩
  have hfirst : parseNumbers " 1  2.5" = some [1, 2.5] := by decide +kernel
  have hsecond : parseNumbers "-3\t" = some [-3] := by decide +kernel
  have hspoiled : parseNumbers "x 3" = none := by decide +kernel
  obtain ⟨-, hboth, -⟩ := parseNumbers_itemwise hgap " 1  2.5" "-3\t"
  obtain ⟨hnone, -⟩ := parseNumbers_itemwise hgap " 1  2.5" "x 3"
  exact ⟨hgap, hboth _ _ hfirst hsecond, hnone.mpr (Or.inr hspoiled)⟩

end PlayerAnimation
