import PlayerAnimation.Proofs.Text

namespace PlayerAnimation.Text

variable {as bs cs w : List Char} {ws : List (List Char)}

theorem words_of_clear (h : ∀ c ∈ cs, isBlank c = false) (hne : cs ≠ []) : words cs = [cs] := by
  rw [words, pieces_of_clear h, List.filter_singleton, List.isEmpty_eq_false_iff.mpr hne]
  rfl

theorem words_blank_append (has : ∀ c ∈ as, isBlank c) (cs : List Char) : words (as ++ cs) = words cs := by
  induction as with
  | nil => rfl
  | cons c as ih =>
      obtain ⟨hc, has⟩ := List.forall_mem_cons.mp has
      exact (words_append_cons [] hc (as ++ cs)).trans (ih has)

theorem words_of_blank (h : ∀ c ∈ cs, isBlank c) : words cs = [] := by
  have hwords := words_blank_append h []
  rwa [List.append_nil] at hwords

theorem words_gap {gap : List Char} (hne : gap ≠ []) (hgap : ∀ c ∈ gap, isBlank c) (as bs : List Char) :
    words (as ++ gap ++ bs) = words as ++ words bs := by
  obtain ⟨c, gap, rfl⟩ := List.exists_cons_of_ne_nil hne
  obtain ⟨hc, hgap⟩ := List.forall_mem_cons.mp hgap
  rw [List.append_assoc, List.cons_append, words_append_cons as hc, words_blank_append hgap]

theorem words_append_blank (hbs : ∀ c ∈ bs, isBlank c) (cs : List Char) : words (cs ++ bs) = words cs := by
  cases bs with
  | nil => rw [List.append_nil]
  | cons c bs =>
      obtain ⟨hc, hbs⟩ := List.forall_mem_cons.mp hbs
      rw [words_append_cons cs hc, words_of_blank hbs, List.append_nil]

theorem Padded.words_eq {ds : List Char} (h : Padded cs ds) : words ds = words cs := by
  obtain ⟨before, after, rfl, hbefore, hafter⟩ := h
  rw [words_append_blank hafter, words_blank_append hbefore]

theorem words_trim (cs : List Char) : words (trim cs) = words cs := (padded_trim cs).words_eq.symm

/-- Words one after another, with white space between them, and around them or not. -/
inductive Spaced : List (List Char) → List Char → Prop
  | blank {cs : List Char} (h : ∀ c ∈ cs, isBlank c) : Spaced [] cs
  | word (before w rest : List Char) {ws : List (List Char)} (hbefore : ∀ c ∈ before, isBlank c) (hne : w ≠ [])
      (hw : ∀ c ∈ w, isBlank c = false) (hend : ∀ c ∈ rest.head?, isBlank c) (h : Spaced ws rest) :
      Spaced (w :: ws) (before ++ w ++ rest)

theorem words_word_append (hne : w ≠ []) (hw : ∀ c ∈ w, isBlank c = false) (hend : ∀ c ∈ bs.head?, isBlank c) :
    words (w ++ bs) = w :: words bs := by
  cases bs with
  | nil =>
      rw [List.append_nil, words_of_clear hw hne]
      rfl
  | cons c bs =>
      have hc : isBlank c := hend c rfl
      have hbs : words (c :: bs) = words bs := words_append_cons [] hc bs
      rw [words_append_cons w hc, words_of_clear hw hne, hbs]
      rfl

theorem Spaced.words_eq (h : Spaced ws cs) : words cs = ws := by
  induction h with
  | blank h => exact words_of_blank h
  | word before w rest hbefore hne hw hend _ ih =>
      rw [List.append_assoc, words_blank_append hbefore, words_word_append hne hw hend, ih]

theorem Spaced.cons_blank {c : Char} (hc : isBlank c) (h : Spaced ws cs) : Spaced ws (c :: cs) := by
  cases h with
  | blank h => exact .blank (List.forall_mem_cons.mpr ⟨hc, h⟩)
  | word before w rest hbefore hne hw hend h =>
      exact .word (c :: before) w rest (List.forall_mem_cons.mpr ⟨hc, hbefore⟩) hne hw hend h

theorem Spaced.cons_letter {c : Char} (hc : isBlank c = false) (h : Spaced ws cs) : ∃ ws', Spaced ws' (c :: cs) := by
  by_cases hend : ∀ d ∈ cs.head?, isBlank d
  · exact ⟨[c] :: ws, .word [] [c] cs (List.forall_mem_nil _) (List.cons_ne_nil c [])
      (List.forall_mem_singleton.mpr hc) hend h⟩
  cases h with
  | blank h => exact absurd (fun d hd => h d (List.mem_of_mem_head? hd)) hend
  | word before w rest hbefore hne hw hrest h =>
      cases before with
      | nil =>
          exact ⟨_, .word [] (c :: w) rest (List.forall_mem_nil _) (List.cons_ne_nil c w)
            (List.forall_mem_cons.mpr ⟨hc, hw⟩) hrest h⟩
      | cons d before =>
          refine absurd (fun e he => ?_) hend
          obtain rfl := Option.some.inj he
          exact hbefore d List.mem_cons_self

theorem exists_spaced (cs : List Char) : ∃ ws, Spaced ws cs := by
  induction cs with
  | nil => exact ⟨[], .blank (List.forall_mem_nil _)⟩
  | cons c cs ih =>
      obtain ⟨ws, h⟩ := ih
      cases hc : isBlank c with
      | true => exact ⟨ws, h.cons_blank hc⟩
      | false => exact h.cons_letter hc

theorem words_eq_iff : words cs = ws ↔ Spaced ws cs := by
  refine ⟨fun h => ?_, Spaced.words_eq⟩
  obtain ⟨vs, hvs⟩ := exists_spaced cs
  rwa [← h, hvs.words_eq]

end PlayerAnimation.Text
