import Mathlib.Data.List.Forall2
import Mathlib.Data.List.TakeWhile
import PlayerAnimation.Text.Split

namespace PlayerAnimation.Text

variable {cs : List Char}

theorem pieces_eq_splitOn (c : Char) (cs : List Char) : pieces (· == c) cs = cs.splitOn c := by
  rw [List.splitOn_eq_splitOnP]
  induction cs with
  | nil => rfl
  | cons d cs ih =>
      rw [List.splitOnP_cons_eq_if_modifyHead, pieces, ih]
      cases h : cs.splitOnP (· == c) with
      | nil => exact absurd h (List.splitOnP_ne_nil _ _)
      | cons w ws => rfl

theorem pieces_intercalate {c : Char} {ws : List (List Char)} (h : ∀ w ∈ ws, c ∉ w) (hws : ws ≠ []) :
    pieces (· == c) ([c].intercalate ws) = ws := by
  rw [pieces_eq_splitOn, List.splitOn_intercalate c h hws]

theorem pieces_of_clear {p : Char → Bool} (h : ∀ c ∈ cs, p c = false) : pieces p cs = [cs] := by
  induction cs with
  | nil => rfl
  | cons c cs ih =>
      obtain ⟨hc, hcs⟩ := List.forall_mem_cons.mp h
      rw [pieces, ih hcs, if_neg (by rw [hc]; exact Bool.false_ne_true)]

theorem pieces_of_not_mem {c : Char} (h : c ∉ cs) : pieces (· == c) cs = [cs] :=
  pieces_of_clear fun _ hd => beq_eq_false_iff_ne.mpr (ne_of_mem_of_not_mem hd h)

theorem trim_padded {before after : List Char} (hb : ∀ c ∈ before, isBlank c) (ha : ∀ c ∈ after, isBlank c) :
    trim (before ++ cs ++ after) = trim cs := by
  have hafter : after.dropWhile isBlank = [] := List.dropWhile_eq_nil_iff.mpr ha
  have ha' : ∀ c ∈ after.reverse, isBlank c := fun c hc => ha c (List.mem_reverse.mp hc)
  rw [trim, trim, List.append_assoc, List.dropWhile_append_of_pos hb, List.dropWhile_append]
  split
  · next hnil => rw [hafter, List.isEmpty_iff.mp hnil]
  · rw [List.reverse_append, List.dropWhile_append_of_pos ha']

theorem trim_eq_nil_iff : trim cs = [] ↔ ∀ c ∈ cs, isBlank c := by
  rw [trim, List.reverse_eq_nil_iff, List.dropWhile_eq_nil_iff]
  simp only [List.mem_reverse]
  constructor
  · intro h
    have hnone : cs.dropWhile isBlank = [] := by
      cases hrest : cs.dropWhile isBlank with
      | nil => rfl
      | cons c rest =>
          have hc : isBlank c = false := by
            have hhead := List.head?_dropWhile_not isBlank cs
            rw [hrest] at hhead
            simpa using hhead
          rw [h c (hrest ▸ List.mem_cons_self)] at hc
          cases hc
    exact List.dropWhile_eq_nil_iff.mp hnone
  · intro h c hc
    exact h c ((List.dropWhile_suffix isBlank).subset hc)

theorem trim_of_clear (h : ∀ c ∈ cs, isBlank c = false) : trim cs = cs := by
  have hdrop : ∀ ds : List Char, (∀ d ∈ ds, isBlank d = false) → ds.dropWhile isBlank = ds := by
    intro ds hds
    apply List.dropWhile_eq_self_iff.mpr
    intro hl
    rw [hds _ (List.getElem_mem hl)]
    exact Bool.false_ne_true
  rw [trim, hdrop cs h, hdrop cs.reverse (fun c hc => h c (List.mem_reverse.mp hc)), List.reverse_reverse]

/-- A text with white space around it. -/
def Padded (cs ds : List Char) : Prop :=
  ∃ before after, ds = before ++ cs ++ after ∧ (∀ c ∈ before, isBlank c) ∧ ∀ c ∈ after, isBlank c

theorem Padded.refl (cs : List Char) : Padded cs cs := ⟨[], [], by simp, by simp, by simp⟩

theorem Padded.trim_eq {ds : List Char} (h : Padded cs ds) : trim ds = trim cs := by
  obtain ⟨before, after, rfl, hb, ha⟩ := h
  exact trim_padded hb ha

theorem padded_trim (cs : List Char) : Padded (trim cs) cs := by
  refine ⟨cs.takeWhile isBlank, ((cs.dropWhile isBlank).reverse.takeWhile isBlank).reverse, ?_,
    fun c => List.mem_takeWhile_imp, fun c hc => List.mem_takeWhile_imp (List.mem_reverse.mp hc)⟩
  rw [trim, List.append_assoc, ← List.reverse_append, List.takeWhile_append_dropWhile, List.reverse_reverse,
    List.takeWhile_append_dropWhile]

theorem Padded.mem {ds : List Char} (h : Padded cs ds) {c : Char} (hc : isBlank c = false) (hmem : c ∈ ds) :
    c ∈ cs := by
  obtain ⟨before, after, rfl, hb, ha⟩ := h
  rw [List.mem_append, List.mem_append] at hmem
  obtain (hmem | hmem) | hmem := hmem
  · exact absurd (hb c hmem) (by rw [hc]; exact Bool.false_ne_true)
  · exact hmem
  · exact absurd (ha c hmem) (by rw [hc]; exact Bool.false_ne_true)

section Pieces

variable {c : Char} {ws vs : List (List Char)} (hc : isBlank c = false) (h : List.Forall₂ Padded ws vs)
include h

theorem map_trim_padded : vs.map trim = ws.map trim := by
  induction h with
  | nil => rfl
  | cons hw _ ih => rw [List.map_cons, List.map_cons, hw.trim_eq, ih]

theorem padded_ne_nil (hws : ws ≠ []) : vs ≠ [] := by
  cases h with
  | nil => exact absurd rfl hws
  | cons => exact List.cons_ne_nil _ _

include hc

theorem not_mem_padded (hws : ∀ w ∈ ws, c ∉ w) : ∀ v ∈ vs, c ∉ v := by
  induction h with
  | nil => exact List.forall_mem_nil _
  | cons hw _ ih =>
      obtain ⟨hw', hws⟩ := List.forall_mem_cons.mp hws
      exact List.forall_mem_cons.mpr ⟨fun hmem => hw' (hw.mem hc hmem), ih hws⟩

theorem map_trim_pieces (hws : ∀ w ∈ ws, c ∉ w) (hne : ws ≠ []) :
    (pieces (· == c) ([c].intercalate vs)).map trim = ws.map trim := by
  rw [pieces_intercalate (not_mem_padded hc h hws) (padded_ne_nil h hne), map_trim_padded h]

end Pieces

theorem exists_padded {ws : List (List Char)} (c : Char) (hne : ws ≠ []) :
    ∃ vs, List.Forall₂ Padded ws vs ∧ [' ', c, ' '].intercalate ws = [c].intercalate vs := by
  have hblank : ∀ d ∈ [' '], isBlank d := List.forall_mem_singleton.mpr (by decide)
  induction ws with
  | nil => exact absurd rfl hne
  | cons w ws ih =>
      cases ws with
      | nil => exact ⟨[w], .cons (.refl w) .nil, by simp⟩
      | cons w' ws =>
          obtain ⟨vs, hvs, heq⟩ := ih (List.cons_ne_nil w' ws)
          cases hvs with
          | @cons _ v _ vs hv hvs =>
              obtain ⟨before, after, rfl, hb, ha⟩ := hv
              refine ⟨(w ++ [' ']) :: (' ' :: (before ++ w' ++ after)) :: vs, .cons ?_ (.cons ?_ hvs), ?_⟩
              · exact ⟨[], [' '], rfl, by simp, hblank⟩
              · exact ⟨' ' :: before, after, rfl, List.forall_mem_cons.mpr ⟨by decide, hb⟩, ha⟩
              · rw [List.intercalate_cons_cons, heq, List.intercalate_cons_cons, List.intercalate_cons_cons_left]
                simp

end PlayerAnimation.Text
