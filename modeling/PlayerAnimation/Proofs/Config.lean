import Mathlib.Data.List.Nodup
import Mathlib.Data.String.Basic
import PlayerAnimation.Config

namespace PlayerAnimation.Config

def Sorted (config : Config) : Prop := config.entries.Pairwise fun a b => a.1 < b.1

theorem Sorted.last {config : Config} (h : config.Sorted) {p : String × ConfigValue → Bool}
    {entry : String × ConfigValue} (hlast : config.entries.reverse.find? p = some entry) :
    entry ∈ config.entries ∧ p entry = true ∧ ∀ other ∈ config.entries, p other = true → other.1 ≤ entry.1 := by
  obtain ⟨hp, later, earlier, heq, hlater⟩ := List.find?_eq_some_iff_append.mp hlast
  rw [List.reverse_eq_iff, List.reverse_append, List.reverse_cons, List.append_assoc] at heq
  rw [Sorted, heq, List.pairwise_append] at h
  rw [heq]
  refine ⟨by simp, hp, fun other hother hpother => ?_⟩
  obtain hother | hother := List.mem_append.mp hother
  · exact (h.2.2 other hother entry (by simp)).le
  obtain rfl | hother := List.mem_cons.mp hother
  · exact le_rfl
  · have hnot := hlater other (List.mem_reverse.mp hother)
    rw [hpother] at hnot
    cases hnot

theorem Sorted.eq_of_name {config : Config} (h : config.Sorted) {entry other : String × ConfigValue}
    (hentry : entry ∈ config.entries) (hother : other ∈ config.entries) (hname : other.1 = entry.1) :
    other = entry := by
  have hnodup : (config.entries.map Prod.fst).Nodup := List.pairwise_map.mpr (h.imp ne_of_lt)
  exact List.inj_on_of_nodup_map hnodup hother hentry hname

section Insert

variable {name : String} {value : ConfigValue} {entries : List (String × ConfigValue)}

theorem mem_insert {entry : String × ConfigValue} (h : entry ∈ insert name value entries) :
    entry = (name, value) ∨ entry ∈ entries := by
  induction entries with
  | nil => exact .inl (List.mem_singleton.mp h)
  | cons first rest ih =>
      rw [insert] at h
      split at h
      · exact List.mem_cons.mp h
      split at h
      · exact (List.mem_cons.mp h).imp_right (List.mem_cons_of_mem first)
      · obtain rfl | h := List.mem_cons.mp h
        · exact .inr List.mem_cons_self
        · exact (ih h).imp_right (List.mem_cons_of_mem first)

theorem pairwise_insert (h : entries.Pairwise fun a b => a.1 < b.1) :
    (insert name value entries).Pairwise fun a b => a.1 < b.1 := by
  induction entries with
  | nil => exact List.pairwise_singleton _ _
  | cons first rest ih =>
      obtain ⟨hfirst, hrest⟩ := List.pairwise_cons.mp h
      rw [insert]
      split
      · next hbefore =>
          have hall : ∀ entry ∈ first :: rest, name < entry.1 :=
            List.forall_mem_cons.mpr ⟨hbefore, fun entry hentry => hbefore.trans (hfirst entry hentry)⟩
          exact List.pairwise_cons.mpr ⟨hall, h⟩
      split
      · next hsame => exact List.pairwise_cons.mpr ⟨fun entry hentry => hsame ▸ hfirst entry hentry, hrest⟩
      · next hbefore hsame =>
          have hafter : first.1 < name := lt_of_le_of_ne (not_lt.mp hbefore) (Ne.symm hsame)
          refine List.pairwise_cons.mpr ⟨fun entry hentry => ?_, ih hrest⟩
          obtain rfl | hentry := mem_insert hentry
          · exact hafter
          · exact hfirst entry hentry

end Insert

variable (entries : List (String × ConfigValue))

theorem sorted_ofEntries : (ofEntries entries).Sorted :=
  List.foldlRecOn entries _ List.Pairwise.nil fun _ h _ _ => pairwise_insert h

theorem ofEntries_subset : (ofEntries entries).entries ⊆ entries := by
  apply List.foldlRecOn (motive := fun sorted => sorted ⊆ entries) entries
  · exact List.nil_subset entries
  · intro sorted h first hfirst entry hentry
    obtain rfl | hentry := mem_insert hentry
    · exact hfirst
    · exact h hentry

theorem parse?_eq_some {text : String} {config : Config} (h : parse? text = some config) :
    ∃ entries rest, Reader.file? text.toList = some (entries, rest) ∧ config = ofEntries entries := by
  obtain ⟨⟨entries, rest⟩, hfile, h⟩ := Option.bind_eq_some_iff.mp h
  dsimp only at h
  split at h
  · exact ⟨entries, rest, hfile, (Option.some.inj h).symm⟩
  · cases h

theorem sorted_of_parse? {text : String} {config : Config} (h : parse? text = some config) : config.Sorted := by
  obtain ⟨entries, _, -, rfl⟩ := parse?_eq_some h
  exact sorted_ofEntries entries

end PlayerAnimation.Config
