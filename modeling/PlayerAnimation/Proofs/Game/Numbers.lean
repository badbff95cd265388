import Mathlib
import PlayerAnimation.Proofs.Config.Number
import PlayerAnimation.Proofs.Game.Merge
import PlayerAnimation.Proofs.Number.Plain
import PlayerAnimation.Proofs.Number.Shortest

namespace PlayerAnimation.Game

variable {g : Game} {name : String} {entry : String × ConfigValue} {v : Variable}

theorem isValue_of_refusal? {text : String} (h : g.refusal? entry = some (.invalidValue v text)) :
    Console.isValue text = false := by
  rw [refusal?_eq] at h
  cases haddressee : g.console.addressee entry.1 (entryText entry) with
  | ok w =>
      rw [haddressee] at h
      cases h
  | error e =>
      rw [haddressee] at h
      cases h
      exact Console.isValue_of_addressee haddressee

theorem setEach_last (hgives : g.gives v entry = true) (entries : List (String × ConfigValue)) :
    (g.setEach (entries ++ [entry])).1.console.value v = some (entryText entry) := by
  rw [(setEach_merges g (entries ++ [entry])).value, List.reverse_append, List.reverse_singleton,
    List.singleton_append, List.find?_cons_of_pos hgives]
  rfl

theorem applyConfig_value {config : Config} (hsorted : config.Sorted) (hentry : entry ∈ config.entries)
    (hgives : g.gives v entry = true)
    (hlater : ∀ other ∈ config.entries, g.gives v other = true → other.1 ≤ entry.1) :
    (g.applyConfig config).1.console.value v = some (entryText entry) := by
  have hvalue := (setEach_merges g config.entries).value v
  cases hlast : config.entries.reverse.find? (g.gives v) with
  | none => exact absurd hgives (List.find?_eq_none.mp hlast entry (List.mem_reverse.mpr hentry))
  | some other =>
      obtain ⟨hother, hgives', hothers⟩ := hsorted.last hlast
      have hname : other.1 = entry.1 := le_antisymm (hlater other hother hgives') (hothers entry hentry hgives)
      rw [hlast, hsorted.eq_of_name hentry hother hname] at hvalue
      exact hvalue

/-- A number that was read from a configuration is finite, and its text is a decimal without an exponent that is
read as one number again. A registered variable with its name takes it, until a later entry sets the variable.
-/
theorem config_numbers_accepted (g : Game) {text name : String} {config : Config} {x : Float} {v : Variable}
    (hparse : Config.parse? text = some config) (hentry : (name, .number x) ∈ config.entries)
    (hname : Console.sameName v.name name) (hreg : g.console.isRegistered v = true) :
    x.isFinite = true ∧ ∃ numeral negative digits power, numeral = (ConfigValue.number x).toText ∧
      Shortest.Writes x negative digits power ∧
      numeral.toList = Shortest.signed negative (Shortest.positional digits power) ∧
      Numeral.Plain (Shortest.positional digits power) ∧ Text.words numeral.toList = [numeral.toList] ∧
      parseNumbers numeral =
        some [Numeral.toSingle (.decimal negative (digits * 10 ^ power.toNat) (min power 0))] ∧
      ∃ g' events error, g.applyConfig config = (g', events, error) ∧
        (∀ e, .skipped name e ∉ events) ∧ (∀ w, error ≠ some (.rejected (.invalidValue w numeral))) ∧
        (∀ before after, config.entries = before ++ (name, .number x) :: after →
          (g.setEach (before ++ [(name, .number x)])).1.console.value v = some numeral) ∧
        ((∀ other ∈ config.entries, Console.sameName v.name other.1 → g.refusal? other = none → other.1 ≤ name) →
          g'.console.value v = some numeral) := by
  have hfinite : x.isFinite = true := Config.finite_of_parse? hparse _ hentry
  have hsorted := Config.sorted_of_parse? hparse
  obtain ⟨negative, digits, power, hwrites, htext⟩ := Shortest.text_eq hfinite
  set numeral := (ConfigValue.number x).toText with hnumeral
  have hlist : numeral.toList = Shortest.signed negative (Shortest.positional digits power) :=
    String.toList_ofList.trans htext
  have hread := Shortest.parseNumbers_signed hlist
  have hvalue : Console.isValue numeral = true := by rw [Console.isValue, hread]; rfl
  have hstored : entryText (name, .number x) = numeral := Shortest.trimmed_signed hlist
  have hgives : g.gives v (name, .number x) = true := by
    rw [gives_iff, hstored, Console.addressee_eq_ok_iff]
    exact ⟨hname, hreg, hvalue⟩
  have hmerges := setEach_merges g config.entries
  refine ⟨hfinite, numeral, negative, digits, power, rfl, hwrites, hlist, Shortest.positional_plain digits power, ?_,
    hread, _, _, _, rfl, fun e hskipped => ?_, fun w herror => ?_, fun before after _ => ?_, fun hlater => ?_⟩
  · rw [hlist, (Shortest.positional_plain digits power).words_signed]
  · -- no other entry has the name, so a warning under it would be of this one
    have hwarning : .skipped name e ∈ (g.setEach config.entries).2.1.filter (·.level = .warn) :=
      List.mem_filter.mpr ⟨hskipped, rfl⟩
    rw [hmerges.warnings, List.mem_filterMap] at hwarning
    obtain ⟨other, hother, hrefused⟩ := hwarning
    obtain ⟨e', he', hsame⟩ := Option.map_eq_some_iff.mp hrefused
    obtain ⟨hother', -⟩ := Event.skipped.inj hsame
    obtain rfl := hsorted.eq_of_name hentry hother hother'
    rw [(gives_iff_accepted.mp hgives).2] at he'
    cases he'
  · obtain ⟨e, he, hrejected⟩ := Option.map_eq_some_iff.mp herror
    cases hrejected
    rw [hmerges.error] at he
    obtain ⟨other, -, hrefused⟩ := List.exists_of_findSome?_eq_some he
    rw [isValue_of_refusal? hrefused] at hvalue
    cases hvalue
  · rw [setEach_last hgives, hstored]
  · rw [← hstored]
    exact applyConfig_value hsorted hentry hgives fun other hother hgives' =>
      hlater other hother (gives_iff_accepted.mp hgives').1 (gives_iff_accepted.mp hgives').2

section Example

def written : String := "\x7b\"cvars\": \x7b\"BG_swingspeed\": -25e-4, \"player_debug\": \"x\"\x7d\x7d"

def isNumber (numeral : String) : ConfigValue → Bool
  | .number x => (ConfigValue.number x).toText = numeral
  | .text _ => false

theorem config_numbers_accepted_written : ∃ config x, Config.parse? written = some config ∧
    ("BG_swingspeed", .number x) ∈ config.entries ∧ (ConfigValue.number x).toText = "-0.0025" ∧
    Console.sameName Variable.swingSpeed.name "BG_swingspeed" ∧ initial.console.isRegistered .swingSpeed = true ∧
    ∃ g' events error, initial.applyConfig config = (g', events, error) ∧
      (∀ e, .skipped "BG_swingspeed" e ∉ events) ∧ g'.console.value .swingSpeed = some "-0.0025" := by
  have hread : (Config.parse? written).any fun config =>
      (config.entries.any fun entry => entry.1 = "BG_swingspeed" && isNumber "-0.0025" entry.2) &&
      config.entries.all fun other => Console.sameName Variable.swingSpeed.name other.1 → other.1 = "BG_swingspeed" := by
    decide +kernel
  obtain ⟨config, hparse, hconfig⟩ := (Option.any_eq_true _ _).mp hread
  obtain ⟨hany, hall⟩ := Bool.and_eq_true_iff.mp hconfig
  obtain ⟨⟨name, value⟩, hentry, hvalue⟩ := List.any_eq_true.mp hany
  obtain ⟨hname, hvalue⟩ := Bool.and_eq_true_iff.mp hvalue
  obtain rfl := of_decide_eq_true hname
  have hsame : Console.sameName Variable.swingSpeed.name "BG_swingspeed" := by decide
  have hreg : initial.console.isRegistered .swingSpeed = true := by decide
  cases value with
  | text => cases hvalue
  | number x =>
      have htext := of_decide_eq_true hvalue
      obtain ⟨-, numeral, _, _, _, hnumeral, -, -, -, -, -, g', events, error, happly, hskipped, -, -, hstored⟩ :=
        config_numbers_accepted initial hparse hentry hsame hreg
      refine ⟨config, x, hparse, hentry, htext, hsame, hreg, g', events, error, happly, hskipped, ?_⟩
      rw [hstored fun other hother hother' _ => (of_decide_eq_true (List.all_eq_true.mp hall other hother) hother').le,
        hnumeral, htext]

end Example

end PlayerAnimation.Game
