import PlayerAnimation.Proofs.Config
import PlayerAnimation.Proofs.Game.Setting

namespace PlayerAnimation.Game

section Entry

variable (g : Game)

/-- Why an entry of a configuration sets no variable, as told by setting it alone. -/
def refusal? (entry : String × ConfigValue) : Option SetError :=
  match g.setVariable entry.1 entry.2.toText with
  | .ok _ => none
  | .error e => some e

/-- Whether an entry, set alone, sets the given variable. -/
def gives (v : Variable) (entry : String × ConfigValue) : Bool :=
  Console.sameName v.name entry.1 && (g.refusal? entry).isNone

def entryText (entry : String × ConfigValue) : String := Text.trimmed entry.2.toText

variable {g} {g' : Game} {entry : String × ConfigValue}

theorem refusal?_eq : g.refusal? entry =
    match g.console.addressee entry.1 (entryText entry) with
    | .ok _ => none
    | .error e => some e := by
  rw [refusal?, setVariable_eq, entryText]
  cases g.console.addressee entry.1 (Text.trimmed entry.2.toText) with
  | ok v => rfl
  | error e => rfl

theorem gives_iff {v : Variable} :
    g.gives v entry = true ↔ g.console.addressee entry.1 (entryText entry) = .ok v := by
  rw [gives, Bool.and_eq_true, refusal?_eq]
  constructor
  · rintro ⟨hname, hnone⟩
    cases h : g.console.addressee entry.1 (entryText entry) with
    | ok w => rw [Console.eq_of_sameName hname (Console.addressee_eq_ok_iff.mp h).1]
    | error e =>
        rw [h] at hnone
        cases hnone
  · intro h
    rw [h]
    exact ⟨(Console.addressee_eq_ok_iff.mp h).1, rfl⟩

theorem gives_iff_accepted {v : Variable} :
    g.gives v entry = true ↔ Console.sameName v.name entry.1 = true ∧ g.refusal? entry = none := by
  rw [gives, Bool.and_eq_true, Option.isNone_iff_eq_none]

theorem setOrSkip_gives {v : Variable} (h : g.gives v entry = true) :
    ∃ events, g.setOrSkip entry.1 entry.2.toText = (g.assign v (entryText entry), events, none) ∧
      events.filter (·.level = .warn) = [] := by
  rw [setOrSkip, setVariable_eq, ← entryText, gives_iff.mp h]
  refine ⟨_, rfl, ?_⟩
  split
  · rfl
  · rfl

theorem setOrSkip_refused {e : SetError} (h : g.refusal? entry = some e) :
    g.setOrSkip entry.1 entry.2.toText = (g, [.skipped entry.1 e], some e) := by
  rw [refusal?] at h
  rw [setOrSkip]
  cases hset : g.setVariable entry.1 entry.2.toText with
  | ok result =>
      rw [hset] at h
      cases h
  | error e' =>
      rw [hset] at h
      rw [Option.some.inj h]

theorem refusal?_congr (h : Configured g g') : g'.refusal? = g.refusal? := by
  funext entry
  rw [refusal?_eq, refusal?_eq, Console.addressee_congr h.registered]

theorem gives_congr (h : Configured g g') (v : Variable) : g'.gives v = g.gives v := by
  funext entry
  rw [gives, gives, refusal?_congr h]

theorem refused_or_gives (g : Game) (entry : String × ConfigValue) :
    (∃ e, g.refusal? entry = some e) ∨ ∃ v, g.gives v entry = true := by
  simp only [gives_iff, refusal?_eq]
  cases g.console.addressee entry.1 (entryText entry) with
  | ok v => exact .inr ⟨v, rfl⟩
  | error e => exact .inl ⟨e, rfl⟩

end Entry

/-- What becomes of a game in which entries are set one after another, with what is told and the first error. -/
structure Merges (g : Game) (entries : List (String × ConfigValue)) (result : Game × List Event × Option SetError) :
    Prop where
  value : ∀ v, result.1.console.value v =
    ((entries.reverse.find? (g.gives v)).map entryText).or (g.console.value v)
  compat : result.1.compat = g.compat
  store : result.1.store = g.store
  warnings : result.2.1.filter (·.level = .warn) =
    entries.filterMap fun entry => (g.refusal? entry).map (.skipped entry.1)
  error : result.2.2 = entries.findSome? g.refusal?

variable {g : Game} {entry : String × ConfigValue} {entries : List (String × ConfigValue)}

theorem gives_of_refused {e : SetError} (h : g.refusal? entry = some e) (v : Variable) : g.gives v entry = false := by
  rw [gives, h, Option.isNone_some, Bool.and_false]

theorem gives_unique {v w : Variable} (hv : g.gives v entry = true) (hw : g.gives w entry = true) : w = v := by
  rw [gives_iff] at hv hw
  exact Except.ok.inj (hw.symm.trans hv)

theorem merges_refused {e : SetError} (h : g.refusal? entry = some e)
    (hrest : Merges g entries (g.setEach entries)) : Merges g (entry :: entries) (g.setEach (entry :: entries)) := by
  rw [setEach, setOrSkip_refused h]
  refine ⟨fun v => ?_, hrest.compat, hrest.store, ?_, ?_⟩
  · rw [List.reverse_cons, List.find?_append, List.find?_singleton, gives_of_refused h v,
      if_neg Bool.false_ne_true, Option.or_none]
    exact hrest.value v
  · rw [List.filterMap_cons, h]
    exact congrArg _ hrest.warnings
  · rw [List.findSome?_cons, h]
    rfl

theorem merges_gives {v : Variable} (h : g.gives v entry = true)
    (hrest : Merges (g.assign v (entryText entry)) entries ((g.assign v (entryText entry)).setEach entries)) :
    Merges g (entry :: entries) (g.setEach (entry :: entries)) := by
  obtain ⟨events, hset, hquiet⟩ := setOrSkip_gives h
  have hconfigured := g.setOrSkip_configured entry.1 entry.2.toText
  rw [hset] at hconfigured
  obtain ⟨hvalue, hcompat, hstore, hwarnings, herror⟩ := hrest
  have haccepted := (gives_iff_accepted.mp h).2
  rw [refusal?_congr hconfigured] at hwarnings herror
  rw [setEach, hset]
  refine ⟨fun w => ?_, hcompat, hstore, ?_, ?_⟩
  · dsimp only
    rw [hvalue, gives_congr hconfigured, List.reverse_cons, List.find?_append, List.find?_singleton]
    by_cases hw : w = v
    · have hput : (g.assign v (entryText entry)).console.value v = some (entryText entry) := if_pos rfl
      rw [hw, hput, if_pos h]
      cases entries.reverse.find? (g.gives v) with
      | none => rfl
      | some later => rfl
    · rw [assign_other hw, if_neg fun hw' => hw (gives_unique h hw'), Option.or_none]
  · rw [List.filterMap_cons, haccepted]
    dsimp only
    rw [List.filter_append, hquiet]
    exact hwarnings
  · rw [List.findSome?_cons, haccepted]
    exact herror

theorem setEach_merges (g : Game) (entries : List (String × ConfigValue)) :
    Merges g entries (g.setEach entries) := by
  -- The console changes on the way, so the state that the entries start from changes with it.
  induction entries generalizing g with
  | nil => exact ⟨fun _ => rfl, rfl, rfl, rfl, rfl⟩
  | cons entry entries ih =>
      obtain ⟨e, he⟩ | ⟨v, hv⟩ := refused_or_gives g entry
      · exact merges_refused he (ih g)
      · exact merges_gives hv (ih _)

theorem game_ext {g' : Game} (hvalue : ∀ v, g'.console.value v = g.console.value v)
    (hcompat : g'.compat = g.compat) (hstore : g'.store = g.store) : g' = g := by
  obtain ⟨⟨value⟩, compat, store⟩ := g
  obtain ⟨⟨value'⟩, compat', store'⟩ := g'
  dsimp only at hvalue hcompat hstore
  rw [funext hvalue, hcompat, hstore]

theorem setEach_filter (g : Game) (entries : List (String × ConfigValue)) :
    (g.setEach (entries.filter fun entry => g.refusal? entry = none)).1 = (g.setEach entries).1 := by
  have hall := setEach_merges g entries
  have hkept := setEach_merges g (entries.filter fun entry => g.refusal? entry = none)
  apply game_ext
  · intro v
    have hgives : (fun entry => decide (decide (g.refusal? entry = none) = true ∧ g.gives v entry = true)) =
        g.gives v := by
      funext entry
      rw [Bool.eq_iff_iff, decide_eq_true_iff, decide_eq_true_iff, and_iff_right_iff_imp, gives_iff_accepted]
      exact And.right
    rw [hall.value, hkept.value, ← List.filter_reverse, List.find?_filter, hgives]
  · rw [hall.compat, hkept.compat]
  · rw [hall.store, hkept.store]

theorem setEach_again (g : Game) (entries : List (String × ConfigValue)) :
    ((g.setEach entries).1.setEach entries).1 = (g.setEach entries).1 ∧
      ((g.setEach entries).1.setEach entries).2.2 = (g.setEach entries).2.2 := by
  have hconfigured := g.setEach_configured entries
  have hfirst := setEach_merges g entries
  have hagain := setEach_merges (g.setEach entries).1 entries
  constructor
  · apply game_ext
    · intro v
      rw [hagain.value, hfirst.value, gives_congr hconfigured, ← Option.or_assoc, Option.or_self]
    · exact hagain.compat
    · exact hagain.store
  · rw [hagain.error, hfirst.error, refusal?_congr hconfigured]

/-- Of the entries of a configuration, the last one that sets a variable counts. An entry that sets none is told
of in its turn and is otherwise as if it were not there; the first of these is the result. -/
theorem applyConfig_merges (g : Game) {config : Config} (hsorted : config.Sorted) :
    ∃ g' events error, g.applyConfig config = (g', events, error) ∧
      (∀ v : Variable,
        (∃ entry ∈ config.entries, (Console.sameName v.name entry.1 ∧ g.refusal? entry = none) ∧
          (∀ other ∈ config.entries, Console.sameName v.name other.1 ∧ g.refusal? other = none →
            other.1 ≤ entry.1) ∧
          g'.console.value v = some (Text.trimmed entry.2.toText)) ∨
        (∀ entry ∈ config.entries, ¬ (Console.sameName v.name entry.1 ∧ g.refusal? entry = none)) ∧
          g'.console.value v = g.console.value v) ∧
      g'.compat = g.compat ∧ g'.store = g.store ∧
      (g.applyConfig ⟨config.entries.filter fun entry => g.refusal? entry = none⟩).1 = g' ∧
      events.filter (·.level = .warn) =
        config.entries.filterMap (fun entry => (g.refusal? entry).map (.skipped entry.1)) ∧
      error = (config.entries.findSome? g.refusal?).map .rejected ∧
      (error = none ↔ ∀ entry ∈ config.entries, g.refusal? entry = none) ∧
      (g'.applyConfig config).1 = g' ∧ (g'.applyConfig config).2.2 = error ∧
      (∀ text, Config.parse? text = none → (g.configure text).1 = g) ∧
      ∀ path file, (∀ text, file.bind String.fromUTF8? = some text → Config.parse? text = none) →
        (g.loadConfig path file).1 = g := by
  have hmerges := setEach_merges g config.entries
  obtain ⟨hagain, herror⟩ := setEach_again g config.entries
  refine ⟨_, _, _, rfl, fun v => ?_, hmerges.compat, hmerges.store, setEach_filter g config.entries,
    hmerges.warnings, congrArg (Option.map ConfigError.rejected) hmerges.error, ?_, hagain,
    congrArg (Option.map ConfigError.rejected) herror, ?_, ?_⟩
  · have hvalue := hmerges.value v
    simp only [← gives_iff_accepted]
    cases hlast : config.entries.reverse.find? (g.gives v) with
    | none =>
        rw [hlast] at hvalue
        rw [List.find?_eq_none] at hlast
        exact .inr ⟨fun entry hentry => hlast entry (List.mem_reverse.mpr hentry), hvalue⟩
    | some entry =>
        rw [hlast] at hvalue
        obtain ⟨hentry, hgives, hothers⟩ := hsorted.last hlast
        exact .inl ⟨entry, hentry, hgives, hothers, hvalue⟩
  · rw [Option.map_eq_none_iff, hmerges.error, List.findSome?_eq_none_iff]
  · intro text htext
    rw [configure, htext]
  · intro path file hfile
    rw [loadConfig]
    split
    · rfl
    · next text htext =>
        rw [configure, hfile text htext]

section Example

def overlapping : Config :=
  ⟨[("BG_SWINGSPEED", .text "0.5"), ("Bg_SwingSpeed", .text " 0.7 "), ("bg_swingSpeed", .text "fast"),
    ("cg_fov", .text "90")]⟩

theorem applyConfig_merges_overlapping : overlapping.Sorted ∧
    ∃ g' events, initial.applyConfig overlapping =
        (g', events, some (.rejected (.invalidValue .swingSpeed "fast"))) ∧
      g'.console.value .swingSpeed = some "0.7" ∧
      events.filter (·.level = .warn) =
        [.skipped "bg_swingSpeed" (.invalidValue .swingSpeed "fast"), .skipped "cg_fov" (.unknown "cg_fov")] ∧
      (g'.applyConfig overlapping).1 = g' := by
  have hsorted : overlapping.Sorted := by
    rw [Config.Sorted, overlapping]
    decide
  obtain ⟨g', events, error, hg', hvalue, -, -, -, hwarnings, herror, -, hagain, -⟩ :=
    applyConfig_merges initial hsorted
  have hfirst : error = some (.rejected (.invalidValue .swingSpeed "fast")) := herror.trans (by decide)
  have hlast : (initial.applyConfig overlapping).1.console.value .swingSpeed = some "0.7" := by decide
  rw [hg'] at hlast
  exact ⟨hsorted, g', events, hfirst ▸ hg', hlast, hwarnings.trans (by decide), hagain⟩

end Example

end PlayerAnimation.Game
