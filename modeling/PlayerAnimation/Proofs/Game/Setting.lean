import PlayerAnimation.Proofs.Game.Variables
import PlayerAnimation.Proofs.Number.Lists

namespace PlayerAnimation

namespace Console

variable {c c' : Console} {name other text : String} {v w : Variable}

theorem sameName_iff : sameName name other ↔ name.toList.map Char.toLower = other.toList.map Char.toLower :=
  beq_iff_eq

theorem eq_of_sameName (hv : sameName v.name name) (hw : sameName w.name name) : w = v := by
  have hunique : ∀ v ∈ Variable.all, ∀ w ∈ Variable.all, sameName v.name w.name → w = v := by decide
  rw [sameName_iff] at hv hw
  exact hunique v v.mem_all w w.mem_all (sameName_iff.mpr (hv.trans hw.symm))

theorem find?_eq_none_iff : find? name = none ↔ ∀ v : Variable, ¬ sameName v.name name := by
  rw [find?, List.find?_eq_none]
  exact ⟨fun h v => h v v.mem_all, fun h v _ => h v⟩

theorem find?_eq_some_iff : find? name = some v ↔ sameName v.name name := by
  have hfound {w : Variable} (h : find? name = some w) : sameName w.name name := by
    have hsame := List.find?_some h
    exact hsame
  refine ⟨hfound, fun hv => ?_⟩
  cases hw : find? name with
  | none => exact absurd hv (find?_eq_none_iff.mp hw v)
  | some w => rw [eq_of_sameName hv (hfound hw)]

theorem sameName_congr (h : sameName name other) (v : Variable) : sameName v.name other ↔ sameName v.name name := by
  rw [sameName_iff] at h
  rw [sameName_iff, sameName_iff, h]

theorem isValue_trimmed_iff : isValue (Text.trimmed text) ↔ ∃ x xs, parseNumbers text = some (x :: xs) := by
  rw [isValue_iff, parseNumbers_trimmed]

theorem not_isValue_trimmed_iff :
    ¬ isValue (Text.trimmed text) ↔ parseNumbers text = none ∨ parseNumbers text = some [] := by
  rw [isValue_trimmed_iff]
  cases parseNumbers text with
  | none => simp
  | some numbers => cases numbers with
    | nil => simp
    | cons x xs => simp

/-- The variable that a name and a text set, or why they set none. -/
def addressee (c : Console) (name text : String) : Except SetError Variable :=
  match find? name with
  | none => .error (.unknown name)
  | some v =>
      if c.isRegistered v = false then .error (.notRegistered v)
      else if isValue text then .ok v
      else .error (.invalidValue v text)

theorem addressee_unknown (h : ∀ v : Variable, ¬ sameName v.name name) (text : String) :
    c.addressee name text = .error (.unknown name) := by
  rw [addressee, find?_eq_none_iff.mpr h]

theorem addressee_of_sameName (h : sameName v.name name) (text : String) :
    c.addressee name text =
      if c.isRegistered v = false then .error (.notRegistered v)
      else if isValue text then .ok v
      else .error (.invalidValue v text) := by
  rw [addressee, find?_eq_some_iff.mpr h]

theorem addressee_eq_ok_iff :
    c.addressee name text = .ok v ↔ sameName v.name name ∧ c.isRegistered v = true ∧ isValue text = true := by
  constructor
  · intro h
    rw [addressee] at h
    split at h
    · cases h
    · next w hw =>
        split at h
        · cases h
        · next hreg =>
            split at h
            · next htext =>
                cases h
                exact ⟨find?_eq_some_iff.mp hw, Bool.not_eq_false _ ▸ hreg, htext⟩
            · cases h
  · rintro ⟨hname, hreg, htext⟩
    rw [addressee_of_sameName hname, hreg, if_neg (by decide), if_pos htext]

theorem isValue_of_addressee {value : String} (h : c.addressee name text = .error (.invalidValue v value)) :
    isValue value = false := by
  rw [addressee] at h
  split at h
  · cases h
  · split at h
    · cases h
    · split at h
      · cases h
      · next hvalue =>
          cases h
          exact Bool.eq_false_iff.mpr hvalue

theorem addressee_congr (h : ∀ v, c'.isRegistered v = c.isRegistered v) (name text : String) :
    c'.addressee name text = c.addressee name text := by
  simp only [addressee, h]

end Console

namespace Game

def assign (g : Game) (v : Variable) (text : String) : Game := { g with console := g.console.put v (some text) }

variable (g : Game)

theorem setVariable_eq (name value : String) :
    g.setVariable name value = (g.console.addressee name (Text.trimmed value)).map fun v =>
      (g.assign v (Text.trimmed value),
        if g.console.value v = some (Text.trimmed value) then [] else [.variableSet v (Text.trimmed value)]) := by
  rw [setVariable, Console.addressee]
  cases Console.find? name with
  | none => rfl
  | some v =>
      dsimp only
      generalize Text.trimmed value = text
      rw [Console.setVariable]
      cases hv : g.console.value v with
      | none =>
          have hreg : g.console.isRegistered v = false := by rw [Console.isRegistered, hv, Option.isSome_none]
          rw [if_pos hreg]
          rfl
      | some current =>
          have hreg : ¬ g.console.isRegistered v = false := by
            rw [Console.isRegistered, hv, Option.isSome_some]
            decide
          rw [if_neg hreg]
          dsimp only
          by_cases htext : Console.isValue text
          · rw [if_pos htext, if_pos htext]
            by_cases hsame : current = text
            · rw [if_pos hsame, Except.map, hv, if_pos (congrArg some hsame), assign,
                Console.put_value (hsame ▸ hv)]
              rfl
            · rw [if_neg hsame, Except.map, hv, if_neg fun h => hsame (Option.some.inj h)]
              rfl
          · rw [if_neg htext, if_neg htext]
            rfl

theorem step_setVariable (name value : String) :
    g.step (.setVariable name value) =
      match g.console.addressee name (Text.trimmed value) with
      | .ok v => .ok (.done, g.assign v (Text.trimmed value),
          if g.console.value v = some (Text.trimmed value) then []
          else [.variableSet v (Text.trimmed value)])
      | .error e => .ok (.setFailed e, g, []) := by
  rw [step, setVariable_eq]
  cases g.console.addressee name (Text.trimmed value) with
  | ok v => rfl
  | error e => rfl

variable {g}

theorem assign_reads {v : Variable} {text : String} {x : Float32} {xs : List Float32}
    (h : parseNumbers text = some (x :: xs)) :
    (g.assign v text).console.numbers v = .ok (x :: xs) ∧ (g.assign v text).console.single v = .ok x ∧
      (g.assign v text).console.vec3 v = .ok ⟨x, xs[0]?.getD 0, xs[1]?.getD 0⟩ := by
  have hnumbers : (g.assign v text).console.numbers v = .ok (x :: xs) := by
    rw [Console.numbers, assign, Console.put]
    dsimp only
    rw [if_pos rfl]
    dsimp only
    rw [h, Option.getD_some]
  refine ⟨hnumbers, ?_, ?_⟩
  · rw [Console.single, hnumbers]
    rfl
  · rw [Console.vec3, hnumbers]
    rfl

theorem assign_other {v w : Variable} (h : w ≠ v) (text : String) :
    (g.assign v text).console.value w = g.console.value w := if_neg h

variable (g)

theorem step_setVariable_congr {name other : String} {v : Variable} (hv : Console.sameName v.name name)
    (h : Console.sameName name other) (value : String) :
    g.step (.setVariable other value) = g.step (.setVariable name value) := by
  rw [step_setVariable, step_setVariable, Console.addressee_of_sameName hv,
    Console.addressee_of_sameName ((Console.sameName_congr h v).mpr hv)]

/-- Setting a variable has four answers, each exactly in its case. A variable that is set reads as the numbers
of the text, and nothing else has changed; after an error nothing has. -/
theorem setVariable_exact (name value : String) :
    ∃ answer g' events, g.step (.setVariable name value) = .ok (answer, g', events) ∧
      (answer = .setFailed (.unknown name) ↔ ∀ v : Variable, ¬ Console.sameName v.name name) ∧
      (∀ v : Variable, Console.sameName v.name name →
        (answer = .setFailed (.notRegistered v) ↔ g.console.isRegistered v = false) ∧
        (answer = .setFailed (.invalidValue v (Text.trimmed value)) ↔
          g.console.isRegistered v = true ∧ (parseNumbers value = none ∨ parseNumbers value = some [])) ∧
        (answer = .done ↔
          g.console.isRegistered v = true ∧ ∃ x xs, parseNumbers value = some (x :: xs))) ∧
      (answer ≠ .done → g' = g) ∧
      (answer = .done → ∃ v x xs, (∀ w : Variable, Console.sameName w.name name ↔ w = v) ∧
        parseNumbers value = some (x :: xs) ∧ g'.console.numbers v = .ok (x :: xs) ∧
        g'.console.single v = .ok x ∧ g'.console.vec3 v = .ok ⟨x, xs[0]?.getD 0, xs[1]?.getD 0⟩ ∧
        (∀ w, w ≠ v → g'.console.value w = g.console.value w) ∧ g'.compat = g.compat ∧ g'.store = g.store) ∧
      ∀ other, Console.sameName name other →
        (answer = .setFailed (.unknown name) →
          g.step (.setVariable other value) = .ok (.setFailed (.unknown other), g, [])) ∧
        (answer ≠ .setFailed (.unknown name) →
          g.step (.setVariable other value) = g.step (.setVariable name value)) := by
  by_cases hname : ∃ v : Variable, Console.sameName v.name name
  · obtain ⟨v, hv⟩ := hname
    have hunique (w : Variable) : Console.sameName w.name name ↔ w = v :=
      ⟨Console.eq_of_sameName hv, fun h => h ▸ hv⟩
    have hknown : ¬ ∀ v : Variable, ¬ Console.sameName v.name name := fun h => h v hv
    have hstep := g.step_setVariable name value
    rw [Console.addressee_of_sameName hv] at hstep
    cases hreg : g.console.isRegistered v with
    | false =>
        rw [if_pos hreg] at hstep
        refine ⟨_, g, _, hstep, iff_of_false (by simp) hknown, fun w hw => ?_, fun _ => rfl, by simp,
          fun other h => ⟨by simp, fun _ => g.step_setVariable_congr hv h value⟩⟩
        obtain rfl := (hunique w).mp hw
        simp [hreg]
    | true =>
        rw [if_neg (by rw [hreg]; decide)] at hstep
        by_cases htext : Console.isValue (Text.trimmed value)
        · rw [if_pos htext] at hstep
          obtain ⟨x, xs, hx⟩ := Console.isValue_trimmed_iff.mp htext
          refine ⟨_, _, _, hstep, iff_of_false (by simp) hknown, fun w hw => ?_, by simp, fun _ => ?_,
            fun other h => ⟨by simp, fun _ => g.step_setVariable_congr hv h value⟩⟩
          · obtain rfl := (hunique w).mp hw
            simp [hreg, hx]
          · obtain ⟨hnumbers, hsingle, hvec3⟩ :=
              assign_reads (g := g) (v := v) ((parseNumbers_trimmed value).trans hx)
            exact ⟨v, x, xs, hunique, hx, hnumbers, hsingle, hvec3, fun w hw => assign_other hw _, rfl, rfl⟩
        · rw [if_neg htext] at hstep
          have hinvalid := Console.not_isValue_trimmed_iff.mp htext
          refine ⟨_, g, _, hstep, iff_of_false (by simp) hknown, fun w hw => ?_, fun _ => rfl, by simp,
            fun other h => ⟨by simp, fun _ => g.step_setVariable_congr hv h value⟩⟩
          obtain rfl := (hunique w).mp hw
          have hnone : ¬ ∃ x xs, parseNumbers value = some (x :: xs) :=
            fun h => htext (Console.isValue_trimmed_iff.mpr h)
          simp [hreg, hinvalid, hnone]
  · rw [not_exists] at hname
    have hstep {other : String} (h : ∀ v : Variable, ¬ Console.sameName v.name other) :
        g.step (.setVariable other value) = .ok (.setFailed (.unknown other), g, []) := by
      rw [step_setVariable, Console.addressee_unknown h]
    refine ⟨_, g, _, hstep hname, iff_of_true rfl hname, fun v hv => absurd hv (hname v), fun _ => rfl, by simp,
      fun other h => ⟨fun _ => hstep fun v hv => hname v ((Console.sameName_congr h v).mp hv), by simp⟩⟩

end Game

end PlayerAnimation
