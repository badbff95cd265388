import PlayerAnimation.Proofs.Game.Step

namespace PlayerAnimation

open Relation (ReflTransGen)

namespace Console

theorem isValue_iff {text : String} : isValue text ↔ ∃ x xs, parseNumbers text = some (x :: xs) := by
  rw [isValue]
  cases parseNumbers text with
  | none => simp
  | some numbers => cases numbers with
    | nil => simp
    | cons x xs => simp

theorem isValue_initial (v : Variable) : isValue v.initial := by
  have hall : ∀ v ∈ Variable.all, isValue v.initial := by decide
  exact hall v v.mem_all

theorem setVariable_value {c c' : Console} {v : Variable} {text : String} {changed : Bool}
    (h : c.setVariable v text = .ok (c', changed)) : isValue text ∧ c' = c.put v (some text) := by
  cases hv : c.value v with
  | none =>
      rw [setVariable, hv] at h
      cases h
  | some current =>
      by_cases htext : isValue text
      · obtain ⟨_, hset⟩ := setVariable_put hv htext
        rw [hset] at h
        cases h
        exact ⟨htext, rfl⟩
      · rw [setVariable, hv] at h
        dsimp only at h
        rw [if_neg htext] at h
        cases h

/-- A console from which every read gives what is written there. -/
structure Usable (c : Console) : Prop where
  uniform : (∀ v, c.isRegistered v = true) ∨ ∀ v, c.isRegistered v = false
  values : ∀ v text, c.value v = some text → isValue text

theorem usable_of_unregistered {c : Console} (h : ∀ v, c.isRegistered v = false) : c.Usable where
  uniform := .inr h
  values v text hv := by
    have hreg := h v
    rw [isRegistered, hv] at hreg
    cases hreg

namespace Usable

variable {c : Console} (h : c.Usable)
include h

theorem registerAll_cases :
    (∀ v, c.isRegistered v = true) ∧ (∃ fault, c.registerAll = (c, some fault)) ∨
      ∃ c', c.registerAll = (c', none) ∧ (∀ v, c.isRegistered v = false) ∧
        ∀ v, c'.value v = some v.initial := by
  cases h.uniform with
  | inl hall =>
      have hne : Variable.all ≠ [] := List.ne_nil_of_mem (Variable.mem_all .version)
      exact .inl ⟨hall, register_registered hne hall⟩
  | inr hnone =>
      obtain ⟨c', hc', hvalue⟩ := registerAll_value hnone
      exact .inr ⟨c', hc', hnone, hvalue⟩

theorem registerAll : c.registerAll.1.Usable := by
  obtain ⟨-, _, hc⟩ | ⟨c', hc, -, hvalue⟩ := h.registerAll_cases
  · rw [hc]
    exact h
  · rw [hc]
    constructor
    · left
      intro v
      rw [isRegistered, hvalue v, Option.isSome_some]
    · intro v text hv
      obtain rfl := Option.some.inj ((hvalue v).symm.trans hv)
      exact isValue_initial v

theorem sets_one {c' : Console} (hset : Sets c c') : c'.Usable := by
  obtain ⟨v, text, changed, hset⟩ := hset
  obtain ⟨htext, rfl⟩ := setVariable_value hset
  constructor
  · simpa only [setVariable_registered hset] using h.uniform
  · intro w other hw
    rw [put] at hw
    dsimp only at hw
    by_cases hwv : w = v
    · rw [if_pos hwv] at hw
      exact Option.some.inj hw ▸ htext
    · rw [if_neg hwv] at hw
      exact h.values w other hw

theorem sets {c' : Console} (hsets : ReflTransGen Sets c c') : c'.Usable := by
  induction hsets with
  | refl => exact h
  | tail _ hset ih => exact ih.sets_one hset

theorem reads {v : Variable} {text : String} (hv : c.value v = some text) :
    ∃ x xs, parseNumbers text = some (x :: xs) ∧ c.numbers v = .ok (x :: xs) ∧ c.single v = .ok x := by
  obtain ⟨x, xs, hx⟩ := isValue_iff.mp (h.values v text hv)
  have hnumbers : c.numbers v = .ok (x :: xs) := by
    rw [numbers, hv]
    dsimp only
    rw [hx, Option.getD_some]
  refine ⟨x, xs, hx, hnumbers, ?_⟩
  rw [single, hnumbers]
  rfl

end Usable

end Console

namespace Game

/-- The console that an operation leaves when it breaks off: variables are registered one by one, and all
other operations that can break off do no more than to read variables. -/
def brokenConsole (g : Game) : Operation → Console
  | .registerAll => g.console.registerAll.1
  | _ => g.console

/-- What is left of a game after an operation. Nothing is known of the data of the players if it broke
off. -/
inductive Leaves (g : Game) (op : Operation) : Game → Prop
  | done {answer g' events} (h : g.step op = .ok (answer, g', events)) : Leaves g op g'
  | broken {fault} (h : g.step op = .error fault) (compat : Compat) (store : Store Float32) :
      Leaves g op ⟨g.brokenConsole op, compat, store⟩

/-- The course of a game through operations that may break off. -/
inductive Course : Game → List Operation → Game → Prop
  | nil {g} : Course g [] g
  | cons {g op k ops g'} (hop : Leaves g op k) (hops : Course k ops g') : Course g (op :: ops) g'

variable {g g' : Game} {op : Operation}

theorem course_of_run {ops : List Operation} {answers : List (Answer × List Event)}
    (h : g.run ops = .ok (answers, g')) : Course g ops g' := by
  induction ops generalizing g answers with
  | nil =>
      cases h
      exact .nil
  | cons op ops ih =>
      obtain ⟨_, _, _, _, hstep, hrest, -⟩ := run_cons.mp h
      exact .cons (.done hstep) (ih hrest)

theorem Course.concat {ops : List Operation} {k : Game} (h : Course g ops k) (hop : Leaves k op g') :
    Course g (ops ++ [op]) g' := by
  induction h with
  | nil => exact .cons hop .nil
  | cons hfirst _ ih => exact .cons hfirst (ih hop)

theorem step_usable (h : Leaves g op g') (hg : g.console.Usable) : g'.console.Usable := by
  cases h with
  | done h =>
      cases step_change h with
      | register hconsole =>
          have hregistered := hg.registerAll
          rw [hconsole] at hregistered
          exact hregistered
      | deregister => exact Console.usable_of_unregistered g.console.isRegistered_deregisterAll
      | configure _ hset => exact hg.sets hset.sets
      | drop | look => exact hg
  | broken =>
      cases op with
      | registerAll => exact hg.registerAll
      | _ => exact hg

theorem course_usable {ops : List Operation} (h : Course g ops g') (hg : g.console.Usable) :
    g'.console.Usable := by
  induction h with
  | nil => exact hg
  | cons hop _ ih => exact ih (step_usable hop hg)

theorem step_registerAll_ok {console : Console} (h : g.console.registerAll = (console, none)) :
    g.step .registerAll = .ok (.done, { g with console }, []) := by
  rw [step, h]
  rfl

theorem step_registerAll_error {console : Console} {fault : Fault}
    (h : g.console.registerAll = (console, some fault)) : g.step .registerAll = .error fault := by
  rw [step, h]
  rfl

theorem run_renew (g : Game) : ∃ answers g', g.run [.deregisterAll, .registerAll] = .ok (answers, g') ∧
    ∀ v, g'.console.value v = some v.initial := by
  obtain ⟨c, hc, hvalue⟩ := Console.registerAll_value g.console.isRegistered_deregisterAll
  let g' : Game := ⟨c, g.compat, g.store⟩
  have hregister : ({ g with console := g.console.deregisterAll } : Game).step .registerAll =
      .ok (.done, g', []) := step_registerAll_ok hc
  have hlast : ({ g with console := g.console.deregisterAll } : Game).run [.registerAll] =
      .ok ([(.done, [])], g') := run_cons.mpr ⟨_, _, _, _, hregister, rfl, rfl⟩
  exact ⟨_, g', run_cons.mpr ⟨_, _, _, _, rfl, hlast, rfl⟩, hvalue⟩

/-- All variables are registered or none is, and every read of one gives what is written there. Registering them
breaks off exactly if they are registered already, and then changes none of them. -/
theorem variables_usable {ops : List Operation} (h : Course (opening .empty) ops g) :
    ((∀ v, g.console.isRegistered v = true) ∨ ∀ v, g.console.isRegistered v = false) ∧
    (∀ v text, g.console.value v = some text →
      ∃ x xs, parseNumbers text = some (x :: xs) ∧ g.console.numbers v = .ok (x :: xs) ∧
        g.console.single v = .ok x) ∧
    (∃ answers g', g.run [.deregisterAll, .registerAll] = .ok (answers, g') ∧
      ∀ v, g'.console.value v = some v.initial) ∧
    (∀ answer g' events, g.step .registerAll = .ok (answer, g', events) →
      ∀ v, g'.console.value v = some v.initial) ∧
    ((∃ fault, g.step .registerAll = .error fault) ↔ ∀ v, g.console.isRegistered v = true) ∧
    ∀ fault, g.step .registerAll = .error fault → g.brokenConsole .registerAll = g.console := by
  have hg : g.console.Usable := course_usable h (Console.usable_of_unregistered fun _ => rfl)
  refine ⟨hg.uniform, fun v text => hg.reads, g.run_renew, ?_, ?_, ?_⟩
  · intro answer g' events hstep
    obtain ⟨-, _, hc⟩ | ⟨c', hc, -, hvalue⟩ := hg.registerAll_cases
    · rw [step_registerAll_error hc] at hstep
      cases hstep
    · rw [step_registerAll_ok hc] at hstep
      cases hstep
      exact hvalue
  · obtain ⟨hall, fault, hc⟩ | ⟨c', hc, hnone, -⟩ := hg.registerAll_cases
    · exact iff_of_true ⟨fault, step_registerAll_error hc⟩ hall
    · apply iff_of_false
      · rintro ⟨fault, hfault⟩
        rw [step_registerAll_ok hc] at hfault
        cases hfault
      · intro hall
        exact Bool.false_ne_true ((hnone .version).symm.trans (hall .version))
  · intro fault hfault
    obtain ⟨-, _, hc⟩ | ⟨c', hc, -, -⟩ := hg.registerAll_cases
    · rw [brokenConsole, hc]
    · rw [step_registerAll_ok hc] at hfault
      cases hfault

section Example

def registeredTwice : List Operation :=
  [.registerAll, .setVariable "PLAYER_DEBUG" " 2 ", .setVariable "player_debug" "two", .registerAll]

theorem variables_usable_registeredTwice : ∃ g, Course (opening .empty) registeredTwice g ∧
    g.console.value .debug = some "2" ∧ (∀ v, g.console.isRegistered v = true) ∧
    ∃ answers g', g.run [.deregisterAll, .registerAll] = .ok (answers, g') ∧
      ∀ v, g'.console.value v = some v.initial := by
  obtain ⟨⟨answers, k⟩, hk⟩ : ∃ p, (opening .empty).run (registeredTwice.take 3) = .ok p := exists_eq_ok (by rfl)
  have hdebug : ((opening .empty).run (registeredTwice.take 3)).map (fun p => p.2.console.value .debug) =
      .ok (some "2") := by
    rfl
  rw [hk] at hdebug
  have hvalue : k.console.value .debug = some "2" := Except.ok.inj hdebug
  have hcourse : Course (opening .empty) (registeredTwice.take 3) k := course_of_run hk
  obtain ⟨huniform, -, -, -, hbreaks, hunchanged⟩ := variables_usable hcourse
  have hall : ∀ v, k.console.isRegistered v = true := by
    apply huniform.resolve_right
    intro hnone
    have hdebug := hnone .debug
    rw [Console.isRegistered, hvalue] at hdebug
    cases hdebug
  obtain ⟨fault, hfault⟩ := hbreaks.mpr hall
  have hsame := hunchanged fault hfault
  have hagain : Course (opening .empty) registeredTwice ⟨k.brokenConsole .registerAll, k.compat, k.store⟩ :=
    hcourse.concat (.broken hfault k.compat k.store)
  refine ⟨_, hagain, ?_, ?_, (variables_usable hagain).2.2.1⟩
  · rw [hsame]
    exact hvalue
  · rw [hsame]
    exact hall

end Example

end Game

end PlayerAnimation
