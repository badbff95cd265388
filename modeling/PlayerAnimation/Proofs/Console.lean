import Mathlib.Logic.Relation
import PlayerAnimation.Console
import PlayerAnimation.Proofs.Fault

namespace PlayerAnimation.Console

open Relation (ReflTransGen)

theorem isRegistered_put (c : Console) (v w : Variable) (text : Option String) :
    (c.put v text).isRegistered w = if w = v then text.isSome else c.isRegistered w := by
  by_cases h : w = v
  · simp [isRegistered, put, h]
  · simp [isRegistered, put, h]

theorem setVariable_registered {c c' : Console} {v : Variable} {text : String} {changed : Bool}
    (h : c.setVariable v text = .ok (c', changed)) (w : Variable) : c'.isRegistered w = c.isRegistered w := by
  rw [setVariable] at h
  split at h
  · cases h
  · next current hv =>
      split at h
      · split at h
        · cases h
          rfl
        · cases h
          rw [isRegistered_put]
          split
          · next hw =>
              rw [hw, isRegistered, hv]
              rfl
          · rfl
      · cases h

def Sets (c c' : Console) : Prop := ∃ v text changed, c.setVariable v text = .ok (c', changed)

theorem sets_registered {c c' : Console} (h : ReflTransGen Sets c c') (v : Variable) :
    c'.isRegistered v = c.isRegistered v := by
  induction h with
  | refl => rfl
  | tail _ hset ih =>
      obtain ⟨_, _, _, hset⟩ := hset
      exact (setVariable_registered hset v).trans ih

theorem put_value {c : Console} {v : Variable} {text : String} (h : c.value v = some text) :
    c.put v (some text) = c := by
  rw [put]
  congr
  funext w
  split
  · next hw => rw [hw, h]
  · rfl

theorem setVariable_put {c : Console} {v : Variable} {current text : String} (hv : c.value v = some current)
    (htext : isValue text) : ∃ changed, c.setVariable v text = .ok (c.put v (some text), changed) := by
  rw [setVariable, hv]
  dsimp only
  rw [if_pos htext]
  split
  · next hsame =>
      rw [hsame] at hv
      rw [put_value hv]
      exact ⟨false, rfl⟩
  · exact ⟨true, rfl⟩

theorem register_registered {vs : List Variable} (hvs : vs ≠ []) {c : Console}
    (h : ∀ v, c.isRegistered v = true) : ∃ fault, register vs c = (c, some fault) := by
  cases vs with
  | nil => exact absurd rfl hvs
  | cons v vs =>
      rw [register, h v, if_pos rfl]
      exact ⟨_, rfl⟩

theorem register_value {vs : List Variable} (hnodup : vs.Nodup) {c : Console}
    (h : ∀ v ∈ vs, c.isRegistered v = false) :
    ∃ c', register vs c = (c', none) ∧ ∀ v, c'.value v = if v ∈ vs then some v.initial else c.value v := by
  induction vs generalizing c with
  | nil => exact ⟨c, rfl, fun v => by simp⟩
  | cons v vs ih =>
      obtain ⟨hv, hvs⟩ := List.forall_mem_cons.mp h
      obtain ⟨hfresh, hnodup⟩ := List.nodup_cons.mp hnodup
      have hlater : ∀ w ∈ vs, (c.put v (some v.initial)).isRegistered w = false := by
        intro w hw
        have hne : w ≠ v := by
          rintro rfl
          exact hfresh hw
        rw [isRegistered_put, if_neg hne]
        exact hvs w hw
      obtain ⟨c', hrest, hc'⟩ := ih hnodup hlater
      refine ⟨c', ?_, ?_⟩
      · rw [register, hv, if_neg Bool.false_ne_true]
        exact hrest
      · intro w
        rw [hc']
        by_cases hw : w = v
        · simp [put, hw]
        · simp [put, hw]

theorem registerAll_value {c : Console} (h : ∀ v, c.isRegistered v = false) :
    ∃ c', c.registerAll = (c', none) ∧ ∀ v, c'.value v = some v.initial := by
  have hnodup : Variable.all.Nodup := by decide
  obtain ⟨c', hc', hall⟩ := register_value hnodup fun v _ => h v
  refine ⟨c', hc', fun v => ?_⟩
  rw [hall, if_pos v.mem_all]

theorem registerAll_ok {c : Console} (h : ∀ v, c.isRegistered v = false) :
    ∃ c', c.registerAll = (c', none) ∧ ∀ v, c'.isRegistered v = true := by
  obtain ⟨c', hc', hall⟩ := registerAll_value h
  exact ⟨c', hc', fun v => by rw [isRegistered, hall, Option.isSome_some]⟩

theorem isRegistered_registerAll_empty (v : Variable) : (registerAll .empty).1.isRegistered v = true := by
  have hempty : ∀ w, empty.isRegistered w = false := fun _ => rfl
  obtain ⟨c, hc, hall⟩ := registerAll_ok hempty
  rw [hc]
  exact hall v

theorem isRegistered_deregister (vs : List Variable) (c : Console) (w : Variable) :
    (vs.foldl (fun c v => c.put v none) c).isRegistered w = (c.isRegistered w && !decide (w ∈ vs)) := by
  induction vs generalizing c with
  | nil => simp
  | cons v vs ih =>
      rw [List.foldl_cons, ih, isRegistered_put]
      by_cases hw : w = v
      · simp [hw]
      · simp [hw]

theorem isRegistered_deregisterAll (c : Console) (v : Variable) : c.deregisterAll.isRegistered v = false := by
  rw [deregisterAll, isRegistered_deregister, decide_eq_true v.mem_all, Bool.not_true, Bool.and_false]

section Read

variable {c : Console} {v : Variable}

theorem numbers_ok (h : c.isRegistered v) : ∃ numbers, c.numbers v = .ok numbers := by
  rw [numbers]
  cases hv : c.value v with
  | none =>
      rw [isRegistered, hv] at h
      cases h
  | some text => exact ⟨_, rfl⟩

theorem numbers_error (h : c.isRegistered v = false) : c.numbers v = .error (.notRegistered v.name) := by
  rw [isRegistered, Option.isSome_eq_false_iff, Option.isNone_iff_eq_none] at h
  rw [numbers, h]

theorem single_ok (h : c.isRegistered v) : ∃ x, c.single v = .ok x := by
  obtain ⟨numbers, hnumbers⟩ := numbers_ok h
  exact ⟨_, by rw [single, hnumbers]; rfl⟩

theorem isSet_ok (h : c.isRegistered v) : ∃ b, c.isSet v = .ok b := by
  obtain ⟨x, hx⟩ := single_ok h
  exact ⟨_, by rw [isSet, hx]; rfl⟩

theorem isSet_error (h : c.isRegistered v = false) : c.isSet v = .error (.notRegistered v.name) := by
  rw [isSet, single, numbers_error h]
  rfl

theorem int_ok (h : c.isRegistered v) : ∃ n, c.int v = .ok n := by
  obtain ⟨x, hx⟩ := single_ok h
  exact ⟨_, by rw [int, hx]; rfl⟩

theorem vec3_ok (h : c.isRegistered v) : ∃ x, c.vec3 v = .ok x := by
  obtain ⟨numbers, hnumbers⟩ := numbers_ok h
  exact ⟨_, by rw [vec3, hnumbers]; rfl⟩

end Read

end PlayerAnimation.Console

namespace PlayerAnimation

def Variable.tunes : Variable → Bool
  | offsetEnable | offset _ => true
  | _ => false

/-- Two consoles that differ in the values of tuning variables alone. -/
structure Console.Alike (c c' : Console) : Prop where
  value : ∀ v, v.tunes = false → c.value v = c'.value v
  registered : ∀ v, c.isRegistered v = c'.isRegistered v

namespace Console.Alike

variable {c c' : Console} (h : Alike c c')
include h

theorem put (v : Variable) (text : Option String) : Alike (c.put v text) (c'.put v text) := by
  constructor
  · intro w hw
    by_cases hv : w = v
    · simp [Console.put, hv]
    · simp [Console.put, hv, h.value w hw]
  · intro w
    rw [isRegistered_put, isRegistered_put, h.registered w]

theorem register (vs : List Variable) :
    (Console.register vs c).2 = (Console.register vs c').2 ∧
      Alike (Console.register vs c).1 (Console.register vs c').1 := by
  induction vs generalizing c c' with
  | nil => exact ⟨rfl, h⟩
  | cons v vs ih =>
      rw [Console.register, Console.register, h.registered v]
      split
      · exact ⟨rfl, h⟩
      · exact ih (h.put v (some v.initial))

theorem deregister (vs : List Variable) :
    Alike (vs.foldl (fun c v => c.put v none) c) (vs.foldl (fun c v => c.put v none) c') := by
  induction vs generalizing c c' with
  | nil => exact h
  | cons v vs ih => exact ih (h.put v none)

theorem setVariable (v : Variable) (text : String) :
    Corresponds (fun r r' => Alike r.1 r'.1) (c.setVariable v text) (c'.setVariable v text) := by
  have hreg := h.registered v
  rw [isRegistered, isRegistered] at hreg
  cases hc : c.value v with
  | none =>
      rw [hc, Option.isSome_none, eq_comm, Option.isSome_eq_false_iff, Option.isNone_iff_eq_none] at hreg
      rw [Console.setVariable, Console.setVariable, hc, hreg]
      exact .error _
  | some current =>
      rw [hc, Option.isSome_some, eq_comm, Option.isSome_iff_exists] at hreg
      obtain ⟨current', hc'⟩ := hreg
      by_cases htext : isValue text
      · obtain ⟨changed, hset⟩ := setVariable_put hc htext
        obtain ⟨changed', hset'⟩ := setVariable_put hc' htext
        rw [hset, hset']
        exact .ok (h.put v (some text))
      · rw [Console.setVariable, Console.setVariable, hc, hc']
        dsimp only
        rw [if_neg htext, if_neg htext]
        exact .error _

theorem reads (v : Variable) : Corresponds (fun _ _ => True) (c.numbers v) (c'.numbers v) := by
  have hv' := h.registered v
  cases hv : c.isRegistered v with
  | true =>
      obtain ⟨numbers, hnumbers⟩ := numbers_ok hv
      obtain ⟨numbers', hnumbers'⟩ := numbers_ok (hv'.symm.trans hv)
      rw [hnumbers, hnumbers']
      exact .ok trivial
  | false =>
      rw [numbers_error hv, numbers_error (hv'.symm.trans hv)]
      exact .error _

variable {v : Variable} (hv : v.tunes = false)
include hv

theorem numbers : c.numbers v = c'.numbers v := by
  rw [Console.numbers, Console.numbers, h.value v hv]

theorem single : c.single v = c'.single v := by
  rw [Console.single, Console.single, h.numbers hv]

theorem isSet : c.isSet v = c'.isSet v := by
  rw [Console.isSet, Console.isSet, h.single hv]

theorem int : c.int v = c'.int v := by
  rw [Console.int, Console.int, h.single hv]

end Console.Alike

end PlayerAnimation
