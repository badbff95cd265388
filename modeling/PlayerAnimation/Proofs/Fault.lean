import PlayerAnimation.Frame
import PlayerAnimation.Number.Single

namespace PlayerAnimation

variable {β γ : Type}

theorem bind_eq_ok {x : Except Fault β} {f : β → Except Fault γ} {c : γ} :
    x >>= f = .ok c ↔ ∃ b, x = .ok b ∧ f b = .ok c := by
  cases x <;> simp [bind, Except.bind]

theorem pure_eq_ok {b c : β} : (pure b : Except Fault β) = .ok c ↔ b = c := by
  simp [pure, Except.pure]

theorem map_eq_ok {x : Except Fault β} {f : β → γ} {c : γ} :
    x.map f = .ok c ↔ ∃ b, x = .ok b ∧ f b = c := by
  cases x <;> simp [Except.map]

theorem exists_eq_ok {x : Except Fault β} (h : x.toOption.isSome) : ∃ b, x = .ok b := by
  cases x with
  | error e => cases h
  | ok b => exact ⟨b, rfl⟩

/-- Two computations that fail in the same way, or both come to an end, with related results. -/
inductive Corresponds {ε β γ : Type} (R : β → γ → Prop) : Except ε β → Except ε γ → Prop
  | error (e) : Corresponds R (.error e) (.error e)
  | ok {b c} (h : R b c) : Corresponds R (.ok b) (.ok c)

namespace Corresponds

variable {ε β γ β' γ' : Type} {R : β → γ → Prop} {S : β' → γ' → Prop}

theorem bind {x : Except ε β} {y : Except ε γ} {f : β → Except ε β'} {g : γ → Except ε γ'}
    (h : Corresponds R x y) (hfg : ∀ b c, R b c → Corresponds S (f b) (g c)) :
    Corresponds S (x >>= f) (y >>= g) := by
  cases h with
  | error e => exact .error e
  | ok h => exact hfg _ _ h

theorem bind_same (x : Except ε β) {f : β → Except ε β'} {g : β → Except ε γ'}
    (h : ∀ b, Corresponds S (f b) (g b)) : Corresponds S (x >>= f) (x >>= g) := by
  cases x with
  | error e => exact .error e
  | ok b => exact h b

theorem of_ok {b : β} {y : Except ε γ} (h : Corresponds R (.ok b) y) : ∃ c, y = .ok c ∧ R b c := by
  cases h with
  | ok h => exact ⟨_, rfl, h⟩

end Corresponds

section Clock

variable {α : Type} [Scalar α] {a b c : Int}

theorem clock_add_eq_ok : Clock.add α a b = .ok c ↔ Scalar.holds α (a + b) ∧ a + b = c := by
  rw [Clock.add]
  split
  · next h => simp [h]
  · next h => simp [h]

theorem clock_sub_eq_ok : Clock.sub α a b = .ok c ↔ Scalar.holds α (a - b) ∧ a - b = c := by
  rw [Clock.sub]
  split
  · next h => simp [h]
  · next h => simp [h]

/-- Numbers with a clock that counts in a signed 32-bit word. -/
class WordClock (α : Type) [Scalar α] : Prop where
  holds_iff : ∀ n, Scalar.holds α n ↔ -0x80000000 ≤ n ∧ n < 0x80000000

instance : WordClock Float32 where
  holds_iff n := by simp [Scalar.holds, Single.holds]

theorem holds_of_between [WordClock α] (hb : Scalar.holds α b) (h0 : 0 ≤ a) (h : a ≤ b) :
    Scalar.holds α a := by
  rw [WordClock.holds_iff] at hb ⊢
  omega

end Clock

end PlayerAnimation
