import PlayerAnimation.Proofs.Game.Step

namespace PlayerAnimation.Game

def history (g : Game) : List Operation → List (Game × Operation)
  | [] => []
  | op :: ops =>
      (g, op) :: match g.step op with
        | .ok (_, g, _) => g.history ops
        | .error _ => []

/-- An operation that drops the data of all players: it is asked to, or it notices a switch. -/
def Drops (turn : Game × Operation) : Prop :=
  turn.2 = .resetStore ∨ turn.2.looks ∧ Compat.ofVersion turn.1.version ≠ turn.1.compat

def calls (turns : List (Game × Operation)) : List (Call Float32) :=
  turns.filterMap fun turn => turn.1.call? turn.2

theorem calls_cons (turn : Game × Operation) (turns : List (Game × Operation)) :
    calls (turn :: turns) = (turn.1.call? turn.2).toList ++ calls turns := by
  rw [calls, List.filterMap_cons]
  cases turn.1.call? turn.2 with
  | none => rfl
  | some call => rfl

variable {g g' : Game} {op : Operation}

theorem history_cons {answer : Answer} {events : List Event} (h : g.step op = .ok (answer, g', events))
    (ops : List Operation) : g.history (op :: ops) = (g, op) :: g'.history ops := by
  rw [history, h]

theorem store_of_legacy {s s' : Store Float32} {outcomes : List (Outcome Float32)}
    (h : s.run (g.call? op).toList = .ok (outcomes, s')) (hlegacy : Compat.ofVersion g.version = .legacy) :
    s' = s := by
  cases hcall : g.call? op with
  | none =>
      rw [hcall] at h
      exact (Prod.mk.inj (pure_eq_ok.mp h)).2.symm
  | some call =>
      rw [hcall] at h
      obtain ⟨outcome, t, _, ht, hnil, -⟩ := Store.run_cons.mp h
      obtain ⟨-, rfl⟩ := Prod.mk.inj (pure_eq_ok.mp hnil)
      obtain ⟨v, -, hframe⟩ | ⟨v, body, number, -, hframe⟩ := call?_frame hcall
      · exact Store.call_legacy ht hframe hlegacy
      · exact Store.call_legacy ht hframe hlegacy

section Step

variable (h : Change g op g')
include h

theorem Change.kept (hdrop : ¬ Drops (g, op)) :
    g'.compat = g.compat ∧ ∃ outcomes, g.store.run (g.call? op).toList = .ok (outcomes, g'.store) := by
  cases h with
  | register | deregister => exact ⟨rfl, [], rfl⟩
  | configure hop hset =>
      rw [call?_of_configures hop, hset.store]
      exact ⟨hset.compat, [], rfl⟩
  | drop => exact absurd (Or.inl rfl) hdrop
  | look hlooks hrun =>
      by_cases hsame : Compat.ofVersion g.version = g.compat
      · rw [current, if_pos hsame] at hrun
        exact ⟨hsame, _, hrun⟩
      · exact absurd (Or.inr ⟨hlooks, hsame⟩) hdrop

theorem Change.dropped (hdrop : Drops (g, op)) :
    ∃ outcomes, (Store.fresh : Store Float32).run (g.call? op).toList = .ok (outcomes, g'.store) := by
  cases h with
  | register | deregister => exact absurd hdrop (by simp [Drops, Operation.looks])
  | configure hop =>
      obtain rfl | ⟨hlooks, -⟩ := hdrop
      · cases hop
      · exact absurd hlooks (Operation.not_looks_of_configures hop)
  | drop => exact ⟨[], rfl⟩
  | look hlooks hrun =>
      obtain rfl | ⟨-, hswitch⟩ := hdrop
      · cases hlooks
      · rw [current, if_neg hswitch] at hrun
        exact ⟨_, hrun⟩

theorem Change.legacy (hg : g.compat = .legacy → g.store = .fresh) (hlegacy : g'.compat = .legacy) :
    g'.store = .fresh := by
  cases h with
  | register | deregister => exact hg hlegacy
  | configure hop hset => rw [hset.store, hg (hset.compat.symm.trans hlegacy)]
  | drop => rfl
  | look hlooks hrun =>
      have hcurrent : g.current = .fresh := by
        rw [current]
        split
        · next hsame => exact hg (hsame.symm.trans hlegacy)
        · rfl
      exact (store_of_legacy hrun hlegacy).trans hcurrent

theorem Change.seen (hlooks : op.looks) : g'.compat = .ofVersion g'.version := by
  cases h with
  | configure hop => exact absurd hlooks (Operation.not_looks_of_configures hop)
  | register | deregister | drop => cases hlooks
  | look => rfl

end Step

theorem run_legacy {ops : List Operation} {answers : List (Answer × List Event)}
    (h : g.run ops = .ok (answers, g')) (hg : g.compat = .legacy → g.store = .fresh) :
    g'.compat = .legacy → g'.store = .fresh := by
  induction ops generalizing g answers with
  | nil =>
      obtain ⟨-, rfl⟩ := Prod.mk.inj (pure_eq_ok.mp h)
      exact hg
  | cons op ops ih =>
      obtain ⟨answer, events, k, rest, hk, hrest, -⟩ := run_cons.mp h
      exact ih hrest ((step_change hk).legacy hg)

theorem run_since {ops : List Operation} {answers : List (Answer × List Event)}
    (h : g.run ops = .ok (answers, g')) :
    (g'.compat = g.compat ∧ (∀ turn ∈ g.history ops, ¬ Drops turn) ∧
        ∃ outcomes, g.store.run (calls (g.history ops)) = .ok (outcomes, g'.store)) ∨
      ∃ before drop since, g.history ops = before ++ drop :: since ∧ Drops drop ∧
        (∀ turn ∈ since, ¬ Drops turn) ∧
        ∃ outcomes, (Store.fresh : Store Float32).run (calls (drop :: since)) = .ok (outcomes, g'.store) := by
  induction ops generalizing g answers with
  | nil =>
      obtain ⟨-, rfl⟩ := Prod.mk.inj (pure_eq_ok.mp h)
      exact Or.inl ⟨rfl, List.forall_mem_nil _, [], rfl⟩
  | cons op ops ih =>
      obtain ⟨answer, events, k, rest, hk, hrest, -⟩ := run_cons.mp h
      have hchange := step_change hk
      rw [history_cons hk]
      -- If nothing is dropped later on, it depends on the operation at the head where the calls start from.
      obtain ⟨hcompat, hnone, outcomes, hlater⟩ | ⟨before, drop, since, hlog, hlast⟩ := ih hrest
      · by_cases hdrop : Drops (g, op)
        · obtain ⟨first, hfirst⟩ := hchange.dropped hdrop
          refine Or.inr ⟨[], (g, op), k.history ops, rfl, hdrop, hnone, first ++ outcomes, ?_⟩
          rw [calls_cons]
          exact Store.run_append_ok hfirst hlater
        · obtain ⟨hsame, first, hfirst⟩ := hchange.kept hdrop
          refine Or.inl ⟨hcompat.trans hsame, List.forall_mem_cons.mpr ⟨hdrop, hnone⟩, first ++ outcomes, ?_⟩
          rw [calls_cons]
          exact Store.run_append_ok hfirst hlater
      · rw [hlog]
        exact Or.inr ⟨(g, op) :: before, drop, since, List.cons_append.symm, hlast⟩

/-- No data of players outlives a switch between the original and the enhanced animations, which is
noticed by the next operation that looks at them. -/
theorem no_stale_data (console : Console) {ops : List Operation} {answers : List (Answer × List Event)}
    (h : (opening console).run ops = .ok (answers, g)) :
    (g.compat = .legacy → ∀ key, g.store.entry key = .fresh) ∧
    (∀ before op, ops = before ++ [op] → op.looks → g.compat = .ofVersion g.version) ∧
    (g.compat = .enhanced → ∃ before drop since,
      (opening console).history ops = before ++ drop :: since ∧ Drops drop ∧
      (∀ turn ∈ since, ¬ Drops turn) ∧
      ∃ outcomes, (Store.fresh : Store Float32).run (calls (drop :: since)) = .ok (outcomes, g.store)) := by
  refine ⟨?_, ?_, ?_⟩
  · intro hlegacy key
    rw [run_legacy h (fun _ => rfl) hlegacy, Store.entry_fresh]
  · rintro before op rfl hlooks
    obtain ⟨_, _, _, _, -, hlast⟩ := run_concat h
    exact (step_change hlast).seen hlooks
  · intro henhanced
    obtain ⟨hcompat, -⟩ | hsince := run_since h
    · rw [henhanced] at hcompat
      cases hcompat
    · exact hsince

section Example

def backAndForth : List Operation :=
  let visit (time : Int) (number : AnimNum) : Visit :=
    ⟨.server, time, 50, .twoStances, .initial 0, .playing 0 number⟩
  [.setVariable "g_cod2x" "3", .start (visit 1000 ⟨1⟩) .legs ⟨2⟩, .setVariable "g_cod2x" "0",
    .pose (visit 1050 ⟨2⟩), .setVariable "g_cod2x" "3", .observe, .start (visit 2000 ⟨2⟩) .legs ⟨1⟩]

theorem no_stale_data_backAndForth :
    (∃ answers g, initial.run (backAndForth.take 4) = .ok (answers, g) ∧ g.compat = .legacy ∧
      ∀ key, g.store.entry key = .fresh) ∧
    ∃ answers g, initial.run backAndForth = .ok (answers, g) ∧ g.compat = .enhanced ∧
      g.compat = .ofVersion g.version ∧
      (g.store.entry (.first .server)).stance = ⟨.crouchToStand, 150, 2150⟩ ∧
      ∃ before drop since, initial.history backAndForth = before ++ drop :: since ∧ Drops drop ∧
        (∀ turn ∈ since, ¬ Drops turn) ∧
        ∃ outcomes, (Store.fresh : Store Float32).run (calls (drop :: since)) = .ok (outcomes, g.store) := by
  constructor
  · obtain ⟨⟨answers, g⟩, h⟩ : ∃ p, initial.run (backAndForth.take 4) = .ok p := exists_eq_ok (by rfl)
    have hcompat : (initial.run (backAndForth.take 4)).map (fun p => p.2.compat) = .ok .legacy := by rfl
    rw [h] at hcompat
    have hlegacy : g.compat = .legacy := Except.ok.inj hcompat
    exact ⟨answers, g, h, hlegacy, (no_stale_data _ h).1 hlegacy⟩
  · obtain ⟨⟨answers, g⟩, h⟩ : ∃ p, initial.run backAndForth = .ok p := exists_eq_ok (by rfl)
    have hend : (initial.run backAndForth).map
        (fun p => (p.2.compat, (p.2.store.entry (.first .server)).stance)) =
          .ok (.enhanced, ⟨.crouchToStand, 150, 2150⟩) := by
      rfl
    rw [h] at hend
    obtain ⟨hcompat, hstance⟩ := Prod.mk.inj (Except.ok.inj hend)
    obtain ⟨-, hseen, hsince⟩ := no_stale_data _ h
    exact ⟨answers, g, h, hcompat, hseen (backAndForth.take 6) _ rfl rfl, hstance, hsince hcompat⟩

end Example

end PlayerAnimation.Game
