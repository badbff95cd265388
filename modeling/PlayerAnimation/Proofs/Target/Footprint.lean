import PlayerAnimation.Proofs.Store.Edit

namespace PlayerAnimation

variable {α : Type}

structure Note where
  movement : ControllerMovement
  movementTime : Int

def PlayerData.noting (d : PlayerData α) : Option Note → PlayerData α
  | none => d
  | some note => { d with movement := note.movement, movementTime := note.movementTime }

theorem PlayerData.noting_stance (d : PlayerData α) (note : Option Note) : (d.noting note).stance = d.stance := by
  cases note <;> rfl

theorem PlayerData.noting_noting (d : PlayerData α) (note : Option Note) :
    (d.noting note).noting note = d.noting note := by
  cases note <;> rfl

variable [Scalar α]

/-- A target is built without the store, or from the stance of the player with a note that goes by nothing in
the store. -/
theorem buildTarget_factors (frame : Frame) (host : Host α) (es : EntityState α) (ci : ClientInfo α)
    (neutral : Bool) :
    (∃ target edits, ∀ s, buildTarget frame host s es ci neutral = .ok ⟨target, s, edits⟩) ∨
      ∃ (note : Note) (aim : StanceTimer → Except Fault (Controllers α)) (edits : List HostEdit),
        ∀ s, buildTarget frame host s es ci neutral = (do
          let key ← PlayerKey.of ci.clientNum frame.role
          let target ← aim (s.entry key).stance
          pure ⟨target, s.put key ((s.entry key).noting (some note)), edits⟩) := by
  by_cases hneutral : (neutral && frame.role = .server) = true
  · refine .inl ⟨.zero, [.resetAnimations es.clientNum], fun s => ?_⟩
    rw [buildTarget, if_pos hneutral]
    rfl
  by_cases hgun : es.onMountedGun = true
  · refine .inl ⟨.zero, [], fun s => ?_⟩
    rw [buildTarget, if_neg hneutral, if_pos hgun]
    rfl
  by_cases hcompat : frame.compat.isEnhanced = true
  · let e := Enhanced.of host es ci (Target.base es ci (host.moveTypes ci))
    let aim (timer : StanceTimer) : Except Fault (Controllers α) := do
      let progress ← timer.progress frame.time
      pure (Enhanced.inTransition timer.transition progress e.pose)
    let edits : List HostEdit :=
      if frame.role = .server && Enhanced.throwMismatch host es ci then [.clearLegsTimer es.clientNum] else []
    refine .inr ⟨⟨e.movement, e.blendTime⟩, aim, edits, fun s => ?_⟩
    rw [buildTarget, if_neg hneutral, if_neg hgun]
    dsimp only
    rw [if_pos hcompat]
    cases PlayerKey.of ci.clientNum frame.role with
    | error fault => rfl
    | ok key =>
        simp only [aim, bind, Except.bind]
        cases (s.entry key).stance.progress (α := α) frame.time with
        | error fault => rfl
        | ok progress => rfl
  · refine .inl ⟨Target.base es ci (host.moveTypes ci), [], fun s => ?_⟩
    rw [buildTarget, if_neg hneutral, if_neg hgun]
    exact if_neg hcompat

/-- Building a target records at most what one player is doing and how long a blend into that takes. Neither
goes by what is in the store, so that building it once more changes nothing. -/
theorem build_idempotent (frame : Frame) (host : Host α) (es : EntityState α) (ci : ClientInfo α)
    (neutral : Bool) :
    ∃ note : Option Note, ∀ s built, buildTarget frame host s es ci neutral = .ok built →
      (∀ key, PlayerKey.of ci.clientNum frame.role = .ok key →
        built.store.entry key = (s.entry key).noting note) ∧
      (∀ key, PlayerKey.of ci.clientNum frame.role ≠ .ok key → built.store.entry key = s.entry key) ∧
      (∀ t, (∀ key, PlayerKey.of ci.clientNum frame.role = .ok key →
          (t.entry key).stance = (s.entry key).stance) →
        ∃ other, buildTarget frame host t es ci neutral = .ok other ∧ other.target = built.target ∧
          other.edits = built.edits) ∧
      buildTarget frame host built.store es ci neutral = .ok built := by
  obtain ⟨target, edits, hbuild⟩ | ⟨note, aim, edits, hbuild⟩ := buildTarget_factors frame host es ci neutral
  · refine ⟨none, fun s built h => ?_⟩
    obtain rfl := Except.ok.inj ((hbuild s).symm.trans h)
    exact ⟨fun _ _ => rfl, fun _ _ => rfl, fun t _ => ⟨_, hbuild t, rfl, rfl⟩, hbuild s⟩
  · refine ⟨some note, fun s built h => ?_⟩
    rw [hbuild] at h
    obtain ⟨mine, hmine, h⟩ := bind_eq_ok.mp h
    obtain ⟨target, htarget, h⟩ := bind_eq_ok.mp h
    obtain rfl := pure_eq_ok.mp h
    have hbuilt (t : Store α) (ht : (t.entry mine).stance = (s.entry mine).stance) :
        buildTarget frame host t es ci neutral =
          .ok ⟨target, t.put mine ((t.entry mine).noting (some note)), edits⟩ := by
      rw [hbuild, bind_eq_ok]
      refine ⟨mine, hmine, ?_⟩
      rw [ht, htarget]
      rfl
    refine ⟨fun key hkey => ?_, fun key hkey => ?_, fun t ht => ⟨_, hbuilt t (ht mine hmine), rfl, rfl⟩, ?_⟩
    · obtain rfl := Except.ok.inj (hkey.symm.trans hmine)
      exact Store.entry_put_self _ _ _
    · exact Store.entry_put_of_ne _ (fun hsame => hkey (hmine.trans (congrArg Except.ok hsame.symm))) _
    · rw [hbuilt _ (by rw [Store.entry_put_self, PlayerData.noting_stance]), Store.entry_put_self,
        PlayerData.noting_noting, Store.put_put]

section Example

theorem build_idempotent_crawling :
    let frame : Frame := ⟨.server, .enhanced, 1000, 50⟩
    let host : Host Float32 := .ofScript #[] .walkProne false
    let es : EntityState Float32 := { EntityState.initial 0 with flags := .prone }
    let lowering : PlayerData Float32 := { PlayerData.fresh with stance := ⟨.crouchToProne, 400, 1200⟩ }
    let s : Store Float32 := Store.fresh.put (.first .server)
      { lowering with movement := .movingBackwards, movementTime := 100, movementRunning := true }
    let t : Store Float32 := Store.fresh.put (.first .server) lowering
    ∃ built other, buildTarget frame host s es (.initial 0) false = .ok built ∧
      (∃ note, built.store.entry (.first .server) = (s.entry (.first .server)).noting note) ∧
      built.store.entry (.first .client) = s.entry (.first .client) ∧
      buildTarget frame host t es (.initial 0) false = .ok other ∧ other.target = built.target ∧
      buildTarget frame host built.store es (.initial 0) false = .ok built := by
  intro frame host es lowering s t
  obtain ⟨built, h⟩ : ∃ built, buildTarget frame host s es (.initial 0) false = .ok built :=
    exists_eq_ok (by decide +kernel)
  obtain ⟨note, hnote⟩ := build_idempotent frame host es (.initial 0) false
  obtain ⟨hmine, hothers, hstance, hagain⟩ := hnote s built h
  obtain ⟨other, hother, htarget, -⟩ := hstance t fun key hkey => by
    obtain rfl := Except.ok.inj (hkey.symm.trans (PlayerKey.of_client (.first .server)))
    rw [Store.entry_put_self, Store.entry_put_self]
  refine ⟨built, other, h, ⟨note, hmine _ rfl⟩, hothers _ fun hkey => ?_, hother, htarget, hagain⟩
  exact absurd (Except.ok.inj hkey) (by decide)

end Example

end PlayerAnimation
