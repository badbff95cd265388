import Mathlib.Tactic.ByContra
import PlayerAnimation.Proofs.Blend.Time
import PlayerAnimation.Proofs.Stance
import PlayerAnimation.Proofs.Store.Edit

namespace PlayerAnimation

variable {α : Type} [Scalar α]

/-- The movement of a player and how long a blend into it takes fit together. -/
structure Timed (d : PlayerData α) : Prop where
  duration : d.movementTime ∈ [0, 100, 150, 250, 400]
  idle : d.movementTime = 0 ↔ d.movement = .empty
  last : d.movementLast ≠ .empty → 0 < d.movementTime
  lean : d.leanBlend = 0

namespace Timed

theorem fresh : Timed (PlayerData.fresh : PlayerData α) :=
  ⟨List.mem_cons_self, iff_of_true rfl rfl, fun h => absurd rfl h, rfl⟩

variable {d d' : PlayerData α} {time : Int}

theorem bounds (h : Timed d) : 0 ≤ d.movementTime ∧ d.movementTime ≤ 400 := by
  have hall : ∀ t ∈ [0, 100, 150, 250, 400], (0 : Int) ≤ t ∧ t ≤ 400 := by decide
  exact hall _ h.duration

theorem positive (h : Timed d) (hne : d.movement ≠ d.movementLast) : 0 < d.movementTime := by
  by_contra hpos
  have hzero : d.movementTime = 0 := by
    have hlow := h.bounds.1
    omega
  have hlast : d.movementLast = .empty := by
    by_contra hlast
    exact hpos (h.last hlast)
  exact hne ((h.idle.mp hzero).trans hlast.symm)

theorem edit (hedit : Edit time d d') (h : Timed d) : Timed d' := by
  cases hedit with
  | classify host es ci base =>
      have hpos := (Enhanced.of_time_bounds host es ci base).1
      have hne := Enhanced.of_movement_ne host es ci base
      refine ⟨List.mem_cons_of_mem _ (Enhanced.of_time_mem host es ci base), ?_, fun _ => hpos, h.lean⟩
      exact ⟨fun hz => absurd hz (Int.ne_of_gt hpos), fun he => absurd he hne⟩
  | restart pose hne hduration =>
      obtain rfl := hduration (h.positive hne)
      exact ⟨h.duration, h.idle, fun _ => h.positive hne, h.lean⟩
  | settle running => exact ⟨h.duration, h.idle, h.last, h.lean⟩

theorem keeps (time : Int) : Keeps (Timed : PlayerData α → Prop) time where
  edit _ _ := edit
  stance _ _ h := ⟨h.duration, h.idle, h.last, h.lean⟩

end Timed

theorem Store.run_timed {calls : List (Call α)} {outcomes : List (Outcome α)} {s : Store α}
    (h : (fresh : Store α).run calls = .ok (outcomes, s)) (key : PlayerKey) : Timed (s.entry key) :=
  run_keeps (fun _ _ frame _ => Timed.keeps frame.time) .fresh h (by rw [entry_fresh]; exact .fresh)

/-- A call that replaces the stance timer of a player, and the timer that it leaves. -/
inductive Records (key : PlayerKey) : Call α × Outcome α → StanceTimer → Prop
  | start {frame : Frame} {host ci body number transition client events}
      (hkey : PlayerKey.of ci.clientNum frame.role = .ok key) (h : transition ≠ .none) :
      Records key (.start frame host ci body number, .started transition client events)
        (.startedAt transition frame.time)
  | reset : Records key (.reset, .done) .initial

theorem edits_stance {time : Int} {d d' : PlayerData α} (h : Relation.ReflTransGen (Edit time) d d') :
    d'.stance = d.stance := by
  refine edits_keep (P := fun e => e.stance = d.stance) h ?_ rfl
  intro e e' hedit he
  cases hedit with
  | classify | restart | settle => exact he

namespace Store

theorem call_stance {s s' : Store α} {call : Call α} {outcome : Outcome α}
    (h : s.call call = .ok (outcome, s')) (key : PlayerKey) :
    Records key (call, outcome) (s'.entry key).stance ∨
      (∀ timer, ¬ Records key (call, outcome) timer) ∧ (s'.entry key).stance = (s.entry key).stance := by
  cases call with
  | build =>
      obtain ⟨built, hbuilt, rfl, rfl⟩ := call_build.mp h
      exact Or.inr ⟨nofun, edits_stance (buildTarget_edits hbuilt key)⟩
  | pose =>
      obtain ⟨posed, hposed, rfl, rfl⟩ := call_pose.mp h
      exact Or.inr ⟨nofun, edits_stance (poseController_edits hposed key)⟩
  | start =>
      obtain ⟨started, hstarted, rfl, rfl⟩ := call_start.mp h
      obtain ⟨hkey, hchange, he⟩ | ⟨hkept, he⟩ := startAnimation_entry hstarted key
      · rw [he]
        exact Or.inl (.start hkey hchange)
      · rw [he]
        refine Or.inr ⟨?_, rfl⟩
        rintro timer ⟨hkey, hchange⟩
        exact hkept ⟨hkey, hchange⟩
  | reset =>
      obtain ⟨rfl, rfl⟩ := call_reset.mp h
      rw [entry_fresh]
      exact Or.inl .reset

theorem run_stance {s s' : Store α} {calls : List (Call α)} {outcomes : List (Outcome α)}
    (h : s.run calls = .ok (outcomes, s')) (key : PlayerKey) :
    (∀ turn ∈ calls.zip outcomes, ∀ timer, ¬ Records key turn timer) ∧
        (s'.entry key).stance = (s.entry key).stance ∨
      ∃ before turn after, calls.zip outcomes = before ++ turn :: after ∧
        Records key turn (s'.entry key).stance ∧ ∀ later ∈ after, ∀ timer, ¬ Records key later timer := by
  induction calls generalizing s outcomes with
  | nil =>
      obtain ⟨-, rfl⟩ := Prod.mk.inj (pure_eq_ok.mp h)
      refine Or.inl ⟨?_, rfl⟩
      rw [List.zip_nil_left]
      exact List.forall_mem_nil _
  | cons call calls ih =>
      obtain ⟨outcome, t, rest, ht, hrest, rfl⟩ := run_cons.mp h
      rw [List.zip_cons_cons]
      -- The call at the head counts only if no later one replaces the timer.
      obtain ⟨hnone, hkept⟩ | ⟨before, turn, after, hlog, hlast⟩ := ih hrest
      · rw [hkept]
        obtain hrec | ⟨hnot, hsame⟩ := call_stance ht key
        · exact Or.inr ⟨[], _, _, rfl, hrec, hnone⟩
        · exact Or.inl ⟨List.forall_mem_cons.mpr ⟨hnot, hnone⟩, hsame⟩
      · rw [hlog]
        exact Or.inr ⟨(call, outcome) :: before, turn, after, List.cons_append.symm, hlast⟩

end Store

theorem poseController_settled {frame : Frame} {host : Host α} {s : Store α} {es : EntityState α}
    {ci : ClientInfo α} {tuning : Tuning α} {posed : Posed α} {key : PlayerKey}
    (h : poseController frame host s es ci tuning = .ok posed) (henhanced : frame.compat = .enhanced)
    (hkey : PlayerKey.of ci.clientNum frame.role = .ok key) :
    (posed.store.entry key).movementLast = (posed.store.entry key).movement := by
  obtain ⟨built, mine, begun, events, progress, -, hmine, hbegin, -, hstore, -⟩ :=
    poseController_enhanced h henhanced
  obtain rfl := Except.ok.inj (hkey.symm.trans hmine)
  obtain ⟨running, hrunning⟩ := Blend.finish_eq begun progress frame.time
  rw [hstore, Store.entry_put_self, hrunning]
  by_cases hm : (built.store.entry key).movement = (built.store.entry key).movementLast
  · rw [Blend.begin, if_pos hm] at hbegin
    obtain rfl := (Prod.mk.inj (pure_eq_ok.mp hbegin)).1
    exact hm.symm
  · obtain ⟨duration, -, -, rfl⟩ := Blend.begin_started hbegin hm
    rfl

theorem Store.run_settled {calls : List (Call α)} {outcomes : List (Outcome α)} {s t : Store α}
    {frame : Frame} {host : Host α} {es : EntityState α} {ci : ClientInfo α} {tuning : Tuning α}
    {key : PlayerKey}
    (h : s.run (calls ++ [.pose frame host es ci tuning]) = .ok (outcomes, t))
    (henhanced : frame.compat = .enhanced) (hkey : PlayerKey.of ci.clientNum frame.role = .ok key) :
    (t.entry key).movementLast = (t.entry key).movement := by
  obtain ⟨_, _, _, -, hlast⟩ := run_concat h
  obtain ⟨posed, hposed, -, rfl⟩ := call_pose.mp hlast
  exact poseController_settled hposed henhanced hkey

/-- What is recorded about a player since the store was fresh: a movement has the duration of its blend, and the
timer is that of the last change of stance. -/
theorem timers_consistent {calls : List (Call α)} {outcomes : List (Outcome α)} {s : Store α}
    (h : (Store.fresh : Store α).run calls = .ok (outcomes, s)) (key : PlayerKey) :
    let d := s.entry key
    (d.stance = ⟨.none, 0, 0⟩ ∨
      ∃ before frame host ci body number transition client events after,
        calls.zip outcomes =
          before ++ (.start frame host ci body number, .started transition client events) :: after ∧
        PlayerKey.of ci.clientNum frame.role = .ok key ∧ 0 < transition.duration ∧
        d.stance = ⟨transition, transition.duration, frame.time + transition.duration⟩ ∧
        ∀ later ∈ after, ∀ timer, ¬ Records key later timer) ∧
    Timed d ∧
    (∀ before frame host es ci tuning, calls = before ++ [.pose frame host es ci tuning] →
      frame.compat = .enhanced → PlayerKey.of ci.clientNum frame.role = .ok key →
      d.movementLast = d.movement) ∧
    ∀ frame host es ci neutral built, buildTarget frame host s es ci neutral = .ok built →
      (built.store.entry key).movement ≠ (built.store.entry key).movementLast →
      0 < (built.store.entry key).movementTime := by
  intro d
  refine ⟨?_, Store.run_timed h key, ?_, ?_⟩
  · obtain ⟨-, hkept⟩ | ⟨before, turn, after, hlog, hrec, hlast⟩ := Store.run_stance h key
    · rw [Store.entry_fresh] at hkept
      exact Or.inl hkept
    · change Records key turn d.stance at hrec
      generalize d.stance = timer at hrec
      cases hrec with
      | start hkey hchange =>
          have hpos := StanceTransition.duration_pos hchange
          exact Or.inr ⟨_, _, _, _, _, _, _, _, _, _, hlog, hkey, hpos, rfl, hlast⟩
      | reset => exact Or.inl rfl
  · rintro before frame host es ci tuning rfl henhanced hkey
    exact Store.run_settled h henhanced hkey
  · intro frame host es ci neutral built hbuilt
    have hbuild := buildTarget_edits hbuilt key
    exact (edits_keep hbuild (Timed.keeps _).edit (Store.run_timed h key)).positive

section Example

def crouchingDown : List (Call Float32) :=
  let frame (time : Int) : Frame := ⟨.server, .enhanced, time, 50⟩
  [.start (frame 1200) .twoStances (.playing 0 ⟨1⟩) .legs ⟨2⟩,
    .pose (frame 1250) .twoStances (.initial 0) (.playing 0 ⟨2⟩) ⟨false, none⟩]

theorem timers_consistent_crouchingDown :
    ∃ outcomes s, (Store.fresh : Store Float32).run crouchingDown = .ok (outcomes, s) ∧
      (s.entry (.first .server)).stance = ⟨.standToCrouch, 150, 1350⟩ ∧
      (s.entry (.first .server)).movementTime ∈ [0, 100, 150, 250, 400] ∧
      (s.entry (.first .server)).movementLast = (s.entry (.first .server)).movement := by
  obtain ⟨⟨outcomes, s⟩, h⟩ : ∃ p, (Store.fresh : Store Float32).run crouchingDown = .ok p :=
    exists_eq_ok (by rfl)
  obtain ⟨-, htimed, hsettled, -⟩ := timers_consistent h (.first .server)
  have hstance : ((Store.fresh : Store Float32).run crouchingDown).map
      (fun p => (p.2.entry (.first .server)).stance) = .ok ⟨.standToCrouch, 150, 1350⟩ := by
    rfl
  rw [h] at hstance
  exact ⟨outcomes, s, h, Except.ok.inj hstance, htimed.duration, hsettled [_] _ _ _ _ _ rfl rfl rfl⟩

end Example

end PlayerAnimation
