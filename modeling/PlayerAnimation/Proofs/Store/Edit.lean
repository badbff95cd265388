import Mathlib.Logic.Relation
import PlayerAnimation.Proofs.Blend.Pass

namespace PlayerAnimation

open Relation

variable {α : Type}

theorem Compat.isEnhanced_iff {compat : Compat} : compat.isEnhanced ↔ compat = .enhanced := by
  cases compat with
  | legacy | enhanced => decide

theorem Started.enhanced_of_stanceChange {frame : Frame} {host : Host α} {lf : LerpFrame α} {body : Body}
    {number : AnimNum} (h : stanceChange frame host lf body number ≠ .none) : frame.compat = .enhanced := by
  rw [stanceChange] at h
  split at h
  · next hall =>
      simp only [Bool.and_eq_true] at hall
      exact Compat.isEnhanced_iff.mp hall.1.1.1
  · exact absurd rfl h

variable [Scalar α]

def StanceTimer.startedAt (transition : StanceTransition) (time : Int) : StanceTimer :=
  ⟨transition, transition.duration, time + transition.duration⟩

/-- What posing a player at the given time can do to the data of the player, one thing after another. -/
inductive Edit (time : Int) (d : PlayerData α) : PlayerData α → Prop
  | classify (host : Host α) (es ci base) :
      Edit time d { d with
        movement := (Enhanced.of host es ci base).movement
        movementTime := (Enhanced.of host es ci base).blendTime }
  | restart (pose) {duration : Int} (hne : d.movement ≠ d.movementLast)
      (hduration : 0 < d.movementTime → duration = d.movementTime) :
      Edit time d { d with
        movementLast := d.movement
        movementTime := duration
        movementEnd := time + duration
        movementRunning := true
        movementStart := pose }
  | settle (running) : Edit time d { d with movementRunning := running }

/-- What no edit and no transition of the stance at the given time breaks. -/
structure Keeps (P : PlayerData α → Prop) (time : Int) : Prop where
  edit : ∀ d d', Edit time d d' → P d → P d'
  stance : ∀ d transition, P d → P { d with stance := .startedAt transition time }

def Call.frame? : Call α → Option Frame
  | .build frame .. | .pose frame .. | .start frame .. => some frame
  | .reset => none

theorem edits_keep {P : PlayerData α → Prop} {time : Int} {d d' : PlayerData α}
    (h : ReflTransGen (Edit time) d d') (hP : ∀ e e', Edit time e e' → P e → P e') (hd : P d) : P d' := by
  induction h with
  | refl => exact hd
  | tail _ hedit ih => exact hP _ _ hedit ih

namespace Store

theorem edits_put {s : Store α} {key : PlayerKey} {data : PlayerData α} {time : Int}
    (h : ReflTransGen (Edit time) (s.entry key) data) (other : PlayerKey) :
    ReflTransGen (Edit time) (s.entry other) ((s.put key data).entry other) := by
  by_cases ho : other = key
  · rw [ho, entry_put_self]
    exact h
  · rw [entry_put_of_ne _ ho]

end Store

section Passes

variable {frame : Frame} {host : Host α} {s : Store α} {es : EntityState α} {ci : ClientInfo α}

theorem buildTarget_store {neutral : Bool} {built : Built α}
    (h : buildTarget frame host s es ci neutral = .ok built) :
    built.store = s ∨
      frame.compat = .enhanced ∧ ∃ key base, PlayerKey.of ci.clientNum frame.role = .ok key ∧
        built.store = s.put key { s.entry key with
          movement := (Enhanced.of host es ci base).movement
          movementTime := (Enhanced.of host es ci base).blendTime } := by
  rw [buildTarget] at h
  split at h
  · obtain rfl := pure_eq_ok.mp h
    exact Or.inl rfl
  split at h
  · obtain rfl := pure_eq_ok.mp h
    exact Or.inl rfl
  dsimp only at h
  split at h
  · next hcompat =>
      obtain ⟨key, hkey, h⟩ := bind_eq_ok.mp h
      obtain ⟨progress, -, h⟩ := bind_eq_ok.mp h
      obtain rfl := pure_eq_ok.mp h
      exact Or.inr ⟨Compat.isEnhanced_iff.mp hcompat, key, _, hkey, rfl⟩
  · obtain rfl := pure_eq_ok.mp h
    exact Or.inl rfl

theorem buildTarget_edits {neutral : Bool} {built : Built α}
    (h : buildTarget frame host s es ci neutral = .ok built) (key : PlayerKey) :
    ReflTransGen (Edit frame.time) (s.entry key) (built.store.entry key) := by
  obtain hstore | ⟨-, mine, base, -, hstore⟩ := buildTarget_store h
  · rw [hstore]
  · rw [hstore]
    exact Store.edits_put (.single (.classify host es ci base)) key

theorem begin_edits {d begun : PlayerData α} {time : Int} {pose : Controllers α} {events : List PoseEvent}
    (h : Blend.begin d time pose = .ok (begun, events)) : ReflTransGen (Edit time) d begun := by
  by_cases hm : d.movement = d.movementLast
  · rw [Blend.begin, if_pos hm] at h
    obtain rfl := (Prod.mk.inj (pure_eq_ok.mp h)).1
    exact .refl
  · obtain ⟨duration, -, hduration, rfl⟩ := Blend.begin_started h hm
    exact .single (.restart pose hm hduration)

theorem poseController_legacy {tuning : Tuning α} {posed : Posed α}
    (h : poseController frame host s es ci tuning = .ok posed) (hcompat : frame.compat = .legacy) :
    posed.store = s ∧
      posed.client.control = Blend.step (Scalar.ofInt frame.frameTime) posed.target ci.control ∧
      posed.events = [] := by
  have hplain : ¬ frame.compat.isEnhanced := by
    rw [hcompat]
    exact Bool.false_ne_true
  rw [poseController_eq] at h
  obtain ⟨built, hbuilt, h⟩ := bind_eq_ok.mp h
  dsimp only at h
  rw [if_neg hplain] at h
  obtain rfl := pure_eq_ok.mp h
  obtain hstore | ⟨henhanced, -⟩ := buildTarget_store hbuilt
  · exact ⟨hstore, rfl, rfl⟩
  · exact absurd (Compat.isEnhanced_iff.mpr henhanced) hplain

theorem poseController_enhanced {tuning : Tuning α} {posed : Posed α}
    (h : poseController frame host s es ci tuning = .ok posed) (hcompat : frame.compat = .enhanced) :
    ∃ built key begun events progress,
      buildTarget frame host s es ci tuning.neutral = .ok built ∧
      PlayerKey.of ci.clientNum frame.role = .ok key ∧
      Blend.begin (built.store.entry key) frame.time ci.control = .ok (begun, events) ∧
      Blend.progress? begun frame.time = .ok progress ∧
      posed.store = built.store.put key (Blend.finish begun progress frame.time).1 ∧
      posed.client.control =
        Blend.advance begun progress (Scalar.ofInt frame.frameTime) posed.target ci.control ∧
      posed.events = events ++ (Blend.finish begun progress frame.time).2 := by
  have hblends : frame.compat.isEnhanced := Compat.isEnhanced_iff.mpr hcompat
  rw [poseController_eq] at h
  obtain ⟨built, hbuilt, h⟩ := bind_eq_ok.mp h
  dsimp only at h
  rw [if_pos hblends] at h
  obtain ⟨key, hkey, h⟩ := bind_eq_ok.mp h
  obtain ⟨⟨begun, events⟩, hbegin, h⟩ := bind_eq_ok.mp h
  obtain ⟨progress, hprogress, h⟩ := bind_eq_ok.mp h
  obtain rfl := pure_eq_ok.mp h
  exact ⟨built, key, begun, events, progress, hbuilt, hkey, hbegin, hprogress, rfl, rfl, rfl⟩

theorem poseController_edits {tuning : Tuning α} {posed : Posed α}
    (h : poseController frame host s es ci tuning = .ok posed) (key : PlayerKey) :
    ReflTransGen (Edit frame.time) (s.entry key) (posed.store.entry key) := by
  cases hcompat : frame.compat with
  | legacy =>
      rw [(poseController_legacy h hcompat).1]
  | enhanced =>
      obtain ⟨built, mine, begun, events, progress, hbuilt, -, hbegin, -, hstore, -⟩ :=
        poseController_enhanced h hcompat
      obtain ⟨running, hrunning⟩ := Blend.finish_eq begun progress frame.time
      have hfinish : ReflTransGen (Edit frame.time) (built.store.entry mine)
          (Blend.finish begun progress frame.time).1 := by
        rw [hrunning]
        exact (begin_edits hbegin).tail (.settle running)
      rw [hstore]
      exact (buildTarget_edits hbuilt key).trans (Store.edits_put hfinish key)

theorem startAnimation_store {body : Body} {number : AnimNum} {started : Started α}
    (h : startAnimation frame host s ci body number = .ok started) :
    started.transition = .none ∧ started.store = s ∨
      started.transition ≠ .none ∧ frame.compat = .enhanced ∧ ∃ key,
        PlayerKey.of ci.clientNum frame.role = .ok key ∧
        started.store =
          s.put key { s.entry key with stance := .startedAt started.transition frame.time } := by
  rw [startAnimation] at h
  split at h
  · obtain rfl := pure_eq_ok.mp h
    exact Or.inl ⟨rfl, rfl⟩
  dsimp only at h
  split at h
  · next hchange =>
      obtain rfl := pure_eq_ok.mp h
      exact Or.inl ⟨hchange, rfl⟩
  · next hchange =>
      obtain ⟨key, hkey, h⟩ := bind_eq_ok.mp h
      obtain ⟨timer, htimer, h⟩ := bind_eq_ok.mp h
      obtain rfl := pure_eq_ok.mp h
      obtain ⟨finish, hfinish, htimer⟩ := bind_eq_ok.mp htimer
      obtain ⟨-, rfl⟩ := clock_add_eq_ok.mp hfinish
      obtain rfl := pure_eq_ok.mp htimer
      exact Or.inr ⟨hchange, Started.enhanced_of_stanceChange hchange, key, hkey, rfl⟩

theorem startAnimation_entry {body : Body} {number : AnimNum} {started : Started α}
    (h : startAnimation frame host s ci body number = .ok started) (key : PlayerKey) :
    PlayerKey.of ci.clientNum frame.role = .ok key ∧ started.transition ≠ .none ∧
        started.store.entry key = { s.entry key with stance := .startedAt started.transition frame.time } ∨
      ¬ (PlayerKey.of ci.clientNum frame.role = .ok key ∧ started.transition ≠ .none) ∧
        started.store.entry key = s.entry key := by
  obtain ⟨hnone, hstore⟩ | ⟨hchange, -, mine, hmine, hstore⟩ := startAnimation_store h
  · rw [hstore]
    exact Or.inr ⟨fun hc => hc.2 hnone, rfl⟩
  · rw [hstore]
    by_cases hk : key = mine
    · subst hk
      exact Or.inl ⟨hmine, hchange, Store.entry_put_self _ _ _⟩
    · refine Or.inr ⟨fun hc => hk ?_, Store.entry_put_of_ne _ hk _⟩
      exact Except.ok.inj (hc.1.symm.trans hmine)

end Passes

namespace Store

section Call

variable {s s' : Store α} {outcome : Outcome α} {frame : Frame} {host : Host α} {es : EntityState α}
  {ci : ClientInfo α}

theorem call_build {neutral : Bool} :
    s.call (.build frame host es ci neutral) = .ok (outcome, s') ↔
      ∃ built, buildTarget frame host s es ci neutral = .ok built ∧
        .built built.target built.edits = outcome ∧ built.store = s' := by
  simp only [call, bind_eq_ok, pure_eq_ok, Prod.mk.injEq]

theorem call_pose {tuning : Tuning α} :
    s.call (.pose frame host es ci tuning) = .ok (outcome, s') ↔
      ∃ posed, poseController frame host s es ci tuning = .ok posed ∧
        .posed posed.target posed.client posed.bones posed.edits posed.events = outcome ∧
        posed.store = s' := by
  simp only [call, bind_eq_ok, pure_eq_ok, Prod.mk.injEq]

theorem call_start {body : Body} {number : AnimNum} :
    s.call (.start frame host ci body number) = .ok (outcome, s') ↔
      ∃ started, startAnimation frame host s ci body number = .ok started ∧
        .started started.transition started.client started.events = outcome ∧ started.store = s' := by
  simp only [call, bind_eq_ok, pure_eq_ok, Prod.mk.injEq]

theorem call_reset : s.call .reset = .ok (outcome, s') ↔ .done = outcome ∧ fresh = s' := by
  simp only [call, pure_eq_ok, Prod.mk.injEq]

theorem call_legacy {call : Call α} (h : s.call call = .ok (outcome, s')) (hframe : call.frame? = some frame)
    (hcompat : frame.compat = .legacy) : s' = s := by
  have hplain : frame.compat ≠ .enhanced := by
    rw [hcompat]
    exact nofun
  cases call with
  | build =>
      obtain rfl := Option.some.inj hframe
      obtain ⟨built, hbuilt, -, rfl⟩ := call_build.mp h
      obtain hstore | ⟨henhanced, -⟩ := buildTarget_store hbuilt
      · exact hstore
      · exact absurd henhanced hplain
  | pose =>
      obtain rfl := Option.some.inj hframe
      obtain ⟨posed, hposed, -, rfl⟩ := call_pose.mp h
      exact (poseController_legacy hposed hcompat).1
  | start =>
      obtain rfl := Option.some.inj hframe
      obtain ⟨started, hstarted, -, rfl⟩ := call_start.mp h
      obtain ⟨-, hstore⟩ | ⟨-, henhanced, -⟩ := startAnimation_store hstarted
      · exact hstore
      · exact absurd henhanced hplain
  | reset => cases hframe

theorem call_keeps {P : PlayerData α → Prop} {call : Call α}
    (hkeeps : ∀ frame, call.frame? = some frame → Keeps P frame.time) (hfresh : P .fresh)
    (h : s.call call = .ok (outcome, s')) {key : PlayerKey} (hs : P (s.entry key)) : P (s'.entry key) := by
  cases call with
  | build =>
      obtain ⟨built, hbuilt, -, rfl⟩ := call_build.mp h
      exact edits_keep (buildTarget_edits hbuilt key) (hkeeps _ rfl).edit hs
  | pose =>
      obtain ⟨posed, hposed, -, rfl⟩ := call_pose.mp h
      exact edits_keep (poseController_edits hposed key) (hkeeps _ rfl).edit hs
  | start =>
      obtain ⟨started, hstarted, -, rfl⟩ := call_start.mp h
      obtain ⟨-, -, he⟩ | ⟨-, he⟩ := startAnimation_entry hstarted key
      · rw [he]
        exact (hkeeps _ rfl).stance _ _ hs
      · rwa [he]
  | reset =>
      obtain ⟨-, rfl⟩ := call_reset.mp h
      rwa [entry_fresh]

end Call

theorem run_cons {s s' : Store α} {call : Call α} {calls : List (Call α)} {outcomes : List (Outcome α)} :
    s.run (call :: calls) = .ok (outcomes, s') ↔
      ∃ outcome t rest, s.call call = .ok (outcome, t) ∧ t.run calls = .ok (rest, s') ∧
        outcomes = outcome :: rest := by
  simp only [run, bind_eq_ok, pure_eq_ok, Prod.exists, Prod.mk.injEq]
  constructor
  · rintro ⟨outcome, t, ht, rest, u, hu, rfl, rfl⟩
    exact ⟨outcome, t, rest, ht, hu, rfl⟩
  · rintro ⟨outcome, t, rest, ht, hu, rfl⟩
    exact ⟨outcome, t, ht, rest, s', hu, rfl, rfl⟩

theorem run_concat {s s' : Store α} {calls : List (Call α)} {call : Call α} {outcomes : List (Outcome α)}
    (h : s.run (calls ++ [call]) = .ok (outcomes, s')) :
    ∃ first t outcome, s.run calls = .ok (first, t) ∧ t.call call = .ok (outcome, s') := by
  rw [run_append] at h
  obtain ⟨⟨first, t⟩, hfirst, h⟩ := bind_eq_ok.mp h
  obtain ⟨⟨_, _⟩, hlast, h⟩ := bind_eq_ok.mp h
  obtain ⟨-, rfl⟩ := Prod.mk.inj (pure_eq_ok.mp h)
  obtain ⟨outcome, _, _, hcall, hnil, -⟩ := run_cons.mp hlast
  obtain ⟨-, rfl⟩ := Prod.mk.inj (pure_eq_ok.mp hnil)
  exact ⟨first, t, outcome, hfirst, hcall⟩

theorem run_append_ok {s t u : Store α} {calls calls' : List (Call α)} {outcomes outcomes' : List (Outcome α)}
    (h : s.run calls = .ok (outcomes, t)) (h' : t.run calls' = .ok (outcomes', u)) :
    s.run (calls ++ calls') = .ok (outcomes ++ outcomes', u) := by
  rw [run_append, h]
  simp only [bind, Except.bind, h', pure, Except.pure]

theorem run_keeps {P : PlayerData α → Prop} {calls : List (Call α)}
    (hkeeps : ∀ call ∈ calls, ∀ frame, call.frame? = some frame → Keeps P frame.time) (hfresh : P .fresh)
    {s s' : Store α} {outcomes : List (Outcome α)} (h : s.run calls = .ok (outcomes, s')) {key : PlayerKey}
    (hs : P (s.entry key)) : P (s'.entry key) := by
  induction calls generalizing s outcomes with
  | nil =>
      obtain ⟨-, rfl⟩ := Prod.mk.inj (pure_eq_ok.mp h)
      exact hs
  | cons call calls ih =>
      obtain ⟨outcome, t, rest, ht, hrest, -⟩ := run_cons.mp h
      obtain ⟨hcall, hcalls⟩ := List.forall_mem_cons.mp hkeeps
      exact ih hcalls hrest (call_keeps hcall hfresh ht hs)

end Store

end PlayerAnimation
