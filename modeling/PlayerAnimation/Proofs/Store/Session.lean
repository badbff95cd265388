import Mathlib.Logic.Function.Basic
import PlayerAnimation.Number.Single
import PlayerAnimation.Proofs.Fault
import PlayerAnimation.Proofs.Store.Locality

namespace PlayerAnimation

variable {α : Type}

inductive Request (α : Type)
  | build (es : EntityState α) (neutral : Bool)
  | pose (es : EntityState α) (tuning : Tuning α)
  | start (body : Body) (number : AnimNum)

def Request.toCall (frame : Frame) (host : Host α) (ci : ClientInfo α) : Request α → Call α
  | build es neutral => .build frame host es ci neutral
  | pose es tuning => .pose frame host es ci tuning
  | start body number => .start frame host ci body number

/-- One thing that happens in a session. -/
inductive Turn (α : Type)
  | ask (key : PlayerKey) (frame : Frame) (host : Host α) (request : Request α)
  | change (key : PlayerKey) (edit : ClientInfo α → ClientInfo α)
  | reset

namespace Turn

def player? : Turn α → Option PlayerKey
  | ask key .. | change key _ => some key
  | reset => none

def concerns (key : PlayerKey) (turn : Turn α) : Bool := turn.player?.all fun k => k = key

end Turn

def Outcome.client? : Outcome α → Option (ClientInfo α)
  | posed _ client .. | started _ client _ => some client
  | built .. | done => none

structure Session (α : Type) where
  store : Store α
  clients : PlayerKey → ClientInfo α

namespace Session

def client (w : Session α) (key : PlayerKey) : ClientInfo α :=
  { w.clients key with clientNum := key.client }

def set (w : Session α) (key : PlayerKey) (data : PlayerData α) (ci : ClientInfo α) : Session α :=
  ⟨w.store.put key data, Function.update w.clients key ci⟩

/-- Two sessions in which everything about a player is the same. -/
structure Agree (key : PlayerKey) (w v : Session α) : Prop where
  entry : w.store.entry key = v.store.entry key
  client : w.clients key = v.clients key

theorem Agree.refl (key : PlayerKey) (w : Session α) : Agree key w w := ⟨rfl, rfl⟩

theorem Agree.symm {key : PlayerKey} {w v : Session α} (h : Agree key w v) : Agree key v w :=
  ⟨h.entry.symm, h.client.symm⟩

theorem Agree.trans {key : PlayerKey} {u w v : Session α} (h : Agree key u w) (h' : Agree key w v) :
    Agree key u v :=
  ⟨h.entry.trans h'.entry, h.client.trans h'.client⟩

theorem agree_set_self (w v : Session α) (key : PlayerKey) (data : PlayerData α) (ci : ClientInfo α) :
    Agree key (w.set key data ci) (v.set key data ci) := by
  constructor
  · simp [set]
  · simp [set]

theorem agree_set_of_ne (w : Session α) {key other : PlayerKey} (h : other ≠ key) (data : PlayerData α)
    (ci : ClientInfo α) : Agree other (w.set key data ci) w :=
  ⟨Store.entry_put_of_ne _ h _, Function.update_of_ne h _ _⟩

theorem set_comm (w : Session α) {key key' : PlayerKey} (h : key ≠ key') (data data' : PlayerData α)
    (ci ci' : ClientInfo α) :
    (w.set key data ci).set key' data' ci' = (w.set key' data' ci').set key data ci := by
  simp only [set, Store.put_comm _ h, Function.update_comm h]

variable [Scalar α]

theorem call_local {s t : Store α} {key : PlayerKey} (h : s.entry key = t.entry key) {frame : Frame}
    {host : Host α} {ci : ClientInfo α} (hk : PlayerKey.of ci.clientNum frame.role = .ok key)
    (request : Request α) :
    s.call (request.toCall frame host ci) =
      (t.call (request.toCall frame host ci)).map fun p => (p.1, s.put key (p.2.entry key)) := by
  cases request with
  | build es neutral =>
      rw [Request.toCall, Store.call, Store.call, buildTarget_local hk h]
      cases buildTarget frame host t es ci neutral <;> rfl
  | pose es tuning =>
      rw [Request.toCall, Store.call, Store.call, poseController_local hk h]
      cases poseController frame host t es ci tuning <;> rfl
  | start body number =>
      rw [Request.toCall, Store.call, Store.call, startAnimation_local hk h]
      cases startAnimation frame host t ci body number <;> rfl

def fresh (clients : PlayerKey → ClientInfo α) : Session α := ⟨.fresh, clients⟩

def step (w : Session α) : Turn α → Except Fault (Outcome α × Session α)
  | .ask key frame host request => do
      let (outcome, store) ←
        w.store.call (request.toCall { frame with role := key.role } host (w.client key))
      let client := outcome.client?.getD (w.clients key)
      pure (outcome, ⟨store, Function.update w.clients key client⟩)
  | .change key edit =>
      pure (.done, { w with clients := Function.update w.clients key (edit (w.clients key)) })
  | .reset => pure (.done, { w with store := .fresh })

def run (w : Session α) : List (Turn α) → Except Fault (List (Turn α × Outcome α) × Session α)
  | [] => pure ([], w)
  | turn :: turns => do
      let (outcome, w) ← w.step turn
      let (log, w) ← w.run turns
      pure ((turn, outcome) :: log, w)

theorem run_cons {w w' : Session α} {turn : Turn α} {turns : List (Turn α)}
    {log : List (Turn α × Outcome α)} :
    w.run (turn :: turns) = .ok (log, w') ↔
      ∃ outcome v rest, w.step turn = .ok (outcome, v) ∧ v.run turns = .ok (rest, w') ∧
        log = (turn, outcome) :: rest := by
  simp only [run, bind_eq_ok, pure_eq_ok, Prod.exists, Prod.mk.injEq]
  constructor
  · rintro ⟨outcome, v, hv, rest, u, hu, rfl, rfl⟩
    exact ⟨outcome, v, rest, hv, hu, rfl⟩
  · rintro ⟨outcome, v, rest, hv, hu, rfl⟩
    exact ⟨outcome, v, hv, rest, w', hu, rfl, rfl⟩

theorem step_local {w v : Session α} {turn : Turn α} {key : PlayerKey}
    (hp : turn.player? = some key) (h : Agree key w v) :
    w.step turn = (v.step turn).map fun p =>
      (p.1, w.set key (p.2.store.entry key) (p.2.clients key)) := by
  cases turn with
  | ask k frame host request =>
      obtain rfl : k = key := Option.some.inj hp
      have hc : w.client k = v.client k := by rw [client, client, h.client]
      rw [step, step, hc, call_local h.entry (PlayerKey.of_client k), h.client]
      cases v.store.call (request.toCall { frame with role := k.role } host (v.client k)) with
      | error e => rfl
      | ok p => simp [Except.map, bind, Except.bind, pure, Except.pure, set]
  | change k edit =>
      obtain rfl : k = key := Option.some.inj hp
      simp [step, Except.map, pure, Except.pure, set, ← h.entry, h.client]
  | reset => cases hp

theorem step_eq_set {w w' : Session α} {turn : Turn α} {outcome : Outcome α} {key : PlayerKey}
    (hp : turn.player? = some key) (h : w.step turn = .ok (outcome, w')) :
    w' = w.set key (w'.store.entry key) (w'.clients key) := by
  have hl := step_local hp (Agree.refl key w)
  rw [h] at hl
  exact congrArg Prod.snd (Except.ok.inj hl)

theorem step_agree {w v w' : Session α} {turn : Turn α} {outcome : Outcome α} {key : PlayerKey}
    (ha : Agree key w v) (hc : turn.concerns key) (h : w.step turn = .ok (outcome, w')) :
    ∃ v', v.step turn = .ok (outcome, v') ∧ Agree key w' v' := by
  cases hp : turn.player? with
  | none =>
      cases turn with
      | reset =>
          obtain ⟨rfl, rfl⟩ := Prod.mk.inj (Except.ok.inj h)
          exact ⟨{ v with store := .fresh }, rfl, rfl, ha.client⟩
      | ask | change => cases hp
  | some k =>
      obtain rfl : k = key := by simpa [Turn.concerns, hp] using hc
      have hl := step_local hp ha.symm
      rw [h] at hl
      refine ⟨_, hl, ?_⟩
      rw [step_eq_set hp h]
      simpa [set] using agree_set_self w v k (w'.store.entry k) (w'.clients k)

theorem step_of_not_concerns {w w' : Session α} {turn : Turn α} {outcome : Outcome α} {key : PlayerKey}
    (hc : ¬ turn.concerns key) (h : w.step turn = .ok (outcome, w')) : Agree key w' w := by
  obtain ⟨k, hp, hk⟩ : ∃ k, turn.player? = some k ∧ k ≠ key := by
    simpa [Turn.concerns, Option.all_eq_true] using hc
  rw [step_eq_set hp h]
  exact agree_set_of_ne w hk.symm _ _

theorem run_filter_concerns {w v w' : Session α} {turns : List (Turn α)}
    {log : List (Turn α × Outcome α)} {key : PlayerKey} (ha : Agree key w v)
    (h : w.run turns = .ok (log, w')) :
    ∃ v', v.run (turns.filter (·.concerns key)) = .ok (log.filter (·.1.concerns key), v') ∧
      Agree key w' v' := by
  induction turns generalizing w v log with
  | nil =>
      obtain ⟨rfl, rfl⟩ := Prod.mk.inj (Except.ok.inj h)
      exact ⟨v, rfl, ha⟩
  | cons turn turns ih =>
      obtain ⟨outcome, u, rest, hu, hrest, rfl⟩ := run_cons.mp h
      by_cases hc : turn.concerns key
      · obtain ⟨u', hu', ha'⟩ := step_agree ha hc hu
        obtain ⟨v', hv', hav⟩ := ih ha' hrest
        refine ⟨v', ?_, hav⟩
        rw [List.filter_cons_of_pos hc, List.filter_cons_of_pos (a := (turn, outcome)) hc]
        exact run_cons.mpr ⟨outcome, u', _, hu', hv', rfl⟩
      · obtain ⟨v', hv', hav⟩ := ih ((step_of_not_concerns hc hu).trans ha) hrest
        refine ⟨v', ?_, hav⟩
        rw [List.filter_cons_of_neg hc, List.filter_cons_of_neg (a := (turn, outcome)) hc]
        exact hv'

theorem run_swap {w w' : Session α} {a b : Turn α} {log : List (Turn α × Outcome α)}
    {key key' : PlayerKey} (ha : a.player? = some key) (hb : b.player? = some key') (hne : key ≠ key')
    (h : w.run [a, b] = .ok (log, w')) : w.run [b, a] = .ok (log.reverse, w') := by
  obtain ⟨o, u, _, hu, htail, rfl⟩ := run_cons.mp h
  obtain ⟨o', v, _, hv, hnil, rfl⟩ := run_cons.mp htail
  obtain ⟨rfl, rfl⟩ := Prod.mk.inj (Except.ok.inj hnil)
  have hu' := step_eq_set ha hu
  have hagree : Agree key' w u := by
    rw [hu']
    exact (agree_set_of_ne w hne.symm _ _).symm
  have hb' := step_local hb hagree
  rw [hv] at hb'
  have hagree' : Agree key (w.set key' (v.store.entry key') (v.clients key')) w :=
    agree_set_of_ne w hne _ _
  have ha' := step_local ha hagree'
  rw [hu] at ha'
  have hv' : v = (w.set key' (v.store.entry key') (v.clients key')).set key (u.store.entry key)
      (u.clients key) :=
    calc v = u.set key' (v.store.entry key') (v.clients key') := step_eq_set hb hv
      _ = (w.set key (u.store.entry key) (u.clients key)).set key' (v.store.entry key')
            (v.clients key') := by rw [← hu']
      _ = _ := set_comm w hne _ _ _ _
  refine run_cons.mpr ⟨o', _, [(a, o)], hb', ?_, rfl⟩
  refine run_cons.mpr ⟨o, _, [], ha', ?_, rfl⟩
  rw [← hv']
  rfl

/-- What a player's data becomes, and what every call about the player answers, depends on the turns that
concern the player alone. Turns about different players, or about one player as seen by the two
simulations, commute. -/
theorem players_isolated (clients : PlayerKey → ClientInfo α) (turns : List (Turn α)) :
    (∀ log w, (fresh clients).run turns = .ok (log, w) → ∀ key, ∃ v,
      (fresh clients).run (turns.filter (·.concerns key)) =
          .ok (log.filter (·.1.concerns key), v) ∧
        v.store.entry key = w.store.entry key ∧ v.clients key = w.clients key) ∧
    (∀ (w w' : Session α) (a b : Turn α) log key key', a.player? = some key →
      b.player? = some key' → key ≠ key' → w.run [a, b] = .ok (log, w') →
        w.run [b, a] = .ok (log.reverse, w')) := by
  constructor
  · intro log w h key
    obtain ⟨v, hv, ha⟩ := run_filter_concerns (Agree.refl key (fresh clients)) h
    exact ⟨v, hv, ha.entry.symm, ha.client.symm⟩
  · intro w w' a b log key key' ha hb hne h
    exact run_swap ha hb hne h

section Example

def asServer : PlayerKey := .first .server

def asClient : PlayerKey := .first .client

def listenServer : List (Turn Float32) :=
  let animation (moveTypes : MoveTypes) : Animation Float32 := ⟨"", moveTypes, .empty, 0, 0⟩
  let host := Host.ofScript #[animation .empty, animation .idle, animation .idleCrouch] .idle false
  let frame (time : Int) : Frame := ⟨.server, .enhanced, time, 50⟩
  let pose : Request Float32 := .pose (.initial 0) ⟨false, none⟩
  [.ask asServer (frame 1000) host pose, .ask asClient (frame 1010) host pose, .reset,
    .ask asServer (frame 1050) host (.start .legs ⟨1⟩),
    .change asClient fun ci => { ci with lean := 0.5 }, .ask asClient (frame 1060) host pose,
    .ask asServer (frame 1100) host (.start .legs ⟨2⟩), .ask asClient (frame 1110) host pose]

def newcomers : Session Float32 := fresh fun key => .initial key.client

theorem players_isolated_listenServer :
    (∃ log w v, newcomers.run listenServer = .ok (log, w) ∧
      newcomers.run (listenServer.filter (·.concerns asServer)) =
        .ok (log.filter (·.1.concerns asServer), v) ∧
      v.store.entry asServer = w.store.entry asServer ∧
      (v.store.entry asServer).stance = ⟨.standToCrouch, 150, 1250⟩) ∧
    ∃ log w, newcomers.run (listenServer.take 2) = .ok (log, w) ∧
      newcomers.run (listenServer.take 2).reverse = .ok (log.reverse, w) := by
  constructor
  · obtain ⟨⟨log, w⟩, hr⟩ : ∃ p, newcomers.run listenServer = .ok p := exists_eq_ok (by rfl)
    obtain ⟨v, hv, he, -⟩ := (players_isolated _ listenServer).1 log w hr asServer
    change newcomers.run _ = _ at hv
    have hs : (newcomers.run (listenServer.filter (·.concerns asServer))).map
        (fun p => (p.2.store.entry asServer).stance) = .ok ⟨.standToCrouch, 150, 1250⟩ := by
      rfl
    rw [hv] at hs
    exact ⟨log, w, v, hr, hv, he, Except.ok.inj hs⟩
  · obtain ⟨⟨log, w⟩, hr⟩ : ∃ p, newcomers.run (listenServer.take 2) = .ok p := exists_eq_ok (by rfl)
    refine ⟨log, w, hr, ?_⟩
    exact (players_isolated newcomers.clients []).2 newcomers w _ _ log asServer asClient rfl rfl
      (by decide) hr

end Example

end Session

end PlayerAnimation
