import PlayerAnimation.Proofs.Blend.Steady
import PlayerAnimation.Proofs.Single.Order

namespace PlayerAnimation

variable {α : Type}

/-- What a pass finds recorded about the player, and what it leaves recorded. -/
structure Moment (α : Type) where
  pass : Pass α
  before : PlayerData α
  after : PlayerData α

def Moment.restarts (m : Moment α) : Prop := m.after.movement ≠ m.before.movementLast

/-- Whether a pass finds a prone player sliding to the side. -/
def Pass.slides [Scalar α] (key : PlayerKey) (p : Pass α) : Bool :=
  Enhanced.slides p.host p.es (p.client key)

theorem enhanced_time [Scalar α] (key : PlayerKey) (p : Pass α) :
    (p.enhanced key).blendTime = Enhanced.timeOf (p.enhanced key).movement (p.slides key) ∧
      ((p.enhanced key).movement.isFire → p.slides key = false) :=
  Enhanced.of_time p.host p.es (p.client key) _

section Run

variable [Scalar α]

/-- Passes over one player, one after another, with what each of them finds and leaves recorded. -/
def trace (key : PlayerKey) : Store α → List (Pass α) → Except Fault (List (Moment α))
  | _, [] => pure []
  | s, p :: passes => do
      let posed ← p.pose key s
      let moments ← trace key posed.store passes
      pure (⟨p, s.entry key, posed.store.entry key⟩ :: moments)

inductive Linked (key : PlayerKey) : PlayerData α → List (Moment α) → Prop
  | nil (d) : Linked key d []
  | cons {m : Moment α} {moments} : Noted key m.pass m.before m.after → Steady m.before → Steady m.after →
      Linked key m.after moments → Linked key m.before (m :: moments)

theorem Linked.of_append {key : PlayerKey} {d : PlayerData α} {moments moments' : List (Moment α)}
    (h : Linked key d (moments ++ moments')) :
    (∃ d', Linked key d' moments') ∧ Linked key d moments := by
  induction moments generalizing d with
  | nil => exact ⟨⟨d, h⟩, .nil d⟩
  | cons m moments ih =>
      rw [List.cons_append] at h
      cases h with
      | cons hf hb ha hl =>
          obtain ⟨hd', hl'⟩ := ih hl
          exact ⟨hd', .cons hf hb ha hl'⟩

theorem Linked.of_infix {key : PlayerKey} {d : PlayerData α} {segment moments : List (Moment α)}
    (h : Linked key d moments) (hin : segment <:+: moments) : ∃ d', Linked key d' segment := by
  obtain ⟨pre, post, rfl⟩ := hin
  rw [List.append_assoc] at h
  obtain ⟨⟨d', h⟩, -⟩ := h.of_append
  exact ⟨d', h.of_append.2⟩

theorem trace_linked {key : PlayerKey} {s : Store Float32} (passes : List (Pass Float32))
    (hs : Steady (s.entry key)) (ht : ∀ p ∈ passes, 0 ≤ p.time ∧ p.time ≤ 0x7fffffff - 400) :
    ∃ moments, trace key s passes = .ok moments ∧ moments.map Moment.pass = passes ∧
      Linked key (s.entry key) moments := by
  induction passes generalizing s with
  | nil => exact ⟨[], rfl, rfl, .nil _⟩
  | cons p passes ih =>
      obtain ⟨⟨h0, h1⟩, ht⟩ := List.forall_mem_cons.mp ht
      obtain ⟨stride, hstride, hsteady, hfollows⟩ := stride_noted key p hs h0 h1
      have hpose := p.pose_stride key s
      rw [hstride] at hpose
      obtain ⟨posed, hposed, rfl⟩ := map_eq_ok.mp hpose
      obtain ⟨moments, hm, hpass, hl⟩ := ih hsteady ht
      refine ⟨⟨p, s.entry key, posed.store.entry key⟩ :: moments, ?_, by rw [List.map_cons, hpass], ?_⟩
      · rw [trace, hposed]
        simp only [bind, Except.bind, hm]
        rfl
      · exact .cons (m := ⟨p, s.entry key, posed.store.entry key⟩) hfollows hs hsteady hl

theorem Linked.follows {key : PlayerKey} {d : PlayerData α} {moments : List (Moment α)}
    (h : Linked key d moments) : ∀ m ∈ moments, Noted key m.pass m.before m.after ∧ Steady m.after := by
  induction h with
  | nil => simp
  | cons hf _ ha _ ih => exact List.forall_mem_cons.mpr ⟨⟨hf, ha⟩, ih⟩

theorem Linked.kept {key : PlayerKey} {d : PlayerData α} {moments : List (Moment α)}
    (h : Linked key d moments) (hr : ∀ m ∈ moments, ¬ m.restarts) :
    ∀ m ∈ moments, m.after.movement = d.movementLast ∧ m.after.movementEnd = d.movementEnd := by
  induction h with
  | nil => simp
  | @cons m moments hf hb ha hl ih =>
      obtain ⟨hm, hr⟩ := List.forall_mem_cons.mp hr
      have hsame : m.after.movement = m.before.movementLast := not_not.mp hm
      have hend := hf.finish
      rw [if_pos hsame] at hend
      refine List.forall_mem_cons.mpr ⟨⟨hsame, hend⟩, fun n hn => ?_⟩
      obtain ⟨hn1, hn2⟩ := ih hr n hn
      exact ⟨by rw [hn1, ← ha.settled, hsame], by rw [hn2, hend]⟩

theorem Noted.time_eq {key : PlayerKey} {m : Moment α} (h : Noted key m.pass m.before m.after)
    (hc : m.pass.classifies key) :
    m.after.movementTime = Enhanced.timeOf m.after.movement (m.pass.slides key) ∧
      (m.after.movement.isFire → m.pass.slides key = false) := by
  rw [h.duration, h.movement, Pass.note, if_pos hc]
  exact enhanced_time key m.pass

theorem Linked.time_eq_iff {key : PlayerKey} {a : Moment α} {during : List (Moment α)}
    (h : Linked key a.after during) (ha : Noted key a.pass a.before a.after) (hs : Steady a.after)
    (hc : a.pass.classifies key) (hr : ∀ m ∈ during, ¬ m.restarts) :
    ∀ m ∈ during, m.pass.classifies key →
      (m.after.movementTime = a.after.movementTime ↔ m.pass.slides key = a.pass.slides key) := by
  intro m hm hcm
  obtain ⟨hta, hfa⟩ := ha.time_eq hc
  obtain ⟨ht, hfire⟩ := (h.follows m hm).1.time_eq hcm
  rw [(h.kept hr m hm).1, ← hs.settled] at ht hfire
  rw [ht, hta]
  exact Enhanced.timeOf_eq_iff hfire hfa

theorem Linked.time_kept {key : PlayerKey} {d : PlayerData α} {moments : List (Moment α)} {duration : Int}
    (h : Linked key d moments) (hd : d.movementTime = duration)
    (hc : ∀ m ∈ moments, m.pass.classifies key → m.after.movementTime = duration) :
    ∀ m ∈ moments, m.after.movementTime = duration := by
  induction h with
  | nil => simp
  | @cons m moments hf hb ha hl ih =>
      obtain ⟨hm, hc⟩ := List.forall_mem_cons.mp hc
      have hafter : m.after.movementTime = duration := by
        cases hcl : m.pass.classifies key with
        | true => exact hm hcl
        | false =>
            rw [hf.duration, Pass.note, hcl]
            exact hd
      exact List.forall_mem_cons.mpr ⟨hafter, ih hafter hc⟩

end Run

theorem progress_single {d : PlayerData Float32} {time : Int} (h : 0 < d.movementTime)
    (hd : 0 ≤ d.movementEnd ∧ d.movementEnd ≤ 0x7fffffff) (ht : 0 ≤ time ∧ time ≤ 0x7fffffff) :
    Blend.progress? d time =
      .ok (some (1 - Single.ofInt (d.movementEnd - time) / Single.ofInt d.movementTime)) := by
  rw [progress_some h hd ht, scalar_one]
  rfl

theorem progress_pairwise {moments : List (Moment Float32)} {duration finish : Int} (hpos : 0 < duration)
    (hle : duration ≤ 400) (hfinish : 0 ≤ finish ∧ finish ≤ 0x7fffffff)
    (hall : ∀ m ∈ moments, m.after.movementTime = duration ∧ m.after.movementEnd = finish)
    (htime : ∀ m ∈ moments, 0 ≤ m.pass.time ∧ m.pass.time ≤ 0x7fffffff - 400)
    (hsorted : moments.Pairwise fun m n => m.pass.time ≤ n.pass.time) :
    ∃ fraction : Moment Float32 → Float32,
      (∀ m ∈ moments, Blend.progress? m.after m.pass.time = .ok (some (fraction m))) ∧
      moments.Pairwise fun m n => fraction m ≤ fraction n := by
  refine ⟨fun m => 1 - Single.ofInt (finish - m.pass.time) / Single.ofInt duration, fun m h => ?_, ?_⟩
  · obtain ⟨hd, he⟩ := hall m h
    have ht := htime m h
    rw [← hd, ← he]
    exact progress_single (by rw [hd]; exact hpos) (by rw [he]; exact hfinish) (by omega)
  · refine hsorted.imp_of_mem fun {m n} h h' hmn => ?_
    have hm := htime m h
    have hn := htime n h'
    exact Single.fraction_antitone hpos (by omega) (by rw [abs_le]; omega) (by rw [abs_le]; omega)
      (by omega)

/-- Until another blend starts, the duration of the current one stays at exactly those passes that find the
player sliding to the side, or not, as its first pass did. If all of them do, the fraction that is over never
decreases. -/
theorem blend_duration (key : PlayerKey) (passes : List (Pass Float32))
    (hsorted : passes.Pairwise fun p q => p.time ≤ q.time)
    (htimes : ∀ p ∈ passes, 0 ≤ p.time ∧ p.time ≤ 0x7fffffff - 400) :
    ∃ moments, trace key .fresh passes = .ok moments ∧
      ∀ a during, a :: during <:+: moments → a.restarts → (∀ m ∈ during, ¬ m.restarts) →
        (∀ m ∈ during, m.pass.classifies key →
          (m.after.movementTime = a.after.movementTime ↔ m.pass.slides key = a.pass.slides key)) ∧
        ((∀ m ∈ during, m.pass.classifies key → m.pass.slides key = a.pass.slides key) →
          (∀ m ∈ a :: during, m.after.movementTime = a.after.movementTime ∧
            m.after.movementEnd - m.after.movementTime = a.pass.time) ∧
          ∃ fraction : Moment Float32 → Float32,
            (∀ m ∈ a :: during, Blend.progress? m.after m.pass.time = .ok (some (fraction m))) ∧
            (a :: during).Pairwise fun m n => fraction m ≤ fraction n) := by
  obtain ⟨moments, hm, hpass, hl⟩ := trace_linked passes (fresh_steady key) htimes
  refine ⟨moments, hm, fun a during hin ha hr => ?_⟩
  have htime : ∀ m ∈ a :: during, 0 ≤ m.pass.time ∧ m.pass.time ≤ 0x7fffffff - 400 := fun m h =>
    htimes _ (hpass ▸ List.mem_map_of_mem (hin.subset h))
  rw [← hpass, List.pairwise_map] at hsorted
  obtain ⟨d, hl⟩ := hl.of_infix hin
  cases hl with
  | cons hf hb hafter hrest =>
      obtain ⟨hclass, hpos, hle, hend⟩ := hf.starts hb ha
      have hiff := hrest.time_eq_iff hf hafter hclass hr
      refine ⟨hiff, fun hs => ?_⟩
      have hduring := hrest.time_kept rfl fun m h hc => (hiff m h hc).mpr (hs m h hc)
      have hall : ∀ m ∈ a :: during, m.after.movementTime = a.after.movementTime ∧
          m.after.movementEnd = a.after.movementEnd :=
        List.forall_mem_cons.mpr ⟨⟨rfl, rfl⟩, fun m h => ⟨hduring m h, (hrest.kept hr m h).2⟩⟩
      refine ⟨fun m h => ⟨(hall m h).1, ?_⟩, ?_⟩
      · rw [(hall m h).1, (hall m h).2, hend]
        omega
      · exact progress_pairwise hpos hle hafter.finish hall htime (hsorted.sublist hin.sublist)

section Example

def crawl (time : Int) (lean : Float32) : Pass Float32 :=
  { time
    frameTime := 10
    host := .ofScript #[⟨"", .empty, .empty, 0, 0⟩, ⟨"", .empty, .strafeLeft, 0, 0⟩] .empty false
    es := { EntityState.initial 0 with flags := .prone, legsAnim := ⟨1⟩ }
    ci := { ClientInfo.initial 0 with lean }
    tuning := ⟨false, none⟩ }

def crawler : PlayerKey := .first .client

def outline (m : Moment Float32) : Bool × Bool × Int × Int :=
  (decide (m.after.movement ≠ m.before.movementLast), m.pass.slides crawler, m.after.movementTime,
    m.after.movementEnd)

theorem moments_of_outline {passes : List (Pass Float32)} {moments : List (Moment Float32)}
    {x y z : Bool × Bool × Int × Int} (hm : trace crawler .fresh passes = .ok moments)
    (h : (trace crawler .fresh passes).map (List.map outline) = .ok [x, y, z]) :
    ∃ a b c, moments = [a, b, c] ∧ outline a = x ∧ outline b = y ∧ outline c = z := by
  rw [hm] at h
  have hlist : moments.map outline = [x, y, z] := Except.ok.inj h
  obtain ⟨a, _, rfl, ha, hlist⟩ := List.map_eq_cons_iff.mp hlist
  obtain ⟨b, _, rfl, hb, hlist⟩ := List.map_eq_cons_iff.mp hlist
  obtain ⟨c, _, rfl, hc, hlist⟩ := List.map_eq_cons_iff.mp hlist
  rw [List.map_eq_nil_iff] at hlist
  exact ⟨a, b, c, by rw [hlist], ha, hb, hc⟩

theorem blend_duration_crawl :
    ∃ a b c, trace crawler .fresh [crawl 1000 0, crawl 1010 0, crawl 1020 0] = .ok [a, b, c] ∧
      a.restarts ∧
      (∀ m ∈ [a, b, c], m.after.movementTime = a.after.movementTime ∧
        m.after.movementEnd - m.after.movementTime = a.pass.time) ∧
      ∃ fraction : Moment Float32 → Float32,
        (∀ m ∈ [a, b, c], Blend.progress? m.after m.pass.time = .ok (some (fraction m))) ∧
        [a, b, c].Pairwise fun m n => fraction m ≤ fraction n := by
  have hs : (trace crawler .fresh [crawl 1000 0, crawl 1010 0, crawl 1020 0]).map (List.map outline) =
      .ok [(true, true, 150, 1150), (false, true, 150, 1150), (false, true, 150, 1150)] := by rfl
  obtain ⟨moments, hm, hall⟩ := blend_duration crawler [crawl 1000 0, crawl 1010 0, crawl 1020 0]
    (by decide) (by decide)
  obtain ⟨a, b, c, rfl, ha, hb, hc⟩ := moments_of_outline hm hs
  simp only [outline, Prod.mk.injEq, decide_eq_true_eq, decide_eq_false_iff_not] at ha hb hc
  refine ⟨a, b, c, hm, ha.1, (hall a [b, c] List.infix_rfl ha.1 ?_).2 ?_⟩
  · exact List.forall_mem_cons.mpr ⟨hb.1, List.forall_mem_singleton.mpr hc.1⟩
  · simp [ha.2.1, hb.2.1, hc.2.1]

/-- A crawl at a quarter lean for one pass: the duration goes up and down again without a blend that
starts, and the fraction of the blend that is over decreases. -/
theorem blend_duration_changes :
    ∃ a b c, trace crawler .fresh [crawl 1000 0, crawl 1010 0.25, crawl 1020 0] = .ok [a, b, c] ∧
      a.restarts ∧ ¬ b.restarts ∧ ¬ c.restarts ∧
      b.pass.classifies crawler ∧ c.pass.classifies crawler ∧
      a.after.movementTime = 150 ∧ b.after.movementTime = 400 ∧ c.after.movementTime = 150 ∧
      b.after.movementEnd - b.after.movementTime ≠ a.pass.time ∧
      ∃ early late, Blend.progress? b.after b.pass.time = .ok (some early) ∧
        Blend.progress? c.after c.pass.time = .ok (some late) ∧ late < early := by
  have hs : (trace crawler .fresh [crawl 1000 0, crawl 1010 0.25, crawl 1020 0]).map (List.map outline) =
      .ok [(true, true, 150, 1150), (false, false, 400, 1150), (false, true, 150, 1150)] := by rfl
  obtain ⟨moments, hm, hpass, -⟩ := trace_linked
    [crawl 1000 0, crawl 1010 0.25, crawl 1020 0] (fresh_steady crawler) (by decide)
  obtain ⟨a, b, c, rfl, ha, hb, hc⟩ := moments_of_outline hm hs
  simp only [outline, Prod.mk.injEq, decide_eq_true_eq, decide_eq_false_iff_not] at ha hb hc
  simp only [List.map_cons, List.map_nil, List.cons.injEq] at hpass
  obtain ⟨hpa, hpb, hpc, -⟩ := hpass
  refine ⟨a, b, c, hm, ha.1, hb.1, hc.1, by rw [hpb]; decide, by rw [hpc]; decide, ha.2.2.1, hb.2.2.1,
    hc.2.2.1, ?_, 1 - Single.ofInt 140 / Single.ofInt 400, 1 - Single.ofInt 130 / Single.ofInt 150, ?_, ?_,
    by decide⟩
  · rw [hb.2.2.1, hb.2.2.2, hpa]
    decide
  · rw [hpb, progress_single (by rw [hb.2.2.1]; decide) (by rw [hb.2.2.2]; decide) (by decide),
      hb.2.2.1, hb.2.2.2]
    rfl
  · rw [hpc, progress_single (by rw [hc.2.2.1]; decide) (by rw [hc.2.2.2]; decide) (by decide),
      hc.2.2.1, hc.2.2.2]
    rfl

end Example

end PlayerAnimation
