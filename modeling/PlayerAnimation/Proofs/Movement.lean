import Mathlib.Data.List.Nodup
import PlayerAnimation.Proofs.Blend.Time
import PlayerAnimation.Proofs.Store.Edit

namespace PlayerAnimation

namespace ControllerMovement

def directions : List ControllerMovement := [moving, movingBackwards]

def sides : List ControllerMovement := [movingLeft, movingRight]

def strafes : List ControllerMovement := [strafeLeft, strafeRight]

def stances : List ControllerMovement := [stand, crouch, prone]

def acts : List ControllerMovement :=
  [standLeanLeft, crouchLeanLeft, proneForwardReload, proneBackwardsFire, proneBackwardsReload]

def climbs : List ControllerMovement := [climbUp, climbDown]

def kinds : List (List ControllerMovement) := [directions, sides, strafes, stances, acts, climbs]

def stanceOf (act : ControllerMovement) : ControllerMovement :=
  if act = standLeanLeft then stand else if act = crouchLeanLeft then crouch else prone

def flags : List ControllerMovement := base :: kinds.flatten

def isMoving (m : ControllerMovement) : Bool := directions.any m.contains

/-- A movement that is put together by the rules, as far as it goes. -/
structure Composed (m : ControllerMovement) : Prop where
  base : m.contains base
  once : ∀ kind ∈ kinds, kind.countP m.contains ≤ 1
  moves : ∀ f ∈ strafes ++ acts, m.contains f → m.isMoving
  stance : ∀ act ∈ acts, m.contains act → m.contains (stanceOf act)
  only : (Flags.unions flags).contains m

structure WellFormed (m : ControllerMovement) : Prop extends Composed m where
  stands : stances.countP m.contains = 1

section Flag

variable {m f g : ControllerMovement} {kind other : List ControllerMovement}

theorem exists_bit (hf : f ∈ flags) : ∃ i < 32, f = .bit i := by
  have h : ∀ f ∈ flags, ∃ i < 32, f = .bit i := by decide
  exact h f hf

theorem contains_or_left (hg : g ∈ flags) (h : m.contains g) (n : ControllerMovement) :
    (m ||| n).contains g := by
  obtain ⟨i, hi, rfl⟩ := exists_bit hg
  rw [Flags.contains_or_bit m n hi, h, Bool.true_or]

theorem contains_or_flag (hf : f ∈ flags) (hg : g ∈ flags) :
    (m ||| f).contains g = (m.contains g || decide (f = g)) := by
  have hsame : ∀ f ∈ flags, ∀ g ∈ flags, f.contains g = decide (f = g) := by decide
  obtain ⟨i, hi, rfl⟩ := exists_bit hg
  rw [Flags.contains_or_bit m f hi, hsame f hf _ hg]

theorem mem_flags (hkind : kind ∈ kinds) (hf : f ∈ kind) : f ∈ flags :=
  List.mem_cons_of_mem _ (List.mem_flatten.mpr ⟨kind, hkind, hf⟩)

theorem kind_unique (hkind : kind ∈ kinds) (hother : other ∈ kinds) (hf : f ∈ kind) (hf' : f ∈ other) :
    kind = other := by
  have h : ∀ kind ∈ kinds, ∀ other ∈ kinds, ∀ f ∈ kind, f ∈ other → kind = other := by decide
  exact h kind hkind other hother f hf hf'

theorem countP_or (h : kind ∈ kinds ∧ other ∈ kinds ∧ kind ≠ other) (hf : f ∈ .empty :: other) :
    kind.countP (m ||| f).contains = kind.countP m.contains := by
  obtain ⟨hkind, hother, hne⟩ := h
  obtain rfl | hf := List.mem_cons.mp hf
  · rw [Flags.or_empty]
  · apply List.countP_congr
    intro g hg
    have hfg : f ≠ g := by
      rintro rfl
      exact hne (kind_unique hkind hother hg hf)
    rw [contains_or_flag (mem_flags hother hf) (mem_flags hkind hg), decide_eq_false hfg, Bool.or_false]

theorem countP_or_self (hkind : kind ∈ kinds) (hf : f ∈ kind) (hfree : kind.countP m.contains = 0) :
    kind.countP (m ||| f).contains = 1 := by
  have hnodup : ∀ kind ∈ kinds, kind.Nodup := by decide
  rw [← List.count_eq_one_of_mem (hnodup kind hkind) hf]
  apply List.countP_congr
  intro g hg
  have hg' : m.contains g = false := Bool.eq_false_iff.mpr (List.countP_eq_zero.mp hfree g hg)
  rw [contains_or_flag (mem_flags hkind hf) (mem_flags hkind hg), hg', Bool.false_or, decide_eq_true_iff,
    beq_iff_eq, eq_comm]

theorem isMoving_or_left (h : m.isMoving) (n : ControllerMovement) : (m ||| n).isMoving := by
  obtain ⟨d, hd, hm⟩ := List.any_eq_true.mp h
  have hkind : directions ∈ kinds := by decide
  exact List.any_eq_true.mpr ⟨d, hd, contains_or_left (mem_flags hkind hd) hm n⟩

end Flag

section Compose

variable {m f : ControllerMovement} {kind : List ControllerMovement}

theorem composed_base : Composed base := by
  refine ⟨by decide, by decide, by decide, by decide, by decide⟩

theorem Composed.or (h : Composed m) (hkind : kind ∈ kinds) (hf : f ∈ .empty :: kind)
    (hfree : kind.countP m.contains = 0) (hmoves : f ∈ strafes ++ acts → m.isMoving)
    (hstance : f ∈ acts → m.contains (stanceOf f)) : Composed (m ||| f) := by
  obtain rfl | hf := List.mem_cons.mp hf
  · rwa [Flags.or_empty]
  have hflag : f ∈ flags := mem_flags hkind hf
  have hadded : ∀ {g}, g ∈ flags → (m ||| f).contains g → m.contains g ∨ f = g := by
    intro g hg hmem
    rwa [contains_or_flag hflag hg, Bool.or_eq_true, decide_eq_true_iff] at hmem
  have hdependent : ∀ g ∈ strafes ++ acts, g ∈ flags := by decide
  have hact : ∀ act ∈ acts, act ∈ flags ∧ stanceOf act ∈ flags := by decide
  have hall : ∀ g ∈ flags, (Flags.unions flags).contains g := by decide
  refine ⟨contains_or_left List.mem_cons_self h.base f, ?_, ?_, ?_, Flags.contains_or h.only (hall f hflag)⟩
  · intro other hother
    by_cases hsame : other = kind
    · rw [hsame]
      exact Nat.le_of_eq (countP_or_self hkind hf hfree)
    · rw [countP_or ⟨hother, hkind, hsame⟩ (List.mem_cons_of_mem _ hf)]
      exact h.once other hother
  · intro g hg hmem
    obtain hmem | rfl := hadded (hdependent g hg) hmem
    · exact isMoving_or_left (h.moves g hg hmem) f
    · exact isMoving_or_left (hmoves hg) f
  · intro act ha hmem
    obtain hmem | rfl := hadded (hact act ha).1 hmem
    · exact contains_or_left (hact act ha).2 (h.stance act ha hmem) f
    · exact contains_or_left (hact f ha).2 (hstance ha) f

theorem Composed.or_plain (h : Composed m) (hkind : kind ∈ [directions, sides, stances, climbs])
    (hf : f ∈ .empty :: kind) (hfree : kind.countP m.contains = 0) : Composed (m ||| f) := by
  have hplain : ∀ kind ∈ [directions, sides, stances, climbs],
      kind ∈ kinds ∧ ∀ f ∈ .empty :: kind, f ∉ strafes ++ acts := by
    decide
  obtain ⟨hkind, hnone⟩ := hplain kind hkind
  have hdepends : f ∉ strafes ++ acts := hnone f hf
  exact h.or hkind hf hfree (absurd · hdepends) fun hact =>
    absurd (List.mem_append_right _ hact) hdepends

end Compose

section Locomotion

def Acts (l : Locomotion) (stance act : ControllerMovement) : Prop :=
  act = .empty ∨ act ∈ acts ∧ l.isMoving ∧ stanceOf act = stance

variable {α : Type} [Scalar α] (l : Locomotion) (yaw : α)

theorem pick_mem (a b : Bool) (f g : ControllerMovement) :
    (if a then f else if b then g else .empty) ∈ [Flags.empty, f, g] := by
  split_ifs <;> simp

theorem pick_eq_empty {a b : Bool} (h : ¬ (a || b)) (f g : ControllerMovement) :
    (if a then f else if b then g else .empty) = Flags.empty := by
  rw [Bool.not_eq_true, Bool.or_eq_false_iff] at h
  rw [h.1, h.2]
  rfl

theorem direction_isMoving (h : l.isMoving) :
    (base ||| if l.forward then moving else if l.backward then movingBackwards else .empty).isMoving := by
  rw [Locomotion.isMoving, Bool.or_eq_true] at h
  split_ifs with hf hb
  · decide
  · decide
  · exact absurd h (not_or.mpr ⟨hf, hb⟩)

theorem locomotion_isMoving (h : l.isMoving) : (l.movement yaw).isMoving :=
  isMoving_or_left (isMoving_or_left (direction_isMoving l h) _) _

theorem strafes_isMoving (h : l.strafesLeft yaw || l.strafesRight yaw) : l.isMoving := by
  simp only [Locomotion.strafesLeft, Locomotion.strafesRight, Bool.or_eq_true, Bool.and_eq_true] at h
  rw [Locomotion.isMoving, Bool.or_eq_true]
  tauto

theorem locomotion_free : stances.countP (l.movement yaw).contains = 0 ∧
    acts.countP (l.movement yaw).contains = 0 ∧ climbs.countP (l.movement yaw).contains = 0 := by
  have hfree : ∀ kind ∈ [stances, acts, climbs], kind.countP (l.movement yaw).contains = 0 := by
    intro kind hkind
    have hin : ∀ kind ∈ [stances, acts, climbs], kind.countP base.contains = 0 ∧
        ∀ other ∈ [directions, sides, strafes], kind ∈ kinds ∧ other ∈ kinds ∧ kind ≠ other := by
      decide
    obtain ⟨hbase, hapart⟩ := hin kind hkind
    simp only [List.forall_mem_cons] at hapart
    obtain ⟨hdirections, hsides, hstrafes, -⟩ := hapart
    rw [Locomotion.movement, countP_or hstrafes (pick_mem _ _ _ _), countP_or hsides (pick_mem _ _ _ _),
      countP_or hdirections (pick_mem _ _ _ _)]
    exact hbase
  simp only [List.forall_mem_cons] at hfree
  exact ⟨hfree.1, hfree.2.1, hfree.2.2.1⟩

theorem locomotion_composed : Composed (l.movement yaw) := by
  have hd := pick_mem l.forward l.backward moving movingBackwards
  have hs := pick_mem l.left l.right movingLeft movingRight
  have hst := pick_mem (l.strafesLeft yaw) (l.strafesRight yaw) strafeLeft strafeRight
  have hfree : directions.countP base.contains = 0 ∧ sides.countP base.contains = 0 ∧
      strafes.countP base.contains = 0 := by
    decide
  have hdirections : directions ∈ [directions, sides, stances, climbs] := by decide
  have hsides : sides ∈ [directions, sides, stances, climbs] := by decide
  have hstrafes : strafes ∈ kinds := by decide
  have hwalk := composed_base.or_plain hdirections hd hfree.1
  have hside := hwalk.or_plain hsides hs (by rw [countP_or (by decide) hd]; exact hfree.2.1)
  rw [Locomotion.movement]
  refine hside.or hstrafes hst ?_ ?_ ?_
  · rw [countP_or (by decide) hs, countP_or (by decide) hd]
    exact hfree.2.2
  · intro hmem
    by_cases hstrafe : l.strafesLeft yaw || l.strafesRight yaw
    · exact isMoving_or_left (direction_isMoving l (strafes_isMoving l yaw hstrafe)) _
    · rw [pick_eq_empty hstrafe] at hmem
      exact absurd hmem (by decide)
  · intro hmem
    have hnone : ∀ f ∈ .empty :: strafes, f ∉ acts := by decide
    exact absurd hmem (hnone _ hst)

theorem locomotion_stance {stance act : ControllerMovement} (hstance : stance ∈ stances)
    (hact : Acts l stance act) :
    WellFormed (l.movement yaw ||| stance ||| act) ∧
      climbs.countP (l.movement yaw ||| stance ||| act).contains = 0 ∧
      (l.movement yaw ||| stance ||| act).contains stance := by
  obtain ⟨hnostance, hnoact, hnoclimb⟩ := locomotion_free l yaw
  have hstances : stances ∈ kinds := by decide
  have hacts : acts ∈ kinds := by decide
  have hplain : stances ∈ [directions, sides, stances, climbs] := by decide
  have hstance' : stance ∈ .empty :: stances := List.mem_cons_of_mem _ hstance
  have hact' : act ∈ .empty :: acts := List.mem_cons.mpr (hact.imp_right And.left)
  have hflag : stance ∈ flags := mem_flags hstances hstance
  have hin : (l.movement yaw ||| stance).contains stance := by
    rw [contains_or_flag hflag hflag, decide_eq_true rfl, Bool.or_true]
  have hsole : stances.countP (l.movement yaw ||| stance).contains = 1 :=
    countP_or_self hstances hstance hnostance
  have hstands := (locomotion_composed l yaw).or_plain hplain hstance' hnostance
  have hcomposed : Composed (l.movement yaw ||| stance ||| act) := by
    obtain rfl | ⟨hmem, hmoves, hof⟩ := hact
    · rwa [Flags.or_empty]
    · refine hstands.or hacts hact' ?_ ?_ ?_
      · rw [countP_or (by decide) hstance']
        exact hnoact
      · exact fun _ => isMoving_or_left (locomotion_isMoving l yaw hmoves) stance
      · intro _
        rw [hof]
        exact hin
  refine ⟨⟨hcomposed, ?_⟩, ?_, contains_or_left hflag hin act⟩
  · rw [countP_or (by decide) hact']
    exact hsole
  · rw [countP_or (by decide) hact', countP_or (by decide) hstance']
    exact hnoclimb

theorem WellFormed.or_climb {m f : ControllerMovement} (h : WellFormed m) (hf : f ∈ .empty :: climbs)
    (hfree : climbs.countP m.contains = 0) : WellFormed (m ||| f) := by
  refine ⟨h.toComposed.or_plain (by decide) hf hfree, ?_⟩
  rw [countP_or (by decide) hf]
  exact h.stands

end Locomotion

end ControllerMovement

def EntityState.stance {α : Type} (es : EntityState α) : ControllerMovement :=
  if es.isProne then .prone else if es.isCrouching then .crouch else .stand

namespace Enhanced

open Angle ControllerMovement

variable {α : Type} [Scalar α]

theorem upright_word (es : EntityState α) (l : Locomotion) (yaw lean : α) (p : Controllers α) :
    ∃ act, Acts l (if es.isCrouching then .crouch else .stand) act ∧
      (upright es l yaw lean p).movement =
        l.movement yaw ||| (if es.isCrouching then .crouch else .stand) ||| act := by
  rw [upright]
  cases hinto : leansIntoMove l lean yaw with
  | false => exact ⟨.empty, Or.inl rfl, (Flags.or_empty _).symm⟩
  | true =>
      simp only [leansIntoMove, Bool.and_eq_true] at hinto
      refine ⟨if es.isCrouching then crouchLeanLeft else standLeanLeft, Or.inr ⟨?_, hinto.1.1.2, ?_⟩, rfl⟩
      · split_ifs <;> decide
      · split_ifs <;> decide

theorem prone_word (l : Locomotion) (lean yaw : α) (torso : Option (Animation α)) (p : Controllers α) :
    ∃ act, Acts l ControllerMovement.prone act ∧
      (prone l lean yaw torso p).movement = l.movement yaw ||| ControllerMovement.prone ||| act := by
  have hidle : Acts l ControllerMovement.prone .empty := Or.inl rfl
  have hnone : l.movement yaw ||| ControllerMovement.prone =
      l.movement yaw ||| ControllerMovement.prone ||| .empty := (Flags.or_empty _).symm
  have hforward : l.forward → l.isMoving := fun h => by rw [Locomotion.isMoving, h, Bool.true_or]
  have hbackward : l.backward → l.isMoving := fun h => by rw [Locomotion.isMoving, h, Bool.or_true]
  rw [prone]
  dsimp only
  split_ifs with hback hside hreload
  · have hmoves := hbackward (Bool.and_eq_true_iff.mp hback).1
    cases torso with
    | none => exact ⟨.empty, hidle, hnone⟩
    | some a =>
        dsimp only
        split_ifs
        · exact ⟨proneBackwardsReload, Or.inr ⟨by decide, hmoves, by decide⟩, rfl⟩
        · exact ⟨proneBackwardsFire, Or.inr ⟨by decide, hmoves, by decide⟩, rfl⟩
  · exact ⟨.empty, hidle, hnone⟩
  · have hmoves := hforward (Bool.and_eq_true_iff.mp hreload).1
    exact ⟨proneForwardReload, Or.inr ⟨by decide, hmoves, by decide⟩, rfl⟩
  · exact ⟨.empty, hidle, hnone⟩

theorem ladder_word (ci : ClientInfo α) (moveTypes : MoveTypes) {e : Enhanced α} {m : ControllerMovement}
    (h : e.movement = m) :
    ∃ climb ∈ Flags.empty :: climbs, (ladder ci moveTypes e).movement = m ||| climb := by
  rw [ladder, ← h]
  split_ifs
  · exact ⟨climbUp, by decide, rfl⟩
  · exact ⟨climbDown, by decide, rfl⟩
  · exact ⟨.empty, by decide, (Flags.or_empty _).symm⟩

theorem of_word (host : Host α) (es : EntityState α) (ci : ClientInfo α) (p : Controllers α) :
    ∃ act climb, Acts (locomotion host es ci) es.stance act ∧ climb ∈ Flags.empty :: climbs ∧
      (of host es ci p).movement =
        (locomotion host es ci).movement ci.movementYaw ||| es.stance ||| act ||| climb := by
  rw [of, EntityState.stance]
  cases es.isProne with
  | true =>
      obtain ⟨act, hact, hword⟩ := prone_word (locomotion host es ci) ci.lean ci.movementYaw
        (ci.torso.animation.bind host.animation) p
      obtain ⟨climb, hclimb, hladder⟩ := ladder_word ci (host.moveTypes ci) hword
      exact ⟨act, climb, hact, hclimb, hladder⟩
  | false =>
      obtain ⟨act, hact, hword⟩ := upright_word es (locomotion host es ci) ci.movementYaw (leanCurve ci.lean) p
      obtain ⟨climb, hclimb, hladder⟩ := ladder_word ci (host.moveTypes ci) hword
      exact ⟨act, climb, hact, hclimb, hladder⟩

theorem of_wellFormed (host : Host α) (es : EntityState α) (ci : ClientInfo α) (p : Controllers α) :
    WellFormed (of host es ci p).movement ∧ (of host es ci p).movement.contains es.stance := by
  have hstance : es.stance ∈ stances := by
    rw [EntityState.stance]
    split_ifs <;> decide
  obtain ⟨act, climb, hact, hclimb, hword⟩ := of_word host es ci p
  obtain ⟨hwell, hfree, hin⟩ := locomotion_stance (locomotion host es ci) ci.movementYaw hstance hact
  rw [hword]
  exact ⟨hwell.or_climb hclimb hfree, contains_or_left (mem_flags (by decide) hstance) hin climb⟩

end Enhanced

variable {α : Type} [Scalar α]

open ControllerMovement

structure Worded (d : PlayerData α) : Prop where
  movement : d.movement = .empty ∨ WellFormed d.movement
  last : d.movementLast = .empty ∨ WellFormed d.movementLast

namespace Worded

theorem fresh : Worded (PlayerData.fresh : PlayerData α) := ⟨Or.inl rfl, Or.inl rfl⟩

theorem keeps (time : Int) : Keeps (Worded : PlayerData α → Prop) time where
  edit d d' hedit h := by
    cases hedit with
    | classify host es ci base => exact ⟨Or.inr (Enhanced.of_wellFormed host es ci base).1, h.last⟩
    | restart => exact ⟨h.movement, h.movement⟩
    | settle => exact ⟨h.movement, h.last⟩
  stance _ _ h := ⟨h.movement, h.last⟩

end Worded

/-- A call that records the movement of a player, and the entity that it reads it off. -/
inductive Classifies (key : PlayerKey) : Call α → EntityState α → Prop
  | build {frame : Frame} {host es ci neutral} (henhanced : frame.compat = .enhanced)
      (hkey : PlayerKey.of ci.clientNum frame.role = .ok key) (hneutral : ¬ (neutral && frame.role = .server))
      (hgun : ¬ es.onMountedGun) : Classifies key (.build frame host es ci neutral) es
  | pose {frame : Frame} {host es ci tuning} (henhanced : frame.compat = .enhanced)
      (hkey : PlayerKey.of ci.clientNum frame.role = .ok key)
      (hneutral : ¬ (tuning.neutral && frame.role = .server)) (hgun : ¬ es.onMountedGun) :
      Classifies key (.pose frame host es ci tuning) es

theorem buildTarget_movement {frame : Frame} {host : Host α} {s : Store α} {es : EntityState α}
    {ci : ClientInfo α} {neutral : Bool} {built : Built α} {key : PlayerKey}
    (h : buildTarget frame host s es ci neutral = .ok built) (henhanced : frame.compat = .enhanced)
    (hkey : PlayerKey.of ci.clientNum frame.role = .ok key) (hneutral : ¬ (neutral && frame.role = .server))
    (hgun : ¬ es.onMountedGun) :
    ∃ base, (built.store.entry key).movement = (Enhanced.of host es ci base).movement := by
  rw [buildTarget, if_neg hneutral, if_neg hgun] at h
  dsimp only at h
  rw [if_pos (Compat.isEnhanced_iff.mpr henhanced)] at h
  obtain ⟨mine, hmine, h⟩ := bind_eq_ok.mp h
  obtain rfl := Except.ok.inj (hkey.symm.trans hmine)
  obtain ⟨progress, -, h⟩ := bind_eq_ok.mp h
  obtain rfl := pure_eq_ok.mp h
  exact ⟨_, congrArg PlayerData.movement (Store.entry_put_self s key _)⟩

theorem begin_movement {d begun : PlayerData α} {time : Int} {pose : Controllers α} {events : List PoseEvent}
    (h : Blend.begin d time pose = .ok (begun, events)) : begun.movement = d.movement := by
  by_cases hm : d.movement = d.movementLast
  · rw [Blend.begin_same h hm]
  · obtain ⟨duration, -, -, rfl⟩ := Blend.begin_started h hm
    rfl

theorem Store.call_movement {s s' : Store α} {call : Call α} {outcome : Outcome α} {key : PlayerKey}
    {es : EntityState α} (h : s.call call = .ok (outcome, s')) (hcall : Classifies key call es) :
    ∃ host ci base, (s'.entry key).movement = (Enhanced.of host es ci base).movement := by
  cases hcall with
  | build henhanced hkey hneutral hgun =>
      obtain ⟨built, hbuilt, -, rfl⟩ := call_build.mp h
      exact ⟨_, _, buildTarget_movement hbuilt henhanced hkey hneutral hgun⟩
  | @pose frame host _ ci tuning henhanced hkey hneutral hgun =>
      obtain ⟨posed, hposed, -, rfl⟩ := call_pose.mp h
      obtain ⟨built, mine, begun, events, progress, hbuilt, hmine, hbegin, -, hstore, -⟩ :=
        poseController_enhanced hposed henhanced
      obtain rfl := Except.ok.inj (hkey.symm.trans hmine)
      obtain ⟨base, hbase⟩ := buildTarget_movement hbuilt henhanced hkey hneutral hgun
      obtain ⟨running, hrunning⟩ := Blend.finish_eq begun progress frame.time
      refine ⟨host, ci, base, ?_⟩
      rw [hstore, entry_put_self, hrunning]
      exact (begin_movement hbegin).trans hbase

/-- The movements that a store has recorded since it was fresh are put together by the rules, and that of the
last call is in the stance of its entity. -/
theorem movements_wellFormed {calls : List (Call α)} {outcomes : List (Outcome α)} {s : Store α}
    (h : (Store.fresh : Store α).run calls = .ok (outcomes, s)) (key : PlayerKey) :
    Worded (s.entry key) ∧
    ∀ before call es, calls = before ++ [call] → Classifies key call es →
      WellFormed (s.entry key).movement ∧ (s.entry key).movement.contains es.stance := by
  constructor
  · have hfresh : Worded ((Store.fresh : Store α).entry key) := by
      rw [Store.entry_fresh]
      exact .fresh
    exact Store.run_keeps (fun _ _ frame _ => Worded.keeps frame.time) .fresh h hfresh
  · rintro before call es rfl hcall
    obtain ⟨_, _, _, -, hlast⟩ := Store.run_concat h
    obtain ⟨host, ci, base, hmovement⟩ := Store.call_movement hlast hcall
    rw [hmovement]
    exact Enhanced.of_wellFormed host es ci base

section Example

def fallenBack : List (Call Float32) :=
  [.pose ⟨.server, .enhanced, 1000, 50⟩
    (.ofScript #[⟨"", .empty, .empty, 0, 0⟩, ⟨"", .empty, .empty, 0, 0⟩] .walkProneBack false)
    { EntityState.initial 0 with flags := EntityFlags.crouch ||| EntityFlags.prone }
    { ClientInfo.initial 0 with
      movementYaw := 0 / 0
      torso := Started.play .initial ⟨1⟩ 0 }
    ⟨false, none⟩]

theorem movements_wellFormed_fallenBack :
    ∃ outcomes s, (Store.fresh : Store Float32).run fallenBack = .ok (outcomes, s) ∧
      Worded (s.entry (.first .server)) ∧ WellFormed (s.entry (.first .server)).movement ∧
      (s.entry (.first .server)).movement.contains prone ∧
      (s.entry (.first .server)).movement = base ||| movingBackwards ||| prone ||| proneBackwardsFire := by
  obtain ⟨⟨outcomes, s⟩, h⟩ : ∃ p, (Store.fresh : Store Float32).run fallenBack = .ok p :=
    exists_eq_ok (by rfl)
  have hword : ((Store.fresh : Store Float32).run fallenBack).map
      (fun p => (p.2.entry (.first .server)).movement) =
        .ok (base ||| movingBackwards ||| prone ||| proneBackwardsFire) := by
    rfl
  rw [h] at hword
  obtain ⟨hworded, hlast⟩ := movements_wellFormed h (.first .server)
  obtain ⟨hwell, hstance⟩ := hlast [] _ _ rfl (.pose rfl rfl (by decide) (by decide))
  exact ⟨outcomes, s, h, hworded, hwell, hstance, Except.ok.inj hword⟩

end Example

end PlayerAnimation
