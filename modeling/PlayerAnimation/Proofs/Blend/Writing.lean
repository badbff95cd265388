import PlayerAnimation.Blend
import PlayerAnimation.Proofs.Fault

namespace PlayerAnimation

variable {α : Type}

/-- What a model shows once something has been written to it. -/
def BoneWrite.apply (shown : Controllers α) : BoneWrite α → Controllers α
  | .bone c angles => shown.set c angles
  | .origin offset angles => (shown.set .originOffset offset).set .originAngles angles

theorem Controllers.foldl_writes (p shown : Controllers α) : p.writes.foldl BoneWrite.apply shown = p := by
  apply ext_get
  intro c
  cases c with
  | backLow | backMid | backUp | neck | head | pelvis =>
      simp [writes, Controller.bones, BoneWrite.apply, get_set]
  | originAngles | originOffset =>
      simp [writes, Controller.bones, BoneWrite.apply, get_set]
      rfl

namespace Blend

namespace Writing

variable (w : Writing α) (f : Controller → Vec3 α → Vec3 α)

theorem visit_pose (c : Controller) (g : Vec3 α → Vec3 α) :
    (w.visit c g).pose = w.pose.set c (g (w.pose.get c)) := by
  rw [visit]
  split <;> rfl

theorem visit_writes (c : Controller) (g : Vec3 α → Vec3 α) :
    (w.visit c g).writes = w.writes ++ if c.isOrigin then [] else [.bone c ((w.visit c g).pose.get c)] := by
  rw [visit]
  split
  · exact (List.append_nil _).symm
  · rfl

variable {cs : List Controller}

theorem visitEach_get_of_not_mem {c : Controller} (h : c ∉ cs) :
    (w.visitEach cs f).pose.get c = w.pose.get c := by
  induction cs generalizing w with
  | nil => rfl
  | cons d cs ih =>
      obtain ⟨hd, hcs⟩ := not_or.mp (mt List.mem_cons.mpr h)
      calc ((w.visit d (f d)).visitEach cs f).pose.get c = (w.visit d (f d)).pose.get c := ih _ hcs
        _ = w.pose.get c := by rw [visit_pose, Controllers.get_set, if_neg hd]

theorem visitEach_get (hcs : cs.Nodup) {c : Controller} (h : c ∈ cs) :
    (w.visitEach cs f).pose.get c = f c (w.pose.get c) := by
  induction cs generalizing w with
  | nil => cases h
  | cons d cs ih =>
      obtain ⟨hd, hcs⟩ := List.nodup_cons.mp hcs
      change ((w.visit d (f d)).visitEach cs f).pose.get c = _
      by_cases hc : c = d
      · subst hc
        rw [visitEach_get_of_not_mem _ _ hd, visit_pose, Controllers.get_set, if_pos rfl]
      · rw [ih _ hcs ((List.mem_cons.mp h).resolve_left hc), visit_pose, Controllers.get_set, if_neg hc]

theorem visitEach_writes (hcs : cs.Nodup) :
    (w.visitEach cs f).writes =
      w.writes ++ (cs.filter fun c => !c.isOrigin).map fun c => .bone c ((w.visitEach cs f).pose.get c) := by
  induction cs generalizing w with
  | nil => exact (List.append_nil _).symm
  | cons d cs ih =>
      obtain ⟨hd, hcs⟩ := List.nodup_cons.mp hcs
      -- The controllers that come later are not the one just written, which stays where it was then.
      have hlast : ((w.visit d (f d)).visitEach cs f).pose.get d = (w.visit d (f d)).pose.get d :=
        visitEach_get_of_not_mem _ _ hd
      change ((w.visit d (f d)).visitEach cs f).writes = w.writes ++
        ((d :: cs).filter fun c => !c.isOrigin).map fun c =>
          .bone c (((w.visit d (f d)).visitEach cs f).pose.get c)
      rw [ih _ hcs, visit_writes, List.append_assoc, List.filter_cons]
      cases d.isOrigin with
      | true => rfl
      | false =>
          change _ = w.writes ++ .bone d (((w.visit d (f d)).visitEach cs f).pose.get d) :: _
          rw [hlast]
          rfl

theorem writeOrigin_visitEach (current : Controllers α) :
    ((start current).visitEach Controller.all f).writeOrigin =
      let pose := Controllers.ofFn fun c => f c (current.get c)
      ⟨pose, pose.writes⟩ := by
  have hnodup : Controller.all.Nodup := by decide
  have hmem (c : Controller) : c ∈ Controller.all := by cases c <;> decide
  have hpose : ((start current).visitEach Controller.all f).pose = .ofFn fun c => f c (current.get c) := by
    apply Controllers.ext_get
    intro c
    rw [visitEach_get _ f hnodup (hmem c), Controllers.get_ofFn]
    rfl
  have hbones : Controller.all.filter (fun c => !c.isOrigin) = Controller.bones := by decide
  rw [writeOrigin, visitEach_writes _ f hnodup, hpose, hbones]
  rfl

end Writing

variable [Scalar α]

theorem stepEach_eq (duration : α) (target current : Controllers α) :
    stepEach duration target current =
      ⟨step duration target current, (step duration target current).writes⟩ :=
  Writing.writeOrigin_visitEach (fun c => stepSlot duration c (target.get c)) current

theorem advance_get (data : PlayerData α) (progress : Option α) (duration : α) (target current : Controllers α)
    (c : Controller) :
    (advance data progress duration target current).get c =
      advanceSlot data progress duration c (target.get c) (current.get c) := by
  have hstep : (step duration target current).get c = stepSlot duration c (target.get c) (current.get c) :=
    Controllers.get_ofFn _ c
  cases progress with
  | none => exact hstep
  | some p =>
      rw [advance, advanceSlot]
      split
      · exact Controllers.get_ofFn _ c
      · exact hstep

theorem advanceEach_eq (data : PlayerData α) (progress : Option α) (duration : α) (target current : Controllers α) :
    advanceEach data progress duration target current =
      ⟨advance data progress duration target current, (advance data progress duration target current).writes⟩ := by
  have hpose : Controllers.ofFn (fun c => advanceSlot data progress duration c (target.get c) (current.get c)) =
      advance data progress duration target current := by
    apply Controllers.ext_get
    intro c
    rw [advance_get, Controllers.get_ofFn]
  rw [advanceEach, Writing.writeOrigin_visitEach, hpose]

end Blend

open Blend in
theorem poseController_eq [Scalar α] (frame : Frame) (host : Host α) (store : Store α)
    (es : EntityState α) (ci : ClientInfo α) (tuning : Tuning α) :
    poseController frame host store es ci tuning = (do
      let built ← buildTarget frame host store es ci tuning.neutral
      let duration := Scalar.ofInt frame.frameTime
      if frame.compat.isEnhanced then
        let target := match tuning.offsets with
          | some offsets => built.target + offsets
          | none => built.target
        let key ← PlayerKey.of ci.clientNum frame.role
        let (data, begun) ← begin (built.store.entry key) frame.time ci.control
        let progress ← progress? data frame.time
        let control := advance data progress duration target ci.control
        let (data, finished) := finish data progress frame.time
        pure
          { target
            client := { ci with control }
            store := built.store.put key data
            bones := control.writes
            edits := built.edits
            events := begun ++ finished }
      else
        let control := step duration built.target ci.control
        pure
          { target := built.target
            client := { ci with control }
            store := built.store
            bones := control.writes
            edits := built.edits
            events := [] }) := by
  obtain ⟨neutral, offsets⟩ := tuning
  cases offsets with
  | none | some offsets => simp only [poseController, stepEach_eq, advanceEach_eq]

theorem poseController_writes [Scalar α] {frame : Frame} {host : Host α} {s : Store α} {es : EntityState α}
    {ci : ClientInfo α} {tuning : Tuning α} {posed : Posed α}
    (h : poseController frame host s es ci tuning = .ok posed) :
    ∃ control, posed.client = { ci with control } ∧ posed.bones = control.writes := by
  rw [poseController_eq] at h
  obtain ⟨built, -, h⟩ := bind_eq_ok.mp h
  dsimp only at h
  split at h
  · obtain ⟨key, -, h⟩ := bind_eq_ok.mp h
    obtain ⟨begun, -, h⟩ := bind_eq_ok.mp h
    obtain ⟨progress, -, h⟩ := bind_eq_ok.mp h
    obtain rfl := pure_eq_ok.mp h
    exact ⟨_, rfl, rfl⟩
  · obtain rfl := pure_eq_ok.mp h
    exact ⟨_, rfl, rfl⟩

/-- A pass writes every bone once, as it is in the pose that is kept, and after them the origin tag. Whatever
the model showed before, it shows that pose afterwards. Nothing else that is kept about the player changes. -/
theorem pose_written [Scalar α] {frame : Frame} {host : Host α} {s : Store α} {es : EntityState α}
    {ci : ClientInfo α} {tuning : Tuning α} {posed : Posed α}
    (h : poseController frame host s es ci tuning = .ok posed) :
    let control := posed.client.control
    posed.bones =
        Controller.bones.map (fun c => .bone c (control.get c)) ++
          [.origin control.originOffset control.originAngles] ∧
      (∀ c angles, .bone c angles ∈ posed.bones → c.isOrigin = false) ∧
      (∀ shown, posed.bones.foldl BoneWrite.apply shown = control) ∧
      posed.client = { ci with control } := by
  obtain ⟨control, hclient, hbones⟩ := poseController_writes h
  rw [hclient, hbones]
  refine ⟨rfl, fun c angles hmem => ?_, control.foldl_writes, rfl⟩
  have hnone : ∀ c ∈ Controller.bones, c.isOrigin = false := by decide
  rw [Controllers.writes, List.mem_append] at hmem
  obtain hbone | horigin := hmem
  · obtain ⟨_, hc, hwrite⟩ := List.mem_map.mp hbone
    obtain rfl := (BoneWrite.bone.inj hwrite).1
    exact hnone _ hc
  · cases List.mem_singleton.mp horigin

section Example

theorem pose_written_nodding :
    let frame : Frame := ⟨.client, .enhanced, 1000, 50⟩
    let host : Host Float32 := .ofScript #[] .run false
    let ci : ClientInfo Float32 := { ClientInfo.initial 3 with lean := 0.5, control := .ofFn fun _ => ⟨1, 2, 3⟩ }
    let offsets : Controllers Float32 := Controllers.zero.set .head ⟨10, 0, 0⟩
    ∃ posed, poseController frame host .fresh (.initial 3) ci ⟨false, some offsets⟩ = .ok posed ∧
      let control := posed.client.control
      posed.bones =
          [.bone .backLow control.backLow, .bone .backMid control.backMid, .bone .backUp control.backUp,
            .bone .neck control.neck, .bone .head control.head, .bone .pelvis control.pelvis,
            .origin control.originOffset control.originAngles] ∧
        (∀ shown, posed.bones.foldl BoneWrite.apply shown = control) ∧ posed.client = { ci with control } := by
  intro frame host ci offsets
  obtain ⟨posed, h⟩ : ∃ posed, poseController frame host .fresh (.initial 3) ci ⟨false, some offsets⟩ = .ok posed :=
    exists_eq_ok (by decide +kernel)
  obtain ⟨hbones, -, hshown, hclient⟩ := pose_written h
  exact ⟨posed, h, hbones, hshown, hclient⟩

end Example

end PlayerAnimation
