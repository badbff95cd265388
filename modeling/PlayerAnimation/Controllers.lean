import PlayerAnimation.Vec3

namespace PlayerAnimation

inductive Controller
  | backLow
  | backMid
  | backUp
  | neck
  | head
  | pelvis
  | originAngles
  | originOffset
deriving DecidableEq

namespace Controller

def bones : List Controller := [backLow, backMid, backUp, neck, head, pelvis]

def all : List Controller := bones ++ [originAngles, originOffset]

def isOrigin : Controller → Bool
  | originAngles | originOffset => true
  | _ => false

def name : Controller → String
  | backLow => "BackLow"
  | backMid => "BackMid"
  | backUp => "BackUp"
  | neck => "Neck"
  | head => "Head"
  | pelvis => "Pelvis"
  | originAngles => "OriginAngles"
  | originOffset => "OriginOffset"

def tag : Controller → String
  | backLow => "back_low"
  | backMid => "back_mid"
  | backUp => "back_up"
  | neck => "neck"
  | head => "head"
  | pelvis => "pelvis"
  | originAngles | originOffset => "tag_origin"

end Controller

/-- A pose: a rotation for every controller, except that `originOffset` is a translation. -/
@[ext] structure Controllers (α : Type) where
  backLow : Vec3 α
  backMid : Vec3 α
  backUp : Vec3 α
  neck : Vec3 α
  head : Vec3 α
  pelvis : Vec3 α
  originAngles : Vec3 α
  originOffset : Vec3 α
deriving DecidableEq

namespace Controllers

variable {α : Type}

def get (p : Controllers α) : Controller → Vec3 α
  | .backLow => p.backLow
  | .backMid => p.backMid
  | .backUp => p.backUp
  | .neck => p.neck
  | .head => p.head
  | .pelvis => p.pelvis
  | .originAngles => p.originAngles
  | .originOffset => p.originOffset

def ofFn (f : Controller → Vec3 α) : Controllers α where
  backLow := f .backLow
  backMid := f .backMid
  backUp := f .backUp
  neck := f .neck
  head := f .head
  pelvis := f .pelvis
  originAngles := f .originAngles
  originOffset := f .originOffset

@[simp] theorem get_ofFn (f : Controller → Vec3 α) (c : Controller) : (ofFn f).get c = f c := by
  cases c <;> rfl

@[simp] theorem ofFn_get (p : Controllers α) : ofFn p.get = p := rfl

def set (p : Controllers α) (c : Controller) (v : Vec3 α) : Controllers α :=
  .ofFn fun other => if other = c then v else p.get other

theorem get_set (p : Controllers α) (c other : Controller) (v : Vec3 α) :
    (p.set c v).get other = if other = c then v else p.get other := by
  rw [set, get_ofFn]

theorem ext_get {p q : Controllers α} (h : ∀ c, p.get c = q.get c) : p = q := by
  rw [← ofFn_get p, ← ofFn_get q, funext h]

variable [Scalar α]

def zero : Controllers α := ofFn fun _ => .zero

instance : Add (Controllers α) := ⟨fun p q => ofFn fun c => p.get c + q.get c⟩

end Controllers

inductive BoneWrite (α : Type)
  | bone (controller : Controller) (angles : Vec3 α)
  | origin (offset angles : Vec3 α)
deriving DecidableEq

def Controllers.writes {α : Type} (p : Controllers α) : List (BoneWrite α) :=
  Controller.bones.map (fun c => .bone c (p.get c)) ++ [.origin p.originOffset p.originAngles]

end PlayerAnimation
