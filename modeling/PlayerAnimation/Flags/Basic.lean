namespace PlayerAnimation

structure FlagSpec where
  name : String
  width : Nat
  flags : List (String × Nat)

structure Flags (spec : FlagSpec) where
  bits : BitVec spec.width
deriving DecidableEq

namespace Flags

variable {spec : FlagSpec}

def empty : Flags spec := ⟨0⟩

def bit (i : Nat) : Flags spec := ⟨1 <<< i⟩

def union (f g : Flags spec) : Flags spec := ⟨f.bits ||| g.bits⟩

instance : OrOp (Flags spec) := ⟨union⟩

instance : Inhabited (Flags spec) := ⟨empty⟩

def unions (fs : List (Flags spec)) : Flags spec := fs.foldr union empty

def contains (f g : Flags spec) : Bool := f.bits &&& g.bits == g.bits

def intersects (f g : Flags spec) : Bool := f.bits &&& g.bits != 0

def known (spec : FlagSpec) : Flags spec := unions (spec.flags.map fun flag => bit flag.2)

def unknown (f : Flags spec) : Flags spec := ⟨f.bits &&& ~~~(known spec).bits⟩

@[simp] theorem bits_or (f g : Flags spec) : (f ||| g).bits = f.bits ||| g.bits := rfl

end Flags

end PlayerAnimation
