import PlayerAnimation.Movement
import PlayerAnimation.Stance

namespace PlayerAnimation

structure PlayerData (α : Type) where
  stance : StanceTimer
  movement : ControllerMovement
  /-- What the player was doing when the current blend started. -/
  movementLast : ControllerMovement
  movementEnd : Int
  /-- How long a blend into the current movement takes, in milliseconds. -/
  movementTime : Int
  movementRunning : Bool
  movementStart : Controllers α
  /-- Not used at present. -/
  leanBlend : α
deriving DecidableEq

def maxClients : Nat := 64

@[ext] structure PlayerKey where
  client : Fin maxClients
  role : Role
deriving DecidableEq

def PlayerKey.of (clientNum : Nat) (role : Role) : Except Fault PlayerKey :=
  if h : clientNum < maxClients then .ok ⟨⟨clientNum, h⟩, role⟩
  else .error (.clientOutOfRange maxClients clientNum)

structure Store (α : Type) where
  server : Vector (PlayerData α) maxClients
  client : Vector (PlayerData α) maxClients

namespace Store

variable {α : Type}

def table (s : Store α) : Role → Vector (PlayerData α) maxClients
  | .server => s.server
  | .client => s.client

def entry (s : Store α) (key : PlayerKey) : PlayerData α := (s.table key.role)[key.client]

def put (s : Store α) (key : PlayerKey) (data : PlayerData α) : Store α :=
  match key.role with
  | .server => { s with server := s.server.set key.client data }
  | .client => { s with client := s.client.set key.client data }

@[simp] theorem entry_put_self (s : Store α) (key : PlayerKey) (data : PlayerData α) :
    (s.put key data).entry key = data := by
  obtain ⟨client, role⟩ := key
  cases role <;> simp [put, entry, table]

theorem entry_put_of_ne (s : Store α) {key other : PlayerKey} (h : other ≠ key) (data : PlayerData α) :
    (s.put key data).entry other = s.entry other := by
  obtain ⟨client, role⟩ := key
  obtain ⟨client', role'⟩ := other
  cases role <;> cases role' <;> simp [put, entry, table]
  all_goals
    exact Vector.getElem_set_ne _ _ fun hc => h (PlayerKey.ext (Fin.ext hc.symm) rfl)

theorem ext_entry {s t : Store α} (h : ∀ key, s.entry key = t.entry key) : s = t := by
  obtain ⟨server, client⟩ := s
  obtain ⟨server', client'⟩ := t
  congr
  · exact Vector.ext fun i hi => h ⟨⟨i, hi⟩, .server⟩
  · exact Vector.ext fun i hi => h ⟨⟨i, hi⟩, .client⟩

end Store

section Fresh

variable {α : Type} [Scalar α]

def PlayerData.fresh : PlayerData α := ⟨.initial, .empty, .empty, 0, 0, false, .zero, 0⟩

def Store.fresh : Store α := ⟨.replicate _ .fresh, .replicate _ .fresh⟩

@[simp] theorem Store.entry_fresh (key : PlayerKey) :
    (fresh : Store α).entry key = PlayerData.fresh := by
  obtain ⟨client, role⟩ := key
  cases role <;> simp [fresh, entry, table]

end Fresh

inductive PoseEvent
  | stanceTransition (role : Role) (clientNum : Nat) (transition : StanceTransition) (finish : Int)
  | movementChanged (time : Int) (movement : ControllerMovement) (duration : Int)
  | movementFinished (time : Int)
deriving DecidableEq

end PlayerAnimation
