import InVehicle.Basic
import InVehicle.Effect
import Mathlib.Data.Finset.Insert

/-!
# The socketcan communicator

`CanCommunicatorSocketCan` holds a bus, once it is open, and a blacklist. Opening it
again, closing it and asking for its bus are the same on every kind of bus.
-/

set_option autoImplicit false

namespace InVehicle.CanSocketCan
open InVehicle.Effect

structure CanMessage where
  arbitrationId : ℕ
  isExtendedId : Bool
  data : Bytes
  deriving DecidableEq, Repr

inductive CanError where
  | alreadyOpen
  | notOpened
  | osError
  deriving DecidableEq, Repr

/-- The fields `_bus`, of any kind of bus, and `blacklist_ids`. -/
structure CanCommunicatorSocketCan (β : Type) where
  bus : Option β
  blacklistIds : Finset ℕ
  deriving DecidableEq

section Open
variable {β : Type}

/-- `SocketcanBus(…)` gives a bus or raises. -/
def openBus (socketcanBus : Option β) : Prog (CanCommunicatorSocketCan β) CanError Unit := do
  let c ← Prog.get
  if c.bus.isSome then Prog.raise .alreadyOpen
  else match socketcanBus with
    | none => Prog.raise .osError
    | some b => Prog.modify fun c => { c with bus := some b }

def closeBus : Prog (CanCommunicatorSocketCan β) CanError Unit :=
  Prog.modify fun c => { c with bus := none }

def getBus : Prog (CanCommunicatorSocketCan β) CanError β := do
  let c ← Prog.get
  match c.bus with
  | none => Prog.raise .notOpened
  | some b => return b

section Ends
variable {c : CanCommunicatorSocketCan β} {b : β}

theorem openBus_again (h : c.bus.isSome) (socketcanBus : Option β) :
    openBus socketcanBus c = (.error .alreadyOpen, c) := by
  unfold openBus
  rw [bind_ok (get_apply c), if_pos h]
  rfl

theorem openBus_none (h : c.bus = none) : openBus none c = (.error .osError, c) := by
  unfold openBus
  rw [bind_ok (get_apply c), h]
  rfl

theorem openBus_some (h : c.bus = none) (b : β) :
    openBus (some b) c = (.ok (), { c with bus := some b }) := by
  unfold openBus
  rw [bind_ok (get_apply c), h]
  rfl

theorem getBus_some (h : c.bus = some b) : getBus c = (.ok b, c) := by
  rw [getBus, bind_ok (get_apply c), h]
  rfl

end Ends

end Open

section Blacklist
variable {β : Type}

def addToBlacklist (c : CanCommunicatorSocketCan β) (canids : List ℕ) :
    CanCommunicatorSocketCan β :=
  { c with blacklistIds := canids.foldl (fun ids canid => insert canid ids) c.blacklistIds }

theorem mem_addToBlacklist (c : CanCommunicatorSocketCan β) (canids : List ℕ) (i : ℕ) :
    i ∈ (addToBlacklist c canids).blacklistIds ↔ i ∈ c.blacklistIds ∨ i ∈ canids := by
  simp only [addToBlacklist]
  generalize c.blacklistIds = ids
  induction canids generalizing ids with
  | nil => simp
  | cons canid canids ih =>
    rw [List.foldl_cons, ih, Finset.mem_insert, List.mem_cons]
    tauto

end Blacklist

end InVehicle.CanSocketCan
