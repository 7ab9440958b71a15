import InVehicle.CanSocketCan
import InVehicle.Histories

/-!
# The ISO-TP communicator

`IsoTpCommunicator.open` and `close` over a CAN communicator of their own. The stack
comes from outside: constructing it or starting it may fail.
-/

set_option autoImplicit false

namespace InVehicle.IsoTp
open InVehicle.Effect InVehicle.Histories InVehicle.CanSocketCan

inductive AddressingMode where
  | normal11bits
  | normal29bits
  deriving DecidableEq, Repr

structure Address where
  rxid : ℤ
  txid : ℤ
  addressingMode : AddressingMode
  deriving DecidableEq, Repr

/-- `_params`, where `blocking_send` is always on. -/
structure Params where
  txPadding : Option ℕ
  bitrateSwitch : Bool
  canFd : Bool
  deriving DecidableEq, Repr

structure CanStack (β : Type) where
  bus : β
  address : Address
  params : Params
  started : Bool
  deriving DecidableEq, Repr

structure IsoTpCommunicator (β : Type) where
  canCommunicator : CanCommunicatorSocketCan β
  address : Option Address
  params : Params
  canStack : Option (CanStack β)
  isOpen : Bool
  deriving DecidableEq

inductive IsoTpError where
  | can (e : CanError)
  | stackError
  | attributeError
  deriving DecidableEq, Repr

def canIdMaxNormal11Bits : ℤ := 0x7FF

def addressOf (rxid txid : ℤ) : Address :=
  ⟨rxid, txid, if rxid > canIdMaxNormal11Bits ∨ txid > canIdMaxNormal11Bits
    then .normal29bits else .normal11bits⟩

/-- A padding byte of 0 is none. -/
def paramsOf (paddingByte : Option ℕ) (bitrateSwitch canFd : Option Bool) : Params :=
  ⟨paddingByte.filter (· ≠ 0), bitrateSwitch.getD false, canFd.getD false⟩

section Communicator
variable {β : Type}

/-- A communicator behind `model_post_init`, with a CAN communicator that is not open. -/
def newCommunicator (β : Type) (rxid txid : ℤ) (paddingByte : Option ℕ)
    (bitrateSwitch canFd : Option Bool) (blacklistIds : Finset ℕ) : IsoTpCommunicator β where
  canCommunicator := ⟨none, blacklistIds⟩
  address := some (addressOf rxid txid)
  params := paramsOf paddingByte bitrateSwitch canFd
  canStack := none
  isOpen := false

abbrev Com (β : Type) := Prog (IsoTpCommunicator β) IsoTpError

def onCan {α : Type} (m : Prog (CanCommunicatorSocketCan β) CanError α) : Com β α := fun c =>
  ((m c.canCommunicator).1.mapError .can, { c with canCommunicator := (m c.canCommunicator).2 })

/-- How the steps of one `open` end: the bus that opening it gives, if it does, and whether
the stack is constructed and started. -/
structure OpenSteps (β : Type) where
  socketcanBus : Option β
  constructed : Bool
  started : Bool
  deriving DecidableEq, Repr

def startStack (k : OpenSteps β) : Com β Bool :=
  if k.started then do
    Prog.modify fun c => { c with
      canStack := c.canStack.map fun stack => { stack with started := true } }
    Prog.modify fun c => { c with isOpen := true }
    return true
  else Prog.raise .stackError

def openStack (address : Address) (k : OpenSteps β) : Com β Bool := do
  onCan (openBus k.socketcanBus)
  let bus ← onCan getBus
  if k.constructed then
    Prog.modify fun c => { c with canStack := some ⟨bus, address, c.params, false⟩ }
    startStack k
  else Prog.raise .stackError

def openCom (k : OpenSteps β) : Com β Bool := do
  let c ← Prog.get
  match c.address with
  | none => return false
  | some address => openStack address k

def closeCom : Com β Bool := do
  let c ← Prog.get
  if c.isOpen then
    match c.canStack with
    | none => Prog.raise .attributeError
    | some stack =>
      Prog.modify fun c => { c with canStack := some { stack with started := false } }
      onCan closeBus
      Prog.modify fun c => { c with isOpen := false }
      return true
  else return true

inductive Call (β : Type) where
  | open (k : OpenSteps β)
  | close
  deriving DecidableEq, Repr

def perform (c : IsoTpCommunicator β) : Call β → IsoTpCommunicator β
  | .open k => (openCom k c).2
  | .close => (closeCom c).2

/-! ## Where `open` and `close` end -/

section Ends
variable {c : IsoTpCommunicator β} {address : Address} {k : OpenSteps β} {b : β}

theorem onCan_ok {α : Type} {m : Prog (CanCommunicatorSocketCan β) CanError α} {a : α}
    {d : CanCommunicatorSocketCan β} (h : m c.canCommunicator = (.ok a, d)) :
    onCan m c = (.ok a, { c with canCommunicator := d }) := by
  rw [onCan, h]
  rfl

theorem onCan_error {α : Type} {m : Prog (CanCommunicatorSocketCan β) CanError α} {e : CanError}
    {d : CanCommunicatorSocketCan β} (h : m c.canCommunicator = (.error e, d)) :
    onCan m c = (.error (.can e), { c with canCommunicator := d }) := by
  rw [onCan, h]
  rfl

theorem openCom_address (h : c.address = some address) : openCom k c = openStack address k c := by
  rw [openCom, bind_ok (get_apply c), h]

theorem openCom_again (haddress : c.address = some address) (hbus : c.canCommunicator.bus.isSome) :
    openCom k c = (.error (.can .alreadyOpen), c) := by
  rw [openCom_address haddress, openStack, bind_error (onCan_error (openBus_again hbus _))]

theorem openCom_no_bus (haddress : c.address = some address) (hbus : c.canCommunicator.bus = none)
    (hk : k.socketcanBus = none) : openCom k c = (.error (.can .osError), c) := by
  rw [openCom_address haddress, openStack, hk, bind_error (onCan_error (openBus_none hbus))]

def withBus (c : IsoTpCommunicator β) (b : β) : IsoTpCommunicator β :=
  { c with canCommunicator := { c.canCommunicator with bus := some b } }

theorem openCom_bus (haddress : c.address = some address) (hbus : c.canCommunicator.bus = none)
    (hk : k.socketcanBus = some b) : openCom k c =
      if k.constructed then
        if k.started then (.ok true, { withBus c b with
          canStack := some ⟨b, address, c.params, true⟩, isOpen := true })
        else (.error .stackError, { withBus c b with
          canStack := some ⟨b, address, c.params, false⟩ })
      else (.error .stackError, withBus c b) := by
  have hget : onCan getBus (withBus c b) = (.ok b, withBus c b) := onCan_ok (getBus_some rfl)
  rw [openCom_address haddress, openStack, hk, bind_ok (onCan_ok (openBus_some hbus b)),
    ← withBus, bind_ok hget]
  by_cases hconstructed : k.constructed
  · rw [if_pos hconstructed, if_pos hconstructed, bind_ok (modify_apply _ _), startStack]
    by_cases hstarted : k.started
    · rw [if_pos hstarted, if_pos hstarted]
      rfl
    · rw [if_neg hstarted, if_neg hstarted]
      rfl
  · rw [if_neg hconstructed, if_neg hconstructed]
    rfl

theorem closeCom_closed (h : c.isOpen = false) : closeCom c = (.ok true, c) := by
  rw [closeCom, bind_ok (get_apply c), h]
  rfl

theorem closeCom_open {stack : CanStack β} (h : c.isOpen = true)
    (hstack : c.canStack = some stack) : closeCom c = (.ok true, { c with
      canCommunicator := { c.canCommunicator with bus := none }
      canStack := some { stack with started := false }
      isOpen := false }) := by
  rw [closeCom, bind_ok (get_apply c), if_pos h, hstack]
  rfl

end Ends

/-! ## Histories -/

def Started (c : IsoTpCommunicator β) : Prop := ∃ stack ∈ c.canStack, stack.started

/-- `_is_open` says that the CAN bus is open and the stack is started. -/
def Coupled (c : IsoTpCommunicator β) : Prop :=
  c.isOpen = true ↔ c.canCommunicator.bus.isSome ∧ Started c

def OpenSteps.Succeed (k : OpenSteps β) : Prop := k.socketcanBus.isSome ∧ k.constructed ∧ k.started

/-- What a call is to do: an `open` that raises leaves the CAN bus as it was, a `close`
leaves it closed, so that an `open` succeeds if its steps do. -/
def Atomic (c : IsoTpCommunicator β) : Call β → Prop
  | .open k => ((∃ e, (openCom k c).1 = .error e) →
      (openCom k c).2.canCommunicator = c.canCommunicator) ∧ Coupled (openCom k c).2
  | .close => (closeCom c).2.canCommunicator.bus = none ∧ Coupled (closeCom c).2 ∧
      ∀ k : OpenSteps β, k.Succeed → (openCom k (closeCom c).2).1 = .ok true

/-- On a CAN bus that this `open` has opened the stack is constructed and started. -/
def Stacked (c : IsoTpCommunicator β) : Call β → Prop
  | .open k => c.canCommunicator.bus = none → k.socketcanBus.isSome → k.constructed ∧ k.started
  | .close => True

def Paired (c : IsoTpCommunicator β) : Prop :=
  c.address.isSome ∧
    if c.isOpen then c.canCommunicator.bus.isSome ∧ Started c
    else c.canCommunicator.bus = none ∧ ¬ Started c

theorem paired_coupled {c : IsoTpCommunicator β} (h : Paired c) : Coupled c := by
  rw [Coupled]
  by_cases hopen : c.isOpen = true
  · rw [Paired, if_pos hopen] at h
    exact iff_of_true hopen h.2
  · rw [Paired, if_neg hopen] at h
    exact iff_of_false hopen fun hboth => h.2.2 hboth.2

theorem paired_close {c : IsoTpCommunicator β} (h : Paired c) :
    (closeCom c).1 = .ok true ∧ Paired (closeCom c).2 ∧
      (closeCom c).2.canCommunicator.bus = none := by
  by_cases hopen : c.isOpen = true
  · obtain ⟨haddress, hboth⟩ := h
    rw [if_pos hopen] at hboth
    obtain ⟨stack, hstack, -⟩ := hboth.2
    rw [closeCom_open hopen hstack]
    refine ⟨rfl, ⟨haddress, rfl, ?_⟩, rfl⟩
    rintro ⟨stack', hstack', hstarted⟩
    cases hstack'
    cases hstarted
  · rw [closeCom_closed (Bool.eq_false_iff.mpr hopen)]
    refine ⟨rfl, h, ?_⟩
    rw [Paired, if_neg hopen] at h
    exact h.2.1

theorem paired_open_succeeds {c : IsoTpCommunicator β} (h : Paired c)
    (hbus : c.canCommunicator.bus = none) {k : OpenSteps β} (hk : k.Succeed) :
    (openCom k c).1 = .ok true ∧ Paired (openCom k c).2 := by
  obtain ⟨address, haddress⟩ := Option.isSome_iff_exists.mp h.1
  obtain ⟨b, hb⟩ := Option.isSome_iff_exists.mp hk.1
  rw [openCom_bus haddress hbus hb, if_pos hk.2.1, if_pos hk.2.2]
  exact ⟨rfl, h.1, rfl, _, rfl, rfl⟩

theorem paired_open_again {c : IsoTpCommunicator β} (h : Paired c)
    (hbus : c.canCommunicator.bus.isSome) (k : OpenSteps β) :
    openCom k c = (.error (.can .alreadyOpen), c) := by
  obtain ⟨address, haddress⟩ := Option.isSome_iff_exists.mp h.1
  exact openCom_again haddress hbus

/-- An `open` that has no stack to show for its bus has changed the bus. -/
theorem open_not_atomic {c : IsoTpCommunicator β} (h : Paired c)
    (hbus : c.canCommunicator.bus = none) {k : OpenSteps β} (hk : k.socketcanBus.isSome)
    (hstack : ¬ (k.constructed ∧ k.started)) :
    (∃ e, (openCom k c).1 = .error e) ∧
      (openCom k c).2.canCommunicator ≠ c.canCommunicator := by
  obtain ⟨address, haddress⟩ := Option.isSome_iff_exists.mp h.1
  obtain ⟨b, hb⟩ := Option.isSome_iff_exists.mp hk
  have hne : (withBus c b).canCommunicator ≠ c.canCommunicator := by
    intro heq
    have hsome := congrArg CanCommunicatorSocketCan.bus heq
    rw [hbus] at hsome
    cases hsome
  rw [openCom_bus haddress hbus hb]
  by_cases hconstructed : k.constructed
  · rw [if_pos hconstructed, if_neg fun hstarted => hstack ⟨hconstructed, hstarted⟩]
    exact ⟨⟨_, rfl⟩, hne⟩
  · rw [if_neg hconstructed]
    exact ⟨⟨_, rfl⟩, hne⟩

theorem atomic_open_iff {c : IsoTpCommunicator β} (h : Paired c) (k : OpenSteps β) :
    (Atomic c (.open k) ↔ Stacked c (.open k)) ∧
      (Stacked c (.open k) → Paired (openCom k c).2) := by
  by_cases hbus : c.canCommunicator.bus = none
  · cases hk : k.socketcanBus with
    | none =>
      obtain ⟨address, haddress⟩ := Option.isSome_iff_exists.mp h.1
      simp only [Atomic, Stacked, openCom_no_bus haddress hbus hk, hk]
      have hfalse : ¬ (none : Option β).isSome := Bool.false_ne_true
      exact ⟨iff_of_true ⟨fun _ => trivial, paired_coupled h⟩ fun _ hnone => absurd hnone hfalse,
        fun _ => h⟩
    | some b =>
      have hsome : k.socketcanBus.isSome := by rw [hk]; rfl
      by_cases hstack : k.constructed ∧ k.started
      · obtain ⟨hok, hpaired⟩ := paired_open_succeeds h hbus ⟨hsome, hstack⟩
        refine ⟨iff_of_true ⟨?_, paired_coupled hpaired⟩ fun _ _ => hstack, fun _ => hpaired⟩
        rintro ⟨e, he⟩
        rw [hok] at he
        cases he
      · obtain ⟨herror, hne⟩ := open_not_atomic h hbus hsome hstack
        have hnot : ¬ Stacked c (.open k) := fun hst => hstack (hst hbus hsome)
        exact ⟨iff_of_false (fun hat => hne (hat.1 herror)) hnot, fun hst => absurd hst hnot⟩
  · have hagain := paired_open_again h (Option.isSome_iff_ne_none.mpr hbus) k
    simp only [Atomic, Stacked, hagain]
    exact ⟨iff_of_true ⟨fun _ => trivial, paired_coupled h⟩ fun hnone => absurd hnone hbus,
      fun _ => h⟩

theorem atomic_close {c : IsoTpCommunicator β} (h : Paired c) : Atomic c .close := by
  obtain ⟨-, hpaired, hbus⟩ := paired_close h
  refine ⟨hbus, paired_coupled hpaired, ?_⟩
  intro k hk
  exact (paired_open_succeeds hpaired hbus hk).1

end Communicator

theorem new_paired {β : Type} (rxid txid : ℤ) (paddingByte : Option ℕ)
    (bitrateSwitch canFd : Option Bool) (blacklistIds : Finset ℕ) :
    Paired (newCommunicator β rxid txid paddingByte bitrateSwitch canFd blacklistIds) := by
  refine ⟨rfl, rfl, ?_⟩
  rintro ⟨stack, hstack, -⟩
  cases hstack

/-- Every call of a history is atomic exactly if no `open` gets the CAN bus and fails at
the stack. -/
theorem calls_iff {β : Type} (rxid txid : ℤ) (paddingByte : Option ℕ)
    (bitrateSwitch canFd : Option Bool) (blacklistIds : Finset ℕ) (calls : List (Call β)) :
    Each perform Atomic
        (newCommunicator β rxid txid paddingByte bitrateSwitch canFd blacklistIds) calls ↔
      Each perform Stacked
        (newCommunicator β rxid txid paddingByte bitrateSwitch canFd blacklistIds) calls := by
  apply each_iff_each (I := Paired)
  · intro c call hc hstacked
    cases call with
    | «open» k => exact (atomic_open_iff hc k).2 hstacked
    | close => exact (paired_close hc).2.1
  · intro c call hc
    cases call with
    | «open» k => exact (atomic_open_iff hc k).1
    | close => exact iff_of_true (atomic_close hc) trivial
  · exact new_paired rxid txid paddingByte bitrateSwitch canFd blacklistIds

/-- The stack is not constructed: the CAN bus stays open, `close` does not close it,
and the next `open` raises. -/
theorem bus_left_open :
    let c := newCommunicator Unit 0x123 0x456 none none none ∅
    let calls : List (Call Unit) := [.open ⟨some (), false, true⟩, .close]
    ¬ Each perform Atomic c calls ∧
    (run perform c calls).canCommunicator.bus = some () ∧
    (openCom ⟨some (), true, true⟩ (run perform c calls)).1 = .error (.can .alreadyOpen) := by
  refine ⟨?_, rfl, rfl⟩
  rintro ⟨⟨h, -⟩, -⟩
  have hbus := congrArg CanCommunicatorSocketCan.bus (h ⟨.stackError, rfl⟩)
  cases hbus

end InVehicle.IsoTp
