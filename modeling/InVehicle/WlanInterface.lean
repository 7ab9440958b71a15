import InVehicle.Effect
import InVehicle.Words

/-!
# The interface of a monitor socket

The calls with which `WiFiRawSocket` reads and changes the flags, the wireless mode
and the link state of its interface, and `WiFiRawMonitorSocket.open`. How each call
to the outside ends is given; one that does not succeed changes nothing.
-/

set_option autoImplicit false

namespace InVehicle.WlanInterface
open InVehicle.Effect InVehicle.Words

/-- What the kernel keeps: the words that `H` packs and unpacks. -/
@[ext]
structure Interface where
  flags : BitVec 16
  mode : BitVec 16
  deriving DecidableEq, Repr

def iffUp : BitVec 16 := 0x1
def iffBroadcast : BitVec 16 := 0x2
def iffPromisc : BitVec 16 := 0x100
def iffAllmulti : BitVec 16 := 0x200
def iwModeMonitor : BitVec 16 := 6

inductive WlanError where
  | osError
  | typeError
  deriving DecidableEq, Repr

/-- How `subprocess.run` ends: with exit code 0, with another one, or before it starts. -/
inductive Ran where
  | done
  | failed
  | missing
  deriving DecidableEq, Repr

inductive DevState where
  | up
  | down
  deriving DecidableEq, Repr

abbrev Kernel := Prog Interface WlanError

/-! ## The calls -/

/-- A call that raises `OSError` if it does not succeed. -/
def osCall (succeeds : Bool) : Kernel Unit :=
  if succeeds then pure () else Prog.raise .osError

def exceptOsError {α : Type} (m : Kernel α) (a : α) : Kernel α :=
  Prog.attempt m fun
    | .osError => pure a
    | e => Prog.raise e

def readWord (word : Interface → BitVec 16) (succeeds : Bool) : Kernel (Option (BitVec 16)) :=
  exceptOsError (do
    osCall succeeds
    let i ← Prog.get
    return some (word i)) none

def writeWord (change : Interface → Interface) (succeeds : Bool) : Kernel Bool :=
  exceptOsError (do
    osCall succeeds
    Prog.modify change
    return true) false

def getIfFlags : Bool → Kernel (Option (BitVec 16)) := readWord Interface.flags

def setIfFlags (flags : BitVec 16) : Bool → Kernel Bool :=
  writeWord fun i => { i with flags := flags }

/-- `& 0xffff` leaves the word of 16 bits. The second line overwrites the first. -/
def updateIfFlags (originalFlags setFlags clearFlags : ℤ) (succeeds : Bool) : Kernel Bool :=
  let _newFlags := BitVec.ofInt 16 (Int.lor originalFlags setFlags)
  let newFlags := BitVec.ofInt 16 (Int.land originalFlags (Int.lnot clearFlags))
  setIfFlags newFlags succeeds

def setMode (mode : BitVec 16) : Bool → Kernel Bool := writeWord fun i => { i with mode := mode }

def getMode : Bool → Kernel (Option (BitVec 16)) := readWord Interface.mode

def Interface.linked (i : Interface) : DevState → Interface
  | .up => { i with flags := i.flags ||| iffUp }
  | .down => { i with flags := i.flags &&& ~~~iffUp }

/-- Another exit code is a `CalledProcessError`, which is caught; a program that cannot
be started is an `OSError`, which is not. -/
def setDevState (state : DevState) : Ran → Kernel Bool
  | .done => do
    Prog.modify fun i => i.linked state
    return true
  | .failed => return false
  | .missing => Prog.raise .osError

def verifyInterface (verifyFlags : BitVec 16) (flagsRead modeRead : Bool) : Kernel Bool := do
  match ← getIfFlags flagsRead with
  | none => Prog.raise .typeError
  | some flags =>
    if flags &&& verifyFlags = 0 then return false
    else
      let mode ← getMode modeRead
      return mode == some iwModeMonitor

/-! ## Opening -/

/-- How the calls of one `open` end, in their order. -/
structure OpenCalls where
  socket : Bool
  getFlags : Bool
  down : Ran
  getMode : Bool
  setMode : Bool
  setFlags : Bool
  up : Ran
  verifyFlags : Bool
  verifyMode : Bool
  bind : Bool
  flush : Bool
  deriving DecidableEq, Repr

/-- The flags that `open` means to set besides `IFF_UP`. -/
def monitorFlags : BitVec 16 := iffBroadcast ||| iffPromisc ||| iffAllmulti

/-- `open` from the change of the mode on. -/
def startMonitor (flags : BitVec 16) (k : OpenCalls) : Kernel Bool := do
  if ← setMode iwModeMonitor k.setMode then
    if ← updateIfFlags flags.toNat monitorFlags.toNat 0 k.setFlags then
      if ← setDevState .up k.up then
        if ← verifyInterface (iffUp ||| monitorFlags) k.verifyFlags k.verifyMode then
          osCall k.bind
          osCall k.flush
          return true
        else return false
      else return false
    else return false
  else return false

/-- The socket object, with the attributes that `close` reads, and its interface. -/
structure Monitor where
  rawSocket : Bool
  originalFlags : Option (BitVec 16)
  originalMode : Option (BitVec 16)
  interface : Interface
  deriving DecidableEq, Repr

def onInterface {α : Type} (m : Kernel α) : Prog Monitor WlanError α := fun s =>
  ((m s.interface).1, { s with interface := (m s.interface).2 })

def openSocket (k : OpenCalls) : Prog Monitor WlanError Bool := do
  onInterface (osCall k.socket)
  Prog.modify fun s => { s with rawSocket := true }
  match ← onInterface (getIfFlags k.getFlags) with
  | none => return false
  | some flags =>
    Prog.modify fun s => { s with originalFlags := some flags }
    if ← onInterface (setDevState .down k.down) then
      let mode ← onInterface (getMode k.getMode)
      Prog.modify fun s => { s with originalMode := mode }
      if mode.isSome then onInterface (startMonitor flags k) else return false
    else return false

/-! ## What the calls leave -/

section Calls
variable {i j : Interface} {succeeds : Bool} {ran : Ran}

theorem osCall_eq_ok (a : Unit) : osCall succeeds i = (.ok a, j) ↔ succeeds ∧ j = i := by
  cases succeeds with
  | false => simp [osCall, raise_apply]
  | true => simp [osCall, pure_apply, eq_comm]

theorem readWord_apply (word : Interface → BitVec 16) : readWord word succeeds i =
    (.ok (if succeeds then some (word i) else none), i) := by
  cases succeeds <;> rfl

theorem writeWord_apply (change : Interface → Interface) : writeWord change succeeds i =
    (.ok succeeds, if succeeds then change i else i) := by
  cases succeeds <;> rfl

theorem writeWord_true (change : Interface → Interface) :
    writeWord change succeeds i = (.ok true, j) ↔ succeeds ∧ j = change i := by
  rw [writeWord_apply]
  cases succeeds with
  | false => simp
  | true => simp [eq_comm]

theorem setDevState_done (state : DevState) (i : Interface) :
    setDevState state .done i = (.ok true, i.linked state) := rfl

theorem setDevState_true (state : DevState) :
    setDevState state ran i = (.ok true, j) ↔ ran = .done ∧ j = i.linked state := by
  cases ran with
  | done => simp [setDevState, bind_apply, modify_apply, pure_apply, eq_comm]
  | failed => simp [setDevState, pure_apply]
  | missing => simp [setDevState, raise_apply]

theorem verifyInterface_true (v : BitVec 16) (flagsRead modeRead : Bool) :
    verifyInterface v flagsRead modeRead i = (.ok true, j) ↔
      (flagsRead ∧ modeRead ∧ i.flags &&& v ≠ 0 ∧ i.mode = iwModeMonitor) ∧ j = i := by
  rw [verifyInterface, getIfFlags, bind_ok (readWord_apply Interface.flags)]
  cases flagsRead with
  | false => simp [raise_apply]
  | true =>
    by_cases hv : i.flags &&& v = 0
    · simp [hv, pure_apply]
    · simp only [if_true, if_neg hv]
      rw [getMode, bind_ok (readWord_apply Interface.mode)]
      cases modeRead with
      | false => simp [pure_apply]
      | true =>
        simp only [pure_apply, if_true, Prod.mk.injEq, Except.ok.injEq, beq_iff_eq,
          Option.some.injEq, ne_eq, hv, not_false_iff, true_and]
        exact and_congr_right fun _ => eq_comm

end Calls

/-- `open` comes to its end exactly if all calls go through. -/
def OpenCalls.Done (k : OpenCalls) : Prop :=
  k.socket ∧ k.getFlags ∧ k.down = .done ∧ k.getMode ∧ k.setMode ∧ k.setFlags ∧ k.up = .done ∧
    k.verifyFlags ∧ k.verifyMode ∧ k.bind ∧ k.flush

instance (k : OpenCalls) : Decidable k.Done := inferInstanceAs (Decidable (_ ∧ _))

theorem updateIfFlags_none (flags : BitVec 16) (setFlags : ℤ) (succeeds : Bool) :
    updateIfFlags flags.toNat setFlags 0 succeeds = setIfFlags flags succeeds := by
  have h : BitVec.ofInt 16 (Int.land flags.toNat (Int.lnot 0)) = BitVec.ofInt 16 flags.toNat := by
    rw [ofInt_eq_iff]
    intro i hi
    have hzero : Int.testBit 0 i = false := Nat.zero_testBit i
    rw [Int.testBit_land, Int.testBit_lnot, hzero, Bool.not_false, Bool.and_true]
  rw [updateIfFlags, h, BitVec.ofInt_natCast, BitVec.ofNat_toNat, BitVec.setWidth_eq]

theorem up_verified (flags : BitVec 16) : (flags ||| iffUp) &&& (iffUp ||| monitorFlags) ≠ 0 := by
  intro h
  have hbit := congrArg (fun w => w.getLsbD 0) h
  simp [iffUp] at hbit

theorem startMonitor_true (flags : BitVec 16) (k : OpenCalls) (i j : Interface) :
    startMonitor flags k i = (.ok true, j) ↔
      (k.setMode ∧ k.setFlags ∧ k.up = .done ∧ k.verifyFlags ∧ k.verifyMode ∧ k.bind ∧ k.flush) ∧
        j = ⟨flags ||| iffUp, iwModeMonitor⟩ := by
  simp only [startMonitor, bind_ite_eq_true, updateIfFlags_none, setMode, setIfFlags,
    writeWord_true, setDevState_true, verifyInterface_true]
  simp only [bind_eq_ok, osCall_eq_ok, pure_apply, Prod.mk.injEq, true_and]
  constructor
  · rintro ⟨_, ⟨hmode, rfl⟩, _, ⟨hflags, rfl⟩, _, ⟨hup, rfl⟩, _, ⟨⟨hvf, hvm, _, _⟩, rfl⟩,
      _, _, ⟨hbind, rfl⟩, _, _, ⟨hflush, rfl⟩, rfl⟩
    exact ⟨⟨hmode, hflags, hup, hvf, hvm, hbind, hflush⟩, rfl⟩
  · rintro ⟨⟨hmode, hflags, hup, hvf, hvm, hbind, hflush⟩, rfl⟩
    exact ⟨_, ⟨hmode, rfl⟩, _, ⟨hflags, rfl⟩, _, ⟨hup, rfl⟩, _,
      ⟨⟨hvf, hvm, up_verified flags, rfl⟩, rfl⟩, (), _, ⟨hbind, rfl⟩, (), _, ⟨hflush, rfl⟩, rfl⟩

/-! ## Where `open` ends -/

section Open
variable {k : OpenCalls} {s : Monitor}

theorem onInterface_apply {α : Type} (m : Kernel α) :
    onInterface m s = ((m s.interface).1, { s with interface := (m s.interface).2 }) := rfl

theorem onInterface_eq_ok {α : Type} (m : Kernel α) (a : α) (t : Monitor) :
    onInterface m s = (.ok a, t) ↔
      ∃ i, m s.interface = (.ok a, i) ∧ t = { s with interface := i } := by
  rw [onInterface_apply, Prod.mk.injEq]
  constructor
  · rintro ⟨hok, rfl⟩
    exact ⟨(m s.interface).2, Prod.ext hok rfl, rfl⟩
  · rintro ⟨i, hm, rfl⟩
    rw [hm]
    exact ⟨rfl, rfl⟩

theorem open_no_socket (h : k.socket = false) : openSocket k s = (.error .osError, s) := by
  simp only [openSocket, bind_apply, onInterface_apply, osCall, h]
  rfl

theorem open_unread (h : k.socket = true) (hflags : k.getFlags = false) :
    openSocket k s = (.ok false, { s with rawSocket := true }) := by
  simp only [openSocket, bind_apply, onInterface_apply, osCall, h, modify_apply,
    getIfFlags, readWord_apply, hflags]
  rfl

theorem open_link_kept (h : k.socket = true) (hflags : k.getFlags = true) (hdown : k.down ≠ .done) :
    (openSocket k s).1 ≠ .ok true ∧
      (openSocket k s).2 =
        { s with rawSocket := true, originalFlags := some s.interface.flags } := by
  simp only [openSocket, bind_apply, onInterface_apply, osCall, h, modify_apply,
    getIfFlags, readWord_apply, hflags]
  match hran : k.down with
  | .done => exact absurd hran hdown
  | .failed | .missing => exact ⟨by rintro ⟨⟩, rfl⟩

theorem open_modeless (h : k.socket = true) (hflags : k.getFlags = true) (hdown : k.down = .done)
    (hmode : k.getMode = false) :
    openSocket k s = (.ok false,
      ⟨true, some s.interface.flags, none, s.interface.linked .down⟩) := by
  simp only [openSocket, bind_apply, onInterface_apply, osCall, h, modify_apply,
    getIfFlags, readWord_apply, hflags, setDevState, hdown, hmode]
  rfl

theorem open_started (h : k.socket = true) (hflags : k.getFlags = true) (hdown : k.down = .done)
    (hmode : k.getMode = true) :
    openSocket k s = onInterface (startMonitor s.interface.flags k)
      ⟨true, some s.interface.flags, some s.interface.mode, s.interface.linked .down⟩ := by
  simp only [openSocket, bind_apply, onInterface_apply, osCall, h, modify_apply,
    getIfFlags, readWord_apply, hflags, setDevState, hdown, hmode]
  rfl

theorem openSocket_true (t : Monitor) : openSocket k s = (.ok true, t) ↔
    k.Done ∧ t = ⟨true, some s.interface.flags, some s.interface.mode,
      ⟨s.interface.flags ||| iffUp, iwModeMonitor⟩⟩ := by
  by_cases h : k.socket = true
  · by_cases hflags : k.getFlags = true
    · by_cases hdown : k.down = .done
      · by_cases hmode : k.getMode = true
        · rw [open_started h hflags hdown hmode, onInterface_eq_ok]
          simp only [startMonitor_true]
          constructor
          · rintro ⟨i, ⟨hrest, rfl⟩, rfl⟩
            exact ⟨⟨h, hflags, hdown, hmode, hrest⟩, rfl⟩
          · rintro ⟨⟨-, -, -, -, hrest⟩, rfl⟩
            exact ⟨_, ⟨hrest, rfl⟩, rfl⟩
        · rw [open_modeless h hflags hdown (Bool.eq_false_iff.mpr hmode)]
          simp [OpenCalls.Done, hmode]
      · have hne := (open_link_kept (s := s) h hflags hdown).1
        constructor
        · intro hopen
          exact absurd (congrArg Prod.fst hopen) hne
        · rintro ⟨hdone, -⟩
          exact absurd hdone.2.2.1 hdown
    · rw [open_unread h (Bool.eq_false_iff.mpr hflags)]
      simp [OpenCalls.Done, hflags]
  · rw [open_no_socket (Bool.eq_false_iff.mpr h)]
    simp [OpenCalls.Done, h]

end Open

/-! ## Monitoring -/

/-- What `open` returning `True` is to mean: the flags asked for are set besides those
that the interface had, and the mode is that of a monitor. -/
def Monitors (k : OpenCalls) (s : Monitor) : Prop :=
  (openSocket k s).1 = .ok true →
    (openSocket k s).2.interface = ⟨s.interface.flags ||| (iffUp ||| monitorFlags), iwModeMonitor⟩

/-- What `_update_if_flags` is to write. -/
def Writes (originalFlags setFlags clearFlags : ℤ) (i : Interface) : Prop :=
  (updateIfFlags originalFlags setFlags clearFlags true i).2.flags =
    BitVec.ofInt 16 (Int.land (Int.lor originalFlags setFlags) (Int.lnot clearFlags))

theorem monitors_iff_flags (k : OpenCalls) (s : Monitor) :
    Monitors k s ↔ (k.Done → s.interface.flags &&& monitorFlags = monitorFlags) := by
  have hopen : (openSocket k s).1 = .ok true ↔ k.Done := by
    constructor
    · intro h
      exact (openSocket_true (openSocket k s).2).mp (Prod.ext h rfl) |>.1
    · intro h
      exact congrArg Prod.fst (openSocket_true _ |>.mpr ⟨h, rfl⟩)
  rw [Monitors, hopen]
  apply forall_congr'
  intro h
  rw [(openSocket_true _).mpr ⟨h, rfl⟩, Interface.mk.injEq, and_iff_left rfl]
  exact or_eq_or_or_iff (by decide)

theorem writes_iff_bits (originalFlags setFlags clearFlags : ℤ) (i : Interface) :
    Writes originalFlags setFlags clearFlags i ↔ ∀ b < 16, setFlags.testBit b →
      originalFlags.testBit b ∨ clearFlags.testBit b := by
  rw [Writes, updateIfFlags, setIfFlags, writeWord_apply, if_pos rfl, ofInt_eq_iff]
  apply forall₂_congr
  intro b hb
  rw [Int.testBit_land, Int.testBit_land, Int.testBit_lor, Int.testBit_lnot]
  cases originalFlags.testBit b <;> cases setFlags.testBit b <;> cases clearFlags.testBit b <;>
    decide

/-- `open` monitors exactly if the interface has the flags it is to get already, and
`_update_if_flags` writes the right word exactly if the flags to set are there or are
to be cleared. -/
theorem monitor_iff (k : OpenCalls) (s : Monitor) (originalFlags setFlags clearFlags : ℤ)
    (i : Interface) :
    (Monitors k s ↔ (k.Done → s.interface.flags &&& monitorFlags = monitorFlags)) ∧
    (Writes originalFlags setFlags clearFlags i ↔ ∀ b < 16, setFlags.testBit b →
      originalFlags.testBit b ∨ clearFlags.testBit b) :=
  ⟨monitors_iff_flags k s, writes_iff_bits originalFlags setFlags clearFlags i⟩

def allDone : OpenCalls :=
  ⟨true, true, .done, true, true, true, .done, true, true, true, true⟩

/-- An interface that is up, with `IFF_BROADCAST` and `IFF_MULTICAST`, in managed mode. -/
def managed : Monitor := ⟨false, none, none, ⟨0x1003, 2⟩⟩

/-- It is reported as monitoring without `IFF_PROMISC` and `IFF_ALLMULTI`, which
`_update_if_flags` was to write. -/
theorem flags_lost : (openSocket allDone managed).1 = .ok true ∧
    (openSocket allDone managed).2.interface = ⟨0x1003, iwModeMonitor⟩ ∧
    ¬ Monitors allDone managed ∧ ¬ Writes 0x1003 monitorFlags.toNat 0 managed.interface := by
  refine ⟨by decide +kernel, by decide +kernel, ?_, by unfold Writes; decide +kernel⟩
  unfold Monitors
  decide +kernel

end InVehicle.WlanInterface
